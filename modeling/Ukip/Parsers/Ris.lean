import Ukip.Analytics.Corpus
import Ukip.Foundation.Grouping
import Ukip.Foundation.KeyedTable

/-!
# The RIS parser

`parse_ris`: the values of a repeated tag are buffered for each tag, and joined into the field
of the tag when the record ends.
-/

namespace Ukip.Parsers.Ris

open Foundation.Grouping
open Foundation.KeyedTable (lastFor lastFor_append lastFor_eq_none lastFor_of_mem lastFor_some)
open Analytics.Corpus (isPythonSpace strip)

def typeMap : List (String × String) :=
  [("JOUR", "journal_article"), ("JFULL", "journal_article"), ("ABST", "journal_article"),
    ("BOOK", "book"), ("CHAP", "book_chapter"), ("CONF", "conference_paper"),
    ("CPAPER", "conference_paper"), ("THES", "thesis"), ("RPRT", "technical_report"),
    ("MGZN", "magazine_article"), ("NEWS", "news"), ("ELEC", "website"), ("PATENT", "patent"),
    ("PCOMM", "personal_communication"), ("DATA", "dataset"), ("MISC", "other"), ("GEN", "other")]

def tagMap : List (String × String) :=
  [("TI", "title"), ("T1", "title"), ("CT", "title"), ("BT", "title"), ("AU", "authors"),
    ("A1", "authors"), ("A2", "editors"), ("A3", "authors"), ("A4", "authors"), ("PY", "year"),
    ("Y1", "year"), ("DO", "doi"), ("JO", "journal"), ("JF", "journal"), ("J2", "journal"),
    ("T2", "journal"), ("AB", "abstract"), ("N2", "abstract"), ("KW", "keywords"), ("VL", "volume"),
    ("IS", "issue"), ("SP", "start_page"), ("EP", "end_page"), ("SN", "issn"), ("UR", "url"),
    ("L2", "url"), ("PB", "publisher"), ("CY", "address"), ("AD", "institution"),
    ("LA", "language"), ("N1", "note"), ("ID", "_cite_key")]

def multiValueTags : List String := ["AU", "A1", "A2", "A3", "A4", "KW"]

inductive Line where
  | endOfRecord
  | tagged (tag value : String)
  | other
  deriving DecidableEq

def readLine (rawLine : String) : Line :=
  let line := (rawLine.toList.reverse.dropWhile isPythonSpace).reverse
  if ['E', 'R'] <+: line ∧ [' ', ' ', '-'] <:+: line then .endOfRecord
  else if 6 ≤ line.length ∧ (line.drop 2).take 4 = [' ', ' ', '-', ' '] then
    let value := strip isPythonSpace (line.drop 6)
    if value = [] then .other
    else .tagged (String.ofList (strip isPythonSpace (line.take 2))) (String.ofList value)
  else .other

/-- A dictionary as the assignments that made it; the last one of a key counts. -/
abbrev Record := List (String × String)

def get (record : Record) (field : String) : Option String :=
  (lastFor Prod.fst field record).map Prod.snd

structure State where
  records : List Record
  current : Record
  multiBuffers : List (String × List String)

variable (lower : String → String)

def flush (current : Record) (multiBuffers : List (String × List String)) : Record :=
  current ++ multiBuffers.map fun buffer =>
    ((tagMap.lookup buffer.1).getD (lower buffer.1), "; ".intercalate buffer.2)

def closeRecord (state : State) : List Record :=
  if state.current = [] then state.records
  else state.records ++ [flush lower state.current state.multiBuffers]

/-- What a line of a single-valued tag assigns. -/
def assignments (tag value : String) : Record :=
  if tag = "TY" then
    [("entity_type", (typeMap.lookup value).getD (lower value)), ("_ris_type", value)]
  else
    match tagMap.lookup tag with
    | some mapped => [(mapped, value)]
    | none => []

def step (state : State) (rawLine : String) : State :=
  match readLine rawLine with
  | .endOfRecord => ⟨closeRecord lower state, [], []⟩
  | .tagged tag value =>
    if tag ∈ multiValueTags then { state with multiBuffers := add tag value state.multiBuffers }
    else { state with current := state.current ++ assignments lower tag value }
  | .other => state

/-- `parse_ris` of the lines of the content. -/
def parseRis (lines : List String) : List Record :=
  closeRecord lower (lines.foldl (step lower) ⟨[], [], []⟩)

structure TagLine where
  line : String
  tag : String
  value : String
  reads : readLine line = .tagged tag value

structure File where
  closed : List (List TagLine × { line : String // readLine line = .endOfRecord })
  /-- a last record without its `ER` line -/
  rest : List TagLine

def File.lines (file : File) : List String :=
  file.closed.flatMap (fun record => record.1.map TagLine.line ++ [record.2.1]) ++ file.rest.map TagLine.line

def File.records (file : File) : List (List TagLine) :=
  file.closed.map Prod.fst ++ if file.rest = [] then [] else [file.rest]

def multiFields : List String := ["authors", "editors", "keywords"]

def given (record : List TagLine) (field : String) : List String :=
  (record.filter fun line => tagMap.lookup line.tag = some field).map TagLine.value

def assigned (line : TagLine) : Record :=
  if line.tag ∈ multiValueTags then [] else assignments lower line.tag line.value

/-- A multi-valued field has all values given for it, another field one of them. -/
structure Kept (record : List TagLine) (parsed : Record) : Prop where
  multi : ∀ field ∈ multiFields,
    if given record field = [] then get parsed field = none
    else ∃ values, values.Perm (given record field) ∧ get parsed field = some ("; ".intercalate values)
  single : ∀ field ∉ multiFields,
    (∀ text, get parsed field = some text → (field, text) ∈ record.flatMap (assigned lower)) ∧
      ((∃ text, (field, text) ∈ record.flatMap (assigned lower)) → (get parsed field).isSome)

/-- A type or a single-valued field is given, and the author lines all have one tag. -/
def Legible (record : List TagLine) : Prop :=
  record.flatMap (assigned lower) ≠ [] ∧
    ∀ first ∈ record, ∀ second ∈ record, first.tag ∈ multiValueTags →
      tagMap.lookup first.tag = tagMap.lookup second.tag → first.tag = second.tag

def buffered (line : TagLine) : List (String × String) :=
  if line.tag ∈ multiValueTags then [(line.tag, line.value)] else []

def hasFields (record : List TagLine) : Bool := decide (record.flatMap (assigned lower) ≠ [])

def recordOf (record : List TagLine) : Record :=
  flush lower (record.flatMap (assigned lower)) (grouped (record.flatMap buffered))

theorem foldl_lines (record : List TagLine) (state : State) :
    (record.map TagLine.line).foldl (step lower) state =
      { state with
        current := state.current ++ record.flatMap (assigned lower)
        multiBuffers := (record.flatMap buffered).foldl (fun groups pair => add pair.1 pair.2 groups)
          state.multiBuffers } := by
  induction record generalizing state with
  | nil => simp
  | cons line rest ih =>
    rw [List.map_cons, List.foldl_cons, ih, step, line.reads, List.flatMap_cons, List.flatMap_cons]
    by_cases multi : line.tag ∈ multiValueTags <;> simp [multi, assigned, buffered]

theorem parseRis_eq (file : File) :
    parseRis lower file.lines =
      (file.records.filter (hasFields lower)).map (recordOf lower) := by
  have run : ∀ (closed : List (List TagLine × { line : String // readLine line = .endOfRecord }))
      (done : List Record),
      (closed.flatMap fun record => record.1.map TagLine.line ++ [record.2.1]).foldl (step lower)
        ⟨done, [], []⟩ = ⟨done ++ ((closed.map Prod.fst).filter (hasFields lower)).map (recordOf lower), [], []⟩ := by
    intro closed
    induction closed with
    | nil => simp
    | cons record rest ih =>
      intro done
      rw [List.flatMap_cons, List.foldl_append, List.foldl_append, foldl_lines, List.foldl_cons, step,
        record.2.2, List.foldl_nil]
      dsimp only
      rw [ih, closeRecord]
      by_cases empty : record.1.flatMap (assigned lower) = []
      · have noFields : hasFields lower record.1 = false := decide_eq_false (not_not.mpr empty)
        simp [empty, noFields]
      · have fields : hasFields lower record.1 = true := decide_eq_true empty
        rw [List.map_cons, List.filter_cons_of_pos fields, List.map_cons, List.append_cons]
        simp [empty, recordOf, grouped]
  rw [parseRis, File.lines, List.foldl_append, run, foldl_lines, closeRecord, File.records]
  by_cases noRest : file.rest = []
  · simp [noRest]
  · by_cases empty : file.rest.flatMap (assigned lower) = []
    · have noFields : hasFields lower file.rest = false := decide_eq_false (not_not.mpr empty)
      simp [noRest, empty, noFields]
    · have fields : hasFields lower file.rest = true := decide_eq_true empty
      rw [if_neg noRest, List.filter_append, List.filter_cons_of_pos fields]
      simp [empty, recordOf, grouped]

theorem multiFields_iff {tag field : String} (mapped : tagMap.lookup tag = some field) :
    field ∈ multiFields ↔ tag ∈ multiValueTags := by
  obtain ⟨before, after, split, _⟩ := List.lookup_eq_some_iff.mp mapped
  have member : (tag, field) ∈ tagMap := split ▸ List.mem_append_right before List.mem_cons_self
  have table : ∀ entry ∈ tagMap, entry.2 ∈ multiFields ↔ entry.1 ∈ multiValueTags := by decide
  exact table (tag, field) member

theorem mapped_of_multi {tag : String} (multi : tag ∈ multiValueTags) :
    ∃ field ∈ multiFields, tagMap.lookup tag = some field := by
  revert tag
  decide

theorem assigned_single {line : TagLine} {entry : String × String} (member : entry ∈ assigned lower line) :
    entry.1 ∉ multiFields := by
  unfold assigned assignments at member
  split at member
  · cases member
  next single =>
  split at member
  · rcases List.mem_cons.mp member with isType | later
    · simp [isType, multiFields]
    · simp [List.mem_singleton.mp later, multiFields]
  · split at member
    · next mapped found =>
      rw [List.mem_singleton.mp member]
      exact fun listed => single ((multiFields_iff found).mp listed)
    · cases member

/-- The entries that the buffers add, one for each multi-valued tag of the record. -/
def joined (record : List TagLine) : Record :=
  (grouped (record.flatMap buffered)).map fun buffer =>
    ((tagMap.lookup buffer.1).getD (lower buffer.1), "; ".intercalate buffer.2)

def withTag (record : List TagLine) (tag : String) : List String :=
  (record.filter fun line => line.tag = tag).map TagLine.value

theorem itemsOf_buffered {tag : String} (multi : tag ∈ multiValueTags) (record : List TagLine) :
    itemsOf (record.flatMap buffered) tag = withTag record tag := by
  induction record with
  | nil => rfl
  | cons line rest ih =>
    unfold itemsOf withTag at ih ⊢
    rw [List.flatMap_cons, List.filter_append, List.map_append, ih]
    by_cases same : line.tag = tag
    · simp [buffered, same, multi]
    · by_cases other : line.tag ∈ multiValueTags <;> simp [buffered, same, other]

theorem mem_joined_iff (record : List TagLine) (entry : String × String) :
    entry ∈ joined lower record ↔ ∃ line ∈ record, line.tag ∈ multiValueTags ∧
      tagMap.lookup line.tag = some entry.1 ∧ entry.2 = "; ".intercalate (withTag record line.tag) := by
  have buffers (tag value : String) : (tag, value) ∈ record.flatMap buffered ↔
      ∃ line ∈ record, tag ∈ multiValueTags ∧ line.tag = tag ∧ line.value = value := by
    rw [List.mem_flatMap]
    refine exists_congr fun line => and_congr_right fun _ => ?_
    unfold buffered
    split
    · next multi => simp only [List.mem_singleton, Prod.mk.injEq]; grind
    · next single => simp only [List.not_mem_nil, false_iff]; grind
  unfold joined
  rw [List.mem_map]
  constructor
  · rintro ⟨⟨tag, values⟩, member, rfl⟩
    obtain ⟨keyed, valuesAre⟩ := (mem_grouped_iff _ _).mp member
    obtain ⟨⟨_, value⟩, listed, rfl⟩ := List.mem_map.mp keyed
    obtain ⟨line, stored, multi, sameTag, _⟩ := (buffers _ value).mp listed
    obtain ⟨field, _, found⟩ := mapped_of_multi multi
    dsimp only at valuesAre sameTag found
    rw [itemsOf_buffered multi] at valuesAre
    refine ⟨line, stored, sameTag ▸ multi, ?_, ?_⟩
    · rw [sameTag, found]
      rfl
    · rw [sameTag, valuesAre]
  · rintro ⟨line, stored, multi, found, text⟩
    refine ⟨(line.tag, withTag record line.tag), (mem_grouped_iff _ _).mpr ⟨?_, ?_⟩, ?_⟩
    · exact List.mem_map_of_mem ((buffers line.tag line.value).mpr ⟨line, stored, multi, rfl, rfl⟩)
    · exact (itemsOf_buffered multi record).symm
    · rw [found, ← text]
      rfl

def size (values : List String) : Nat := (values.map fun value => value.length + 2).sum

theorem length_joined {values : List String} (filled : values ≠ []) :
    ("; ".intercalate values).length + 2 = size values := by
  induction values with
  | nil => exact absurd rfl filled
  | cons value rest ih =>
    cases rest with
    | nil => simp [size]
    | cons next rest =>
      have later := ih (List.cons_ne_nil next rest)
      rw [String.intercalate_cons_cons, String.length_append, String.length_append]
      have two : "; ".length = 2 := rfl
      simp only [size, List.map_cons, List.sum_cons] at later ⊢
      omega

variable {record : List TagLine}

/-- Lines of two tags of one field: the text of either tag is too short for all of them. -/
theorem size_withTag_lt {field tag : String} (found : tagMap.lookup tag = some field)
    {line : TagLine} (member : line ∈ record) (same : tagMap.lookup line.tag = some field)
    (differs : line.tag ≠ tag) : size (withTag record tag) < size (given record field) := by
  let lines := record.filter fun line => tagMap.lookup line.tag = some field
  have parts := (List.filter_append_perm (fun line => decide (line.tag = tag)) lines).map TagLine.value
  have own : lines.filter (fun line => decide (line.tag = tag)) = record.filter fun line => line.tag = tag := by
    rw [List.filter_filter]
    refine List.filter_congr fun line _ => ?_
    by_cases here : line.tag = tag <;> simp [here, found]
  rw [own, List.map_append] at parts
  have sizes := (parts.map fun value => value.length + 2).sum_eq
  rw [List.map_append, List.sum_append] at sizes
  have other : line ∈ lines.filter fun line => !decide (line.tag = tag) := by
    simp [lines, member, same, differs]
  have positive := List.single_le_sum (fun _ _ => Nat.zero_le _) _
    (List.mem_map_of_mem (f := fun value : String => value.length + 2)
      (List.mem_map_of_mem (f := TagLine.value) other))
  change size (withTag record tag) + _ = size (given record field) at sizes
  omega

variable {field : String}

theorem given_perm_size {values : List String} (perm : values.Perm (given record field)) :
    size values = size (given record field) :=
  (perm.map fun value : String => value.length + 2).sum_eq

theorem get_recordOf (record : List TagLine) (field : String) :
    get (recordOf lower record) field = ((lastFor Prod.fst field (joined lower record)).or
      (lastFor Prod.fst field (record.flatMap (assigned lower)))).map Prod.snd := by
  rw [get, recordOf, flush, lastFor_append]
  rfl

theorem joined_multi {entry : String × String} (member : entry ∈ joined lower record) :
    entry.1 ∈ multiFields := by
  obtain ⟨line, _, multi, found, _⟩ := (mem_joined_iff lower record entry).mp member
  exact (multiFields_iff found).mpr multi

theorem get_single (single : field ∉ multiFields) :
    get (recordOf lower record) field =
      (lastFor Prod.fst field (record.flatMap (assigned lower))).map Prod.snd := by
  have noJoined : lastFor Prod.fst field (joined lower record) = none :=
    lastFor_eq_none.mpr fun entry member same => single (same ▸ joined_multi lower member)
  rw [get_recordOf, noJoined, Option.none_or]

theorem get_multi (multi : field ∈ multiFields) :
    get (recordOf lower record) field =
      (lastFor Prod.fst field (joined lower record)).map Prod.snd := by
  have noAssigned : lastFor Prod.fst field (record.flatMap (assigned lower)) = none := by
    refine lastFor_eq_none.mpr fun entry member same => ?_
    obtain ⟨line, _, made⟩ := List.mem_flatMap.mp member
    exact assigned_single lower made (same ▸ multi)
  rw [get_recordOf, noAssigned, Option.or_none]

theorem kept_single (record : List TagLine) (single : field ∉ multiFields) :
    (∀ text, get (recordOf lower record) field = some text →
        (field, text) ∈ record.flatMap (assigned lower)) ∧
      ((∃ text, (field, text) ∈ record.flatMap (assigned lower)) →
        (get (recordOf lower record) field).isSome) := by
  rw [get_single lower single]
  constructor
  · intro text here
    obtain ⟨entry, last, rfl⟩ := Option.map_eq_some_iff.mp here
    obtain ⟨member, rfl⟩ := lastFor_some last
    exact member
  · rintro ⟨text, member⟩
    obtain ⟨last, _, _, found⟩ := lastFor_of_mem Prod.fst member
    rw [found]
    rfl

theorem withTag_eq_given {field tag : String} (found : tagMap.lookup tag = some field)
    (alone : ∀ line ∈ record, tagMap.lookup line.tag = some field → line.tag = tag) :
    withTag record tag = given record field := by
  refine congrArg (List.map TagLine.value) (List.filter_congr fun line member => ?_)
  refine decide_eq_decide.mpr ⟨fun same => same ▸ found, alone line member⟩

theorem given_eq_nil_iff (record : List TagLine) (field : String) :
    given record field = [] ↔ ∀ line ∈ record, tagMap.lookup line.tag ≠ some field := by
  simp [given]

/-- The values of a record's multi-valued fields are all kept exactly if the lines of a field
have one tag. -/
theorem kept_iff (record : List TagLine) : Kept lower record (recordOf lower record) ↔
    ∀ first ∈ record, ∀ second ∈ record, first.tag ∈ multiValueTags →
      tagMap.lookup first.tag = tagMap.lookup second.tag → first.tag = second.tag := by
  constructor
  · intro kept first firstIn second secondIn multi same
    obtain ⟨field, isMulti, found⟩ := mapped_of_multi multi
    have fieldKept := kept.multi field isMulti
    have someGiven : given record field ≠ [] := fun none =>
      (given_eq_nil_iff record field).mp none first firstIn found
    rw [if_neg someGiven, get_multi lower isMulti] at fieldKept
    obtain ⟨values, perm, text⟩ := fieldKept
    obtain ⟨entry, last, isText⟩ := Option.map_eq_some_iff.mp text
    obtain ⟨member, keyed⟩ := lastFor_some last
    obtain ⟨line, lineIn, _, lineField, joinedText⟩ := (mem_joined_iff lower record entry).mp member
    rw [keyed] at lineField
    -- the text that stays is the one of `line`'s tag
    have whole : size (withTag record line.tag) = size (given record field) := by
      have someOwn : withTag record line.tag ≠ [] :=
        List.ne_nil_of_mem (List.mem_map_of_mem (List.mem_filter.mpr ⟨lineIn, by simp⟩))
      have someValues : values ≠ [] := fun none => someGiven (List.nil_perm.mp (none ▸ perm))
      rw [← length_joined someOwn, ← given_perm_size perm, ← length_joined someValues,
        ← joinedText, isText]
    have ofLine : ∀ other ∈ record, tagMap.lookup other.tag = some field → other.tag = line.tag := by
      intro other otherIn otherField
      by_contra differs
      exact absurd whole (size_withTag_lt lineField otherIn otherField differs).ne
    rw [ofLine first firstIn found, ofLine second secondIn (same ▸ found)]
  · intro alone
    refine ⟨fun field isMulti => ?_, fun field single => kept_single lower record single⟩
    rw [get_multi lower isMulti]
    split
    · next none =>
      refine Option.map_eq_none_iff.mpr (lastFor_eq_none.mpr fun entry member same => ?_)
      obtain ⟨line, lineIn, _, found, _⟩ := (mem_joined_iff lower record entry).mp member
      exact (given_eq_nil_iff record field).mp none line lineIn (same ▸ found)
    · next someGiven =>
      obtain ⟨line, lineIn, found⟩ : ∃ line ∈ record, tagMap.lookup line.tag = some field := by
        by_contra noLine
        exact someGiven ((given_eq_nil_iff record field).mpr fun line lineIn found =>
          noLine ⟨line, lineIn, found⟩)
      have multi := (multiFields_iff found).mp isMulti
      obtain ⟨last, member, keyed, isLast⟩ := lastFor_of_mem Prod.fst
        ((mem_joined_iff lower record (field, _)).mpr ⟨line, lineIn, multi, found, rfl⟩)
      obtain ⟨other, otherIn, otherMulti, otherFound, text⟩ := (mem_joined_iff lower record last).mp member
      refine ⟨given record field, .refl _, ?_⟩
      rw [isLast, Option.map_some, text]
      rw [keyed] at otherFound
      rw [withTag_eq_given otherFound fun next nextIn nextFound =>
        (alone other otherIn next nextIn otherMulti (otherFound.trans nextFound.symm)).symm]

/-- Filtered and mapped, the items are related to themselves exactly if none is dropped and each
is related to its image. -/
theorem forall₂_filter_map_iff {Item Image : Type} (related : Item → Image → Prop) (keep : Item → Bool)
    (image : Item → Image) (items : List Item) :
    List.Forall₂ related items ((items.filter keep).map image) ↔
      ∀ item ∈ items, keep item = true ∧ related item (image item) := by
  constructor
  · intro all
    have lengths := all.length_eq
    rw [List.length_map] at lengths
    have kept := List.length_filter_eq_length_iff.mp lengths.symm
    rw [List.filter_eq_self.mpr kept, List.forall₂_map_right_iff, List.forall₂_same] at all
    exact fun item member => ⟨kept item member, all item member⟩
  · intro all
    rw [List.filter_eq_self.mpr fun item member => (all item member).1, List.forall₂_map_right_iff,
      List.forall₂_same]
    exact fun item member => (all item member).2

/-- Every record is read, with all its values, exactly if each is legible. -/
theorem parseRis_keeps_iff (file : File) :
    List.Forall₂ (Kept lower) file.records (parseRis lower file.lines) ↔
      ∀ record ∈ file.records, Legible lower record := by
  rw [parseRis_eq, forall₂_filter_map_iff]
  refine forall₂_congr fun record _ => ?_
  rw [kept_iff, Legible, hasFields, decide_eq_true_eq]

def article : List TagLine :=
  [⟨"TY  - JOUR", "TY", "JOUR", by decide⟩, ⟨"AU  - Smith", "AU", "Smith", by decide⟩,
    ⟨"A1  - Jones", "A1", "Jones", by decide⟩]

def articleFile : File where
  closed := [(article, ⟨"ER  - ", by decide⟩)]
  rest := []

/-- Of two authors under two tags the second is left. -/
theorem second_author_tag_wins :
    parseRis id articleFile.lines =
        [[("entity_type", "journal_article"), ("_ris_type", "JOUR"), ("authors", "Smith"),
          ("authors", "Jones")]] ∧
      ¬ List.Forall₂ (Kept id) articleFile.records (parseRis id articleFile.lines) := by
  have read : parseRis id articleFile.lines =
      [[("entity_type", "journal_article"), ("_ris_type", "JOUR"), ("authors", "Smith"),
        ("authors", "Jones")]] := by
    decide
  refine ⟨read, fun all => ?_⟩
  rw [read] at all
  have kept : Kept id article _ := (List.forall₂_cons.mp all).1
  have authors := kept.multi "authors" (by decide)
  have both : given article "authors" = ["Smith", "Jones"] := by decide
  rw [both, if_neg (List.cons_ne_nil _ _)] at authors
  obtain ⟨values, perm, text⟩ := authors
  have someValues : values ≠ [] := fun none => List.cons_ne_nil _ _ (List.nil_perm.mp (none ▸ perm))
  have long := length_joined someValues
  rw [given_perm_size (both ▸ perm), both, ← Option.some.inj text] at long
  exact absurd long (by decide)

end Ukip.Parsers.Ris
