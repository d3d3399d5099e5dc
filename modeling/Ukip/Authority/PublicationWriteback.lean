import Ukip.Authority.BatchResolution
import Ukip.Foundation.LikePattern

/-!
# Confirmed authors written back into publications

`authority/publication_writeback.py`.  The identity of a confirmed author is stamped into
`canonical_authors`, in the attributes of the publications that list the author.  The query asks
for the author's name anywhere in the text of the attributes, which is what the parser has not
read yet.
-/

namespace Ukip.Authority.PublicationWriteback

open Foundation.JsonValue
open Analytics.Corpus (RawEntity)
open BatchResolution EntityWriteback Entities.Table Tenancy.Access

/-- The columns of `authority_records` that are read here. -/
structure AuthorRecord extends AuthorityRecord where
  fieldName : Option String

/-- The name of an entry of `author_affiliations`. -/
def authorName : Json → Option String
  | .object aa =>
    match get? aa "author_name" with
    | some (.text name) => some (strip name)
    | _ => none
  | _ => none

/-- `_author_names`; `none` where Python raises. -/
def authorNames (attrs : Entries) : Option (List String) :=
  (iterated (get? attrs "author_affiliations")).map (List.filterMap authorName)

def authorTarget (python : Python) (enabled : Bool) (record : AuthorRecord) (orgId : Option Int) :
    Option Target :=
  if enabled ∧ record.fieldName.getD "" = "author" then
    let label := strip (record.originalValue.getD "")
    match buildAuthorityCanonicalId python record.authoritySource record.authorityId with
    | none => none
    | some canonicalId =>
      if label = "" then none
      else some { newCid := canonicalId, label := label, scope := orgId.or record.orgId }
  else none

def authorEntry (record : AuthorRecord) (canonicalId confirmedAt : String) : Entries :=
  [("canonical_id", .text canonicalId), ("source", textOrNull record.authoritySource),
    ("authority_id", textOrNull record.authorityId),
    ("canonical_label", textOrNull record.canonicalLabel), ("uri", textOrNull record.uri),
    ("confidence", record.confidence), ("authority_record_id", .integer record.id),
    ("confirmed_at", .text confirmedAt)]

/-- `canonical_authors`, or a new mapping where it is none. -/
def canonicalAuthors (attrs : Entries) : Entries :=
  match get? attrs "canonical_authors" with
  | some (.object entries) => entries
  | _ => []

def carries (authors : Entries) (label canonicalId : String) : Bool :=
  match get? authors label with
  | some (.object existing) =>
    match get? existing "canonical_id" with
    | some (.text stored) => stored == canonicalId
    | _ => false
  | _ => false

inductive Visit where
  /-- An exception that ends the call. -/
  | raises
  | skips
  | stamps (attrs : Entries)

def Visit.goesOn : Visit → Bool
  | .raises => false
  | _ => true

section Promotion

variable (python : Python)
-- the operator LIKE of the database, on a pattern and a text
variable (like : String → String → Bool)
variable (target : Target) (entry : Entries)

def stamped (attrs : Entries) : Entries :=
  assign attrs "canonical_authors" (.object (assign (canonicalAuthors attrs) target.label (.object entry)))

def visit (row : RawEntity) : Visit :=
  match attrsOf python.loads row with
  | none => .skips
  | some attrs =>
    match authorNames attrs with
    | none => .raises
    | some names =>
      if target.label ∉ names then .skips
      else if carries (canonicalAuthors attrs) target.label target.newCid then .skips
      else .stamps (stamped target entry attrs)

/-- The loop: the rows that were stamped, with their new attributes, and whether it was ended by
an exception. -/
def stampLoop : List RawEntity → List (Nat × Entries) × Bool
  | [] => ([], false)
  | row :: rest =>
    match visit python target entry row with
    | .raises => ([], true)
    | .skips => stampLoop rest
    | .stamps attrs =>
      let later := stampLoop rest
      ((row.id, attrs) :: later.1, later.2)

def candidates (rows : List RawEntity) : List RawEntity :=
  (publications target.scope rows).filter fun row =>
    row.attributesJson.any (like ("%" ++ target.label ++ "%"))

def writeRow (updates : List (Nat × Entries)) (row : RawEntity) : RawEntity :=
  match updates.find? fun update => update.1 == row.id with
  | some update => { row with attributesJson := some (python.dumps (.object update.2)) }
  | none => row

/-- `promote_confirmed_author_to_publications`: the rows as they are in the session after it, and
its answer.  `scan` is what the database answers to the query. -/
def promoteConfirmedAuthor (enabled : Bool) (rows scan : List RawEntity) (record : AuthorRecord)
    (orgId : Option Int) (confirmedAt : String) : List RawEntity × Nat :=
  match authorTarget python enabled record orgId with
  | none => (rows, 0)
  | some target =>
    let run := stampLoop python target (authorEntry record target.newCid confirmedAt) scan
    (rows.map (writeRow python run.1), if run.2 then 0 else run.1.length)

def reached (scan : List RawEntity) : List RawEntity :=
  scan.takeWhile fun row => (visit python target entry row).goesOn

theorem reached_cons (row : RawEntity) (rest : List RawEntity) :
    reached python target entry (row :: rest) =
      if (visit python target entry row).goesOn then row :: reached python target entry rest else [] := by
  rw [reached, List.takeWhile_cons]
  rfl

theorem mem_stampLoop_iff (scan : List RawEntity) (id : Nat) (attrs : Entries) :
    (id, attrs) ∈ (stampLoop python target entry scan).1 ↔
      ∃ row ∈ reached python target entry scan, row.id = id ∧
        visit python target entry row = .stamps attrs := by
  induction scan with
  | nil => simp [stampLoop, reached]
  | cons row rest ih =>
    rw [stampLoop, reached_cons]
    cases visited : visit python target entry row with
    | raises => simp [Visit.goesOn]
    | skips =>
      simp only [Visit.goesOn, if_true, List.exists_mem_cons_iff, visited, reduceCtorEq, and_false,
        false_or]
      exact ih
    | stamps written =>
      simp only [Visit.goesOn, if_true, List.mem_cons, ih, Prod.mk.injEq, or_and_right, exists_or,
        exists_eq_left, visited, Visit.stamps.injEq]
      rw [@eq_comm _ id, @eq_comm _ attrs]

variable {python like target entry} {table : EntityTable} {scan : List RawEntity}

variable {row : RawEntity}

theorem mem_table_of_scan {limit : Nat}
    (isScan : IsScan (candidates like target table.rows) limit scan) (answered : row ∈ scan) :
    row ∈ candidates like target table.rows := by
  obtain ⟨order, permuted, rfl⟩ := isScan
  exact permuted.mem_iff.mp (List.mem_of_mem_take answered)

theorem mem_rows_of_candidate {rows : List RawEntity}
    (candidate : row ∈ candidates like target rows) : row ∈ rows :=
  List.mem_of_mem_filter (List.mem_of_mem_filter candidate)

theorem mem_scan_of_reached (comes : row ∈ reached python target entry scan) :
    row ∈ scan := (List.takeWhile_prefix _).subset comes

theorem stamps_of_found (known : ∀ row ∈ scan, row ∈ table.rows) (inTable : row ∈ table.rows)
    {update : Nat × Entries}
    (found : (stampLoop python target entry scan).1.find? (fun update => update.1 == row.id) =
      some update) :
    row ∈ reached python target entry scan ∧ visit python target entry row = .stamps update.2 := by
  have sameId : update.1 = row.id := by simpa using List.find?_some found
  obtain ⟨other, comes, otherId, visited⟩ :=
    (mem_stampLoop_iff python target entry scan _ _).mp (List.mem_of_find?_eq_some found)
  obtain rfl : other = row :=
    table.eq_of_key_eq (known other (mem_scan_of_reached comes)) inTable (otherId.trans sameId)
  exact ⟨comes, visited⟩

theorem writeRow_stamped (known : ∀ row ∈ scan, row ∈ table.rows) {attrs : Entries}
    (comes : row ∈ reached python target entry scan)
    (visited : visit python target entry row = .stamps attrs) :
    writeRow python (stampLoop python target entry scan).1 row =
      { row with attributesJson := some (python.dumps (.object attrs)) } := by
  have listed := (mem_stampLoop_iff python target entry scan row.id attrs).mpr
    ⟨row, comes, rfl, visited⟩
  rw [writeRow]
  cases found : (stampLoop python target entry scan).1.find? fun update => update.1 == row.id with
  | none => exact absurd (beq_self_eq_true row.id) (List.find?_eq_none.mp found _ listed)
  | some update =>
    have stored := (stamps_of_found known (known row (mem_scan_of_reached comes)) found).2
    rw [visited, Visit.stamps.injEq] at stored
    rw [stored]

theorem writeRow_other (known : ∀ row ∈ scan, row ∈ table.rows) (inTable : row ∈ table.rows)
    (others : row ∈ reached python target entry scan →
      ∀ attrs, visit python target entry row ≠ .stamps attrs) :
    writeRow python (stampLoop python target entry scan).1 row = row := by
  rw [writeRow]
  cases found : (stampLoop python target entry scan).1.find? fun update => update.1 == row.id with
  | none => rfl
  | some update =>
    obtain ⟨comes, visited⟩ := stamps_of_found known inTable found
    exact absurd visited (others comes update.2)

theorem visit_stamps_iff {written : Entries} :
    visit python target entry row = .stamps written ↔
      ∃ attrs names, attrsOf python.loads row = some attrs ∧ authorNames attrs = some names ∧
        target.label ∈ names ∧ carries (canonicalAuthors attrs) target.label target.newCid = false ∧
          written = stamped target entry attrs := by
  rw [visit]
  cases attrsOf python.loads row with
  | none => simp
  | some attrs =>
    cases named : authorNames attrs with
    | none => simp [named]
    | some names =>
      by_cases listed : target.label ∈ names
      · cases carried : carries (canonicalAuthors attrs) target.label target.newCid
        · simp only [named, listed, carried, not_true_eq_false, if_false, Bool.false_eq_true,
            Visit.stamps.injEq, Option.some.injEq]
          grind
        · simp only [named, listed, carried, not_true_eq_false, if_false, if_true, Option.some.injEq]
          grind
      · simp only [named, listed, not_false_eq_true, if_true, Option.some.injEq]
        grind

theorem authorTarget_eq {enabled : Bool} {record : AuthorRecord} {orgId : Option Int}
    (found : authorTarget python enabled record orgId = some target) :
    target.label = strip (record.originalValue.getD "") ∧ target.scope = orgId.or record.orgId ∧
      buildAuthorityCanonicalId python record.authoritySource record.authorityId =
        some target.newCid := by
  unfold authorTarget at found
  split_ifs at found
  cases identified : buildAuthorityCanonicalId python record.authoritySource record.authorityId with
  | none => simp [identified] at found
  | some canonicalId =>
    simp only [identified] at found
    split_ifs at found
    rw [← Option.some.inj found]
    exact ⟨rfl, rfl, rfl⟩

end Promotion

def listedAuthor : Json → Option (Option String × Json)
  | .object author => some (nameUnder "name" (.object author), .object author)
  | _ => none

/-- The entries of `canonical_authors` in the two shapes that are in use, under the names of
their authors. -/
def authorEntries : Option Json → List (Option String × Json)
  | some (.object entries) => entries.map fun entry => (some entry.1, entry.2)
  | some (.array items) => items.filterMap listedAuthor
  | _ => []

structure Preserved (label : String) (before after : Entries) : Prop where
  attributes : ∀ key, key ≠ "canonical_authors" → get? after key = get? before key
  authors : ∀ entry : Option String × Json, entry.1 ≠ some label →
    (entry ∈ authorEntries (get? after "canonical_authors") ↔
      entry ∈ authorEntries (get? before "canonical_authors"))

theorem Preserved.refl (label : String) (attrs : Entries) : Preserved label attrs attrs :=
  ⟨fun _ _ => rfl, fun _ _ => Iff.rfl⟩

/-- A list of authors with another one than the named. -/
def ForeignList (label : String) (attrs : Entries) : Prop :=
  ∃ items, get? attrs "canonical_authors" = some (.array items) ∧
    ∃ author ∈ items.filterMap listedAuthor, author.1 ≠ some label

theorem mem_assign_other {entries : Entries} {key : String} {value : Json} {entry : String × Json}
    (other : entry.1 ≠ key) : entry ∈ assign entries key value ↔ entry ∈ entries := by
  unfold assign
  split
  · rw [List.mem_map]
    constructor
    · rintro ⟨old, member, written⟩
      split at written
      · exact absurd (congrArg Prod.fst written).symm other
      · exact written ▸ member
    · intro member
      exact ⟨entry, member, if_neg (by simpa using other)⟩
  · rw [List.mem_append, List.mem_singleton]
    exact or_iff_left fun same => other (congrArg Prod.fst same)

theorem authorEntries_stamped (target : Target) (entry : Entries) (attrs : Entries) :
    authorEntries (get? (stamped target entry attrs) "canonical_authors") =
      (assign (canonicalAuthors attrs) target.label (.object entry)).map
        fun entry => (some entry.1, entry.2) := by
  rw [stamped, get?_assign_self]
  rfl

theorem preserved_stamped_iff (target : Target) (entry : Entries) (attrs : Entries) :
    Preserved target.label attrs (stamped target entry attrs) ↔ ¬ ForeignList target.label attrs := by
  have own : ∀ named : Option String × Json, named.1 ≠ some target.label →
      (named ∈ authorEntries (get? (stamped target entry attrs) "canonical_authors") ↔
        named ∈ (canonicalAuthors attrs).map fun entry => (some entry.1, entry.2)) := by
    intro named foreign
    rw [authorEntries_stamped, List.mem_map, List.mem_map]
    refine exists_congr fun old => and_congr_left fun shown => mem_assign_other fun same => ?_
    exact foreign (by rw [← shown, same])
  constructor
  · rintro preserved ⟨items, listed, author, member, foreign⟩
    have kept := (own author foreign).mp ((preserved.authors author foreign).mpr
      (by rw [listed]; exact member))
    simp [canonicalAuthors, listed] at kept
  · intro noList
    refine ⟨fun key other => get?_assign_other attrs _ (Ne.symm other), fun named foreign => ?_⟩
    rw [own named foreign, canonicalAuthors]
    cases stored : get? attrs "canonical_authors" with
    | none => simp [authorEntries]
    | some value =>
      cases value with
      | object entries => rfl
      | array items =>
        refine iff_of_false (by simp) fun member => ?_
        exact noList ⟨items, stored, named, member, foreign⟩
      | _ => simp [authorEntries]

/-- The publication lists the author. -/
def Lists (loads : String → Option Json) (label : String) (row : RawEntity) : Prop :=
  ∃ attrs names, attrsOf loads row = some attrs ∧ authorNames attrs = some names ∧ label ∈ names

structure RowFrame (loads : String → Option Json) (scope : Option Int) (label : String)
    (rows : List RawEntity) (old new : RawEntity) : Prop where
  columns : { new with attributesJson := old.attributesJson } = old
  listing : new ≠ old → old ∈ publications scope rows ∧ Lists loads label old
  kept : ∀ attrs, attrsOf loads old = some attrs →
    ∃ after, attrsOf loads new = some after ∧ Preserved label attrs after

theorem RowFrame.refl (loads : String → Option Json) (scope : Option Int) (label : String)
    (rows : List RawEntity) (row : RawEntity) : RowFrame loads scope label rows row row :=
  ⟨rfl, fun changed => absurd rfl changed, fun attrs read => ⟨attrs, read, .refl label attrs⟩⟩

/-- The text that is written for the attributes is read as the same attributes. -/
def ReadsBack (python : Python) (attrs : Entries) : Prop :=
  python.dumps (.object attrs) ≠ "" ∧
    python.loads (python.dumps (.object attrs)) = some (.object attrs)

theorem ReadsBack.attrsOf {python : Python} {attrs : Entries} (reads : ReadsBack python attrs)
    (row : RawEntity) :
    attrsOf python.loads { row with attributesJson := some (python.dumps (.object attrs)) } =
      some attrs := by
  simp only [BatchResolution.attrsOf, if_neg reads.1, reads.2]

section Frame

variable {python : Python} {like : String → String → Bool} {table : EntityTable}
  {scan : List RawEntity} {record : AuthorRecord} {orgId : Option Int} {confirmedAt : String}

/-- The row is stamped in this call. -/
def IsStamped (python : Python) (target : Target) (entry : Entries) (scan : List RawEntity)
    (row : RawEntity) (attrs : Entries) : Prop :=
  row ∈ reached python target entry scan ∧ visit python target entry row = .stamps attrs

theorem rowFrame_stamped_iff {target : Target} {entry written : Entries} {row : RawEntity}
    (member : row ∈ publications target.scope table.rows)
    (visited : visit python target entry row = .stamps written) (reads : ReadsBack python written) :
    RowFrame python.loads target.scope target.label table.rows row
        { row with attributesJson := some (python.dumps (.object written)) } ↔
      ∀ attrs, attrsOf python.loads row = some attrs → ¬ ForeignList target.label attrs := by
  obtain ⟨attrs, names, read, named, listed, -, rfl⟩ := visit_stamps_iff.mp visited
  constructor
  · intro frame other otherRead
    obtain ⟨after, afterRead, preserved⟩ := frame.kept other otherRead
    rw [reads.attrsOf row, Option.some.injEq] at afterRead
    rw [read, Option.some.injEq] at otherRead
    subst afterRead otherRead
    exact (preserved_stamped_iff target entry attrs).mp preserved
  · intro noList
    refine ⟨rfl, fun _ => ⟨member, attrs, names, read, named, listed⟩, fun other otherRead => ?_⟩
    refine ⟨_, reads.attrsOf row, ?_⟩
    rw [read, Option.some.injEq] at otherRead
    subst otherRead
    exact (preserved_stamped_iff target entry attrs).mpr (noList attrs read)

variable (python scan record confirmedAt) in
/-- The entry that the call writes for its target, on the row. -/
def Writes (target : Target) (row : RawEntity) (attrs : Entries) : Prop :=
  IsStamped python target (authorEntry record target.newCid confirmedAt) scan row attrs

/-- A promotion changes nothing but the author's own entry exactly if no publication that it
stamps has a list with the entry of another author. -/
theorem frame_promote_iff {enabled : Bool}
    (isScan : ∀ target, authorTarget python enabled record orgId = some target →
      IsScan (candidates like target table.rows) pubScanLimit scan)
    (reads : ∀ target, authorTarget python enabled record orgId = some target →
      ∀ row written, Writes python scan record confirmedAt target row written →
        ReadsBack python written) :
    List.Forall₂
        (RowFrame python.loads (orgId.or record.orgId) (strip (record.originalValue.getD ""))
          table.rows)
        table.rows
        (promoteConfirmedAuthor python enabled table.rows scan record orgId confirmedAt).1 ↔
      ∀ target, authorTarget python enabled record orgId = some target →
        ∀ row written, Writes python scan record confirmedAt target row written →
          ∀ attrs, attrsOf python.loads row = some attrs → ¬ ForeignList target.label attrs := by
  unfold promoteConfirmedAuthor
  cases found : authorTarget python enabled record orgId with
  | none =>
    refine iff_of_true ?_ fun target wrong => (by cases wrong)
    exact List.forall₂_same.mpr fun row _ => .refl _ _ _ _ row
  | some target =>
    obtain ⟨labelled, inScope, -⟩ := authorTarget_eq found
    have asked := isScan target found
    have known : ∀ row ∈ scan, row ∈ table.rows := fun row answered =>
      mem_rows_of_candidate (mem_table_of_scan asked answered)
    rw [← labelled, ← inScope]
    simp only [Option.some.injEq, forall_eq']
    rw [List.forall₂_map_right_iff, List.forall₂_same]
    constructor
    · intro frame row written stamps
      have inScan := mem_scan_of_reached stamps.1
      have member := List.mem_of_mem_filter (mem_table_of_scan asked inScan)
      have rowFrame := frame row (known row inScan)
      rw [writeRow_stamped known stamps.1 stamps.2] at rowFrame
      exact (rowFrame_stamped_iff member stamps.2 (reads target found row written stamps)).mp rowFrame
    · intro noList row inTable
      by_cases stamps : ∃ written, Writes python scan record confirmedAt target row written
      · obtain ⟨written, stamps⟩ := stamps
        have inScan := mem_scan_of_reached stamps.1
        have member := List.mem_of_mem_filter (mem_table_of_scan asked inScan)
        rw [writeRow_stamped known stamps.1 stamps.2]
        exact (rowFrame_stamped_iff member stamps.2 (reads target found row written stamps)).mpr
          (noList row written stamps)
      · rw [writeRow_other known inTable fun comes written visited =>
          stamps ⟨written, comes, visited⟩]
        exact .refl _ _ _ _ row

end Frame

def publicationOf (attributesJson : String) : RawEntity :=
  { derivedRow 1 "publication" "Sketch of the Analytical Engine" "doi:10.1000/sketch" with
    attributesJson := some attributesJson }

def onePublication (attributesJson : String) : EntityTable where
  rows := [publicationOf attributesJson]
  nextKey := 2
  key_lt := by simp [entitySchema, publicationOf, derivedRow]
  distinct := by simp
  unclashing := by simp

/-- `LIKE` of a database that distinguishes cases. -/
def likeOf (pattern text : String) : Bool :=
  Foundation.LikePattern.matchesLike pattern.toList text.toList

def adaRecord : AuthorRecord where
  id := 7
  orgId := some 1
  originalValue := some "Ada Lovelace"
  authoritySource := some "orcid"
  authorityId := some "0000-0002"
  canonicalLabel := some "Ada Lovelace"
  confidence := .decimal "1.0" false
  uri := none
  fieldName := some "author"

def adaTarget : Target := { newCid := "orcid:0000-0002", label := "Ada Lovelace", scope := some 1 }

def confirmedAt : String := "2026-05-15T12:00:00+00:00"

def adaEntry : Entries := authorEntry adaRecord adaTarget.newCid confirmedAt

def adaAttrs (authors : Json) : Entries :=
  [("author_affiliations", .array [.object [("author_name", .text "Ada Lovelace")]]),
    ("canonical_authors", authors)]

def adaPython (stored written : String) (authors : Json) : Python where
  lower text := text.map Char.toLower
  upper text := text.map Char.toUpper
  loads text :=
    if text = stored then some (.object (adaAttrs authors))
    else if text = written then some (.object (stamped adaTarget adaEntry (adaAttrs authors)))
    else none
  dumps _ := written

def listed : Json := .array [.object [("name", .text "Charles Babbage")]]

def mapped : Json :=
  .object [("Charles Babbage", .object [("canonical_id", .text "wikidata:Q46633")])]

def listedText : String :=
  "\x7b\"author_affiliations\": [\x7b\"author_name\": \"Ada Lovelace\"\x7d], " ++
    "\"canonical_authors\": [\x7b\"name\": \"Charles Babbage\"\x7d]\x7d"

def listedAfter : String :=
  "\x7b\"author_affiliations\": [\x7b\"author_name\": \"Ada Lovelace\"\x7d], " ++
    "\"canonical_authors\": \x7b\"Ada Lovelace\": \x7b\"canonical_id\": \"orcid:0000-0002\", " ++
      "\"source\": \"orcid\", \"authority_id\": \"0000-0002\", " ++
        "\"canonical_label\": \"Ada Lovelace\", \"uri\": null, \"confidence\": 1.0, " ++
          "\"authority_record_id\": 7, \"confirmed_at\": \"2026-05-15T12:00:00+00:00\"\x7d\x7d\x7d"

def mappedText : String :=
  "\x7b\"author_affiliations\": [\x7b\"author_name\": \"Ada Lovelace\"\x7d], " ++
    "\"canonical_authors\": " ++
      "\x7b\"Charles Babbage\": \x7b\"canonical_id\": \"wikidata:Q46633\"\x7d\x7d\x7d"

def mappedAfter : String :=
  "\x7b\"author_affiliations\": [\x7b\"author_name\": \"Ada Lovelace\"\x7d], " ++
    "\"canonical_authors\": " ++
      "\x7b\"Charles Babbage\": \x7b\"canonical_id\": \"wikidata:Q46633\"\x7d, " ++
        "\"Ada Lovelace\": \x7b\"canonical_id\": \"orcid:0000-0002\", " ++
          "\"source\": \"orcid\", \"authority_id\": \"0000-0002\", " ++
            "\"canonical_label\": \"Ada Lovelace\", \"uri\": null, \"confidence\": 1.0, " ++
              "\"authority_record_id\": 7, " ++
                "\"confirmed_at\": \"2026-05-15T12:00:00+00:00\"\x7d\x7d\x7d"

theorem ada_texts :
    (authorTarget (adaPython "" "" .null) true adaRecord (some 1) = some adaTarget ∧
        strip (adaRecord.originalValue.getD "") = adaTarget.label) ∧
      (likeOf "%Ada Lovelace%" listedText = true ∧ listedText ≠ "" ∧ listedAfter ≠ "" ∧
        listedAfter ≠ listedText) ∧
      likeOf "%Ada Lovelace%" mappedText = true ∧ mappedText ≠ "" ∧ mappedAfter ≠ "" ∧
        mappedAfter ≠ mappedText := by
  decide +kernel

theorem ada_label : strip (adaRecord.originalValue.getD "") = adaTarget.label := ada_texts.1.2

section Ada

variable {stored written : String} {authors : Json}

theorem ada_target : authorTarget (adaPython stored written authors) true adaRecord (some 1) =
    some adaTarget :=
  ada_texts.1.1

theorem ada_read (filled : stored ≠ "") : attrsOf (adaPython stored written authors).loads
    (publicationOf stored) = some (adaAttrs authors) := by
  simp [attrsOf, publicationOf, adaPython, filled]

theorem ada_visit (filled : stored ≠ "")
    (fresh : carries (canonicalAuthors (adaAttrs authors)) "Ada Lovelace" "orcid:0000-0002" = false) :
    visit (adaPython stored written authors) adaTarget adaEntry (publicationOf stored) =
      .stamps (stamped adaTarget adaEntry (adaAttrs authors)) := by
  refine visit_stamps_iff.mpr
    ⟨adaAttrs authors, [strip "Ada Lovelace"], ada_read filled, rfl, ?_, fresh, rfl⟩
  exact List.mem_singleton.mpr ada_label.symm

theorem ada_readsBack (writtenFilled : written ≠ "") (apart : written ≠ stored) :
    ReadsBack (adaPython stored written authors) (stamped adaTarget adaEntry (adaAttrs authors)) :=
  ⟨writtenFilled, by simp [adaPython, apart]⟩

theorem ada_candidates (found : likeOf "%Ada Lovelace%" stored = true) :
    candidates likeOf adaTarget (onePublication stored).rows = (onePublication stored).rows := by
  have inScope : inScope (some 1) (some 1) = true := by decide
  simp [candidates, publications, onePublication, publicationOf, derivedRow, found, adaTarget,
    inScope]

theorem ada_isScan (found : likeOf "%Ada Lovelace%" stored = true) :
    IsScan (candidates likeOf adaTarget (onePublication stored).rows) pubScanLimit
      (onePublication stored).rows :=
  ⟨(onePublication stored).rows, by rw [ada_candidates found], rfl⟩

theorem ada_promoted (filled : stored ≠ "")
    (fresh : carries (canonicalAuthors (adaAttrs authors)) "Ada Lovelace" "orcid:0000-0002" = false) :
    (promoteConfirmedAuthor (adaPython stored written authors) true (onePublication stored).rows
        (onePublication stored).rows adaRecord (some 1) confirmedAt).1 =
      (onePublication written).rows := by
  have visited := @ada_visit stored written authors filled fresh
  simp only [promoteConfirmedAuthor, ada_target]
  change List.map (writeRow _ (stampLoop _ adaTarget adaEntry [publicationOf stored]).1)
    [publicationOf stored] = [publicationOf written]
  simp only [stampLoop, visited, List.map_cons, List.map_nil]
  simp [writeRow, publicationOf, adaPython, derivedRow]

end Ada

theorem ada_writes {stored written : String} {authors : Json} (filled : stored ≠ "")
    (fresh : carries (canonicalAuthors (adaAttrs authors)) "Ada Lovelace" "orcid:0000-0002" = false)
    {row : RawEntity} {attrs : Entries}
    (writes : Writes (adaPython stored written authors) (onePublication stored).rows adaRecord
      confirmedAt adaTarget row attrs) :
    row = publicationOf stored ∧ attrs = stamped adaTarget adaEntry (adaAttrs authors) := by
  have isRow : row = publicationOf stored := List.mem_singleton.mp (mem_scan_of_reached writes.1)
  have visited := writes.2
  rw [isRow] at visited
  exact ⟨isRow, (Visit.stamps.inj ((ada_visit filled fresh).symm.trans visited)).symm⟩

/-- A mapping with Babbage keeps him. -/
theorem frame_promote_iff_mapped :
    List.Forall₂
      (RowFrame (adaPython mappedText mappedAfter mapped).loads (some 1)
        (strip (adaRecord.originalValue.getD "")) (onePublication mappedText).rows)
      (onePublication mappedText).rows
      (promoteConfirmedAuthor (adaPython mappedText mappedAfter mapped) true
        (onePublication mappedText).rows (onePublication mappedText).rows adaRecord (some 1)
        confirmedAt).1 := by
  obtain ⟨found, filled, writtenFilled, apart⟩ := ada_texts.2.2
  have fresh : carries (canonicalAuthors (adaAttrs mapped)) "Ada Lovelace" "orcid:0000-0002" = false :=
    rfl
  refine (@frame_promote_iff _ likeOf (onePublication mappedText) _ adaRecord (some 1) confirmedAt true
    (fun target named => ?_) (fun target named row written writes => ?_)).mpr
      fun target named row written writes attrs read => ?_
  · rw [ada_target, Option.some.injEq] at named
    rw [← named]
    exact ada_isScan found
  · rw [ada_target, Option.some.injEq] at named
    subst named
    rw [(ada_writes filled fresh writes).2]
    exact ada_readsBack writtenFilled apart
  · rw [ada_target, Option.some.injEq] at named
    subst named
    rw [(ada_writes filled fresh writes).1, ada_read filled, Option.some.injEq] at read
    rintro ⟨items, isList, -⟩
    rw [← read] at isList
    exact absurd (Option.some.inj isList) (by simp [mapped])

/-- The list with Babbage is replaced by a mapping without him. -/
theorem babbage_lost :
    ¬ List.Forall₂
      (RowFrame (adaPython listedText listedAfter listed).loads (some 1)
        (strip (adaRecord.originalValue.getD "")) (onePublication listedText).rows)
      (onePublication listedText).rows
      (promoteConfirmedAuthor (adaPython listedText listedAfter listed) true
        (onePublication listedText).rows (onePublication listedText).rows adaRecord (some 1)
        confirmedAt).1 := by
  obtain ⟨found, filled, writtenFilled, apart⟩ := ada_texts.2.1
  have visited := @ada_visit listedText listedAfter listed filled rfl
  have reads := @ada_readsBack listedText listedAfter listed writtenFilled apart
  have member : publicationOf listedText ∈
      publications adaTarget.scope (onePublication listedText).rows := by
    have asked := @ada_candidates listedText found
    have candidate : publicationOf listedText ∈
        candidates likeOf adaTarget (onePublication listedText).rows := by
      rw [asked]
      exact List.mem_cons_self
    exact List.mem_of_mem_filter candidate
  rw [ada_promoted filled rfl, ada_label]
  intro frame
  have rowFrame := (List.forall₂_cons.mp frame).1
  have noList := (rowFrame_stamped_iff member visited reads).mp rowFrame _ (ada_read filled)
  exact noList ⟨_, rfl, _, List.mem_cons_self, by decide⟩

end Ukip.Authority.PublicationWriteback
