import Ukip.Authority.PublicationWriteback

/-!
# Which publications are stamped

The query looks for the author's name in the text of the attributes, as it is written there; the
loop looks for it among the names that the parser reads.  A publication that lists the author is
stamped if both find it, and if the loop comes to it.
-/

namespace Ukip.Authority.PublicationWriteback

open Foundation.JsonValue
open Analytics.Corpus (RawEntity)
open BatchResolution EntityWriteback Entities.Table

section Stamps

variable {python : Python} {like : String → String → Bool} {table : EntityTable}
  {scan : List RawEntity} {record : AuthorRecord} {orgId : Option Int} {confirmedAt : String}

/-- The publication has the canonical id for the author. -/
def CarriesId (loads : String → Option Json) (label canonicalId : String) (row : RawEntity) : Prop :=
  ∃ attrs, attrsOf loads row = some attrs ∧
    carries (canonicalAuthors attrs) label canonicalId = true

theorem carries_stamped (target : Target) (record : AuthorRecord) (confirmedAt : String)
    (attrs : Entries) :
    carries
        (canonicalAuthors (stamped target (authorEntry record target.newCid confirmedAt) attrs))
        target.label target.newCid = true := by
  have written : canonicalAuthors
      (stamped target (authorEntry record target.newCid confirmedAt) attrs) =
        assign (canonicalAuthors attrs) target.label
          (.object (authorEntry record target.newCid confirmedAt)) := by
    rw [stamped, canonicalAuthors, get?_assign_self]
  rw [written, carries, get?_assign_self]
  simp [authorEntry, get?]

/-- The loop breaks off at the row: what it iterates over is no collection. -/
def Breaks (loads : String → Option Json) (row : RawEntity) : Prop :=
  ∃ attrs, attrsOf loads row = some attrs ∧ authorNames attrs = none

theorem goesOn_iff {target : Target} {entry : Entries} {row : RawEntity} :
    (visit python target entry row).goesOn = true ↔ ¬ Breaks python.loads row := by
  rw [visit, Breaks]
  cases attrsOf python.loads row with
  | none => simp [Visit.goesOn]
  | some attrs =>
    cases named : authorNames attrs with
    | none => simp [named, Visit.goesOn]
    | some names =>
      simp only [named]
      split_ifs <;> simp [Visit.goesOn, named]

/-- The database answers the row, and no row before it breaks the loop off. -/
def Answered (loads : String → Option Json) (scan : List RawEntity) (row : RawEntity) : Prop :=
  ∃ before later, scan = before ++ row :: later ∧ ∀ earlier ∈ before, ¬ Breaks loads earlier

theorem Lists.not_breaks {loads : String → Option Json} {label : String} {row : RawEntity}
    (lists : Lists loads label row) : ¬ Breaks loads row := by
  rintro ⟨other, otherRead, breaks⟩
  obtain ⟨attrs, names, read, named, -⟩ := lists
  rw [read, Option.some.injEq] at otherRead
  rw [otherRead, breaks] at named
  cases named

theorem mem_reached_iff {target : Target} {entry : Entries} {row : RawEntity}
    (goesOn : ¬ Breaks python.loads row) :
    row ∈ reached python target entry scan ↔ Answered python.loads scan row := by
  constructor
  · intro comes
    obtain ⟨before, later, split⟩ := List.append_of_mem comes
    obtain ⟨tail, whole⟩ := List.takeWhile_prefix
      (l := scan) fun row => (visit python target entry row).goesOn
    refine ⟨before, later ++ tail, ?_, fun earlier member => ?_⟩
    · rw [← whole]
      change reached python target entry scan ++ tail = _
      rw [split, List.append_assoc, List.cons_append]
    · have goes : earlier ∈ reached python target entry scan := by
        rw [split]
        exact List.mem_append_left _ member
      have passes : (visit python target entry earlier).goesOn = true :=
        @List.mem_takeWhile_imp _ (fun row => (visit python target entry row).goesOn) scan earlier goes
      exact goesOn_iff.mp passes
  · rintro ⟨before, later, rfl, earlier⟩
    have passes : (visit python target entry row).goesOn = true := goesOn_iff.mpr goesOn
    rw [reached, List.takeWhile_append_of_pos fun other member =>
      goesOn_iff.mpr (earlier other member), List.takeWhile_cons, if_pos passes]
    exact List.mem_append_right _ List.mem_cons_self

/-- After the call the publication has the record's canonical id for the author. -/
def HasStamp (python : Python) (record : AuthorRecord) (rows : List RawEntity) (id : Nat) : Prop :=
  ∃ canonicalId,
    buildAuthorityCanonicalId python record.authoritySource record.authorityId = some canonicalId ∧
      ∃ row ∈ rows, row.id = id ∧
        CarriesId python.loads (strip (record.originalValue.getD "")) canonicalId row

theorem visit_of_carries {target : Target} {entry : Entries} {row : RawEntity}
    (carried : CarriesId python.loads target.label target.newCid row) (attrs : Entries) :
    visit python target entry row ≠ .stamps attrs := by
  intro visited
  obtain ⟨stored, _, read, -, -, free, -⟩ := visit_stamps_iff.mp visited
  obtain ⟨other, otherRead, holds⟩ := carried
  rw [read, Option.some.injEq] at otherRead
  rw [← otherRead, free] at holds
  cases holds

theorem id_writeRow (updates : List (Nat × Entries)) (row : RawEntity) :
    (writeRow python updates row).id = row.id := by
  rw [writeRow]
  split <;> rfl

theorem hasStamp_map_iff {change : RawEntity → RawEntity} (ids : ∀ row, (change row).id = row.id)
    {row : RawEntity} (inTable : row ∈ table.rows) :
    HasStamp python record (table.rows.map change) row.id ↔ ∃ canonicalId,
      buildAuthorityCanonicalId python record.authoritySource record.authorityId = some canonicalId ∧
        CarriesId python.loads (strip (record.originalValue.getD "")) canonicalId (change row) := by
  refine exists_congr fun canonicalId => and_congr_right fun _ => ⟨?_, fun carried => ?_⟩
  · rintro ⟨after, member, sameId, carried⟩
    obtain ⟨old, oldMember, rfl⟩ := List.mem_map.mp member
    rw [ids] at sameId
    rwa [table.eq_of_key_eq oldMember inTable sameId] at carried
  · exact ⟨change row, List.mem_map_of_mem inTable, ids row, carried⟩

theorem carries_written_iff {target : Target} (known : ∀ row ∈ scan, row ∈ table.rows)
    (reads : ∀ row written, Writes python scan record confirmedAt target row written →
      ReadsBack python written)
    {row : RawEntity} (inTable : row ∈ table.rows)
    (lists : Lists python.loads target.label row) :
    CarriesId python.loads target.label target.newCid
        (writeRow python
          (stampLoop python target (authorEntry record target.newCid confirmedAt) scan).1 row) ↔
      CarriesId python.loads target.label target.newCid row ∨ Answered python.loads scan row := by
  have comesIff := @mem_reached_iff python scan target
    (authorEntry record target.newCid confirmedAt) row lists.not_breaks
  by_cases carried : CarriesId python.loads target.label target.newCid row
  · rw [writeRow_other known inTable fun _ => visit_of_carries carried]
    exact iff_of_true carried (.inl carried)
  · rw [or_iff_right carried, ← comesIff]
    obtain ⟨attrs, names, read, named, listed⟩ := lists
    have free : carries (canonicalAuthors attrs) target.label target.newCid = false :=
      Bool.eq_false_of_not_eq_true fun holds => carried ⟨attrs, read, holds⟩
    constructor
    · intro after
      by_contra missed
      rw [writeRow_other known inTable fun comes => absurd comes missed] at after
      exact carried after
    · intro comes
      have visited := (@visit_stamps_iff python target
        (authorEntry record target.newCid confirmedAt) row _).mpr
          ⟨attrs, names, read, named, listed, free, rfl⟩
      rw [writeRow_stamped known comes visited]
      exact ⟨_, (reads row _ ⟨comes, visited⟩).attrsOf row,
        carries_stamped target record confirmedAt attrs⟩

/-- A publication that lists the author has the stamp after the call exactly if it had it before,
or the call has a target, the database answers the publication and no row that it answers before
breaks the loop off.  When there are not too many to answer, it is answered exactly if it is in
the scope and its text is LIKE the name. -/
theorem hasStamp_iff {enabled : Bool}
    (isScan : ∀ target, authorTarget python enabled record orgId = some target →
      IsScan (candidates like target table.rows) pubScanLimit scan)
    (reads : ∀ target, authorTarget python enabled record orgId = some target →
      ∀ row written, Writes python scan record confirmedAt target row written →
        ReadsBack python written)
    {row : RawEntity} (inTable : row ∈ table.rows)
    (lists : Lists python.loads (strip (record.originalValue.getD "")) row) :
    (HasStamp python record
        (promoteConfirmedAuthor python enabled table.rows scan record orgId confirmedAt).1 row.id ↔
      HasStamp python record table.rows row.id ∨
        ∃ target, authorTarget python enabled record orgId = some target ∧
          Answered python.loads scan row) ∧
      ∀ target, authorTarget python enabled record orgId = some target →
        (candidates like target table.rows).length ≤ pubScanLimit →
          (row ∈ scan ↔ row ∈ publications target.scope table.rows ∧
            row.attributesJson.any (like ("%" ++ target.label ++ "%")) = true) := by
  constructor
  · have before := @hasStamp_map_iff python table record id (fun _ => rfl) row inTable
    rw [List.map_id] at before
    rw [before]
    unfold promoteConfirmedAuthor
    cases found : authorTarget python enabled record orgId with
    | none =>
      simp only [reduceCtorEq, false_and, exists_false, or_false]
      exact before
    | some target =>
      obtain ⟨labelled, -, identified⟩ := authorTarget_eq found
      have asked := isScan target found
      have known : ∀ row ∈ scan, row ∈ table.rows := fun row answered =>
        mem_rows_of_candidate (mem_table_of_scan asked answered)
      rw [← labelled] at lists
      have written := carries_written_iff known (reads target found) inTable lists
      simp only [hasStamp_map_iff (id_writeRow _) inTable, identified, Option.some.injEq,
        exists_eq_left', id_eq, ← labelled]
      exact written
  · intro target found few
    obtain ⟨order, permuted, answers⟩ := isScan target found
    have whole : scan = order := by
      rw [answers, List.take_of_length_le (permuted.length_eq ▸ few)]
    rw [whole, permuted.mem_iff, candidates, List.mem_filter]

end Stamps

/-- The publication of Ada Lovelace is stamped. -/
theorem hasStamp_iff_ada :
    HasStamp (adaPython listedText listedAfter listed) adaRecord
      (promoteConfirmedAuthor (adaPython listedText listedAfter listed) true
        (onePublication listedText).rows (onePublication listedText).rows adaRecord (some 1)
        confirmedAt).1 1 := by
  obtain ⟨found, filled, writtenFilled, apart⟩ := ada_texts.2.1
  refine (@hasStamp_iff _ likeOf (onePublication listedText) _ adaRecord (some 1) confirmedAt true
    (fun target named => ?_) (fun target named row written writes => ?_)
      (publicationOf listedText) List.mem_cons_self
        ⟨adaAttrs listed, [strip "Ada Lovelace"], ada_read filled, rfl, ?_⟩).1.mpr
          (.inr ⟨adaTarget, ada_target, [], [], rfl, List.forall_mem_nil _⟩)
  · rw [ada_target, Option.some.injEq] at named
    rw [← named]
    exact ada_isScan found
  · rw [ada_target, Option.some.injEq] at named
    subst named
    rw [(ada_writes filled rfl writes).2]
    exact ada_readsBack writtenFilled apart
  · exact List.mem_singleton.mpr rfl

def joseAttrs : Entries :=
  [("author_affiliations", .array [.object [("author_name", .text "José")]])]

/-- The attributes as `json.dumps` writes them without `ensure_ascii=False`. -/
def joseText : String :=
  "\x7b\"author_affiliations\": [\x7b\"author_name\": \"Jos\\u00e9\"\x7d]\x7d"

def josePython : Python where
  lower text := text.map Char.toLower
  upper text := text.map Char.toUpper
  loads text := if text = joseText then some (.object joseAttrs) else none
  dumps _ := ""

def joseRecord : AuthorRecord := { adaRecord with originalValue := some "José" }

def joseTarget : Target := { adaTarget with label := "José" }

/-- The text has no é in it, so that the query answers nothing, and José is not stamped in a
publication that lists him. -/
theorem jose_not_stamped :
    authorTarget josePython true joseRecord (some 1) = some joseTarget ∧
      publicationOf joseText ∈ publications joseTarget.scope (onePublication joseText).rows ∧
      Lists josePython.loads (strip (joseRecord.originalValue.getD "")) (publicationOf joseText) ∧
      IsScan (candidates likeOf joseTarget (onePublication joseText).rows) pubScanLimit [] ∧
      ¬ HasStamp josePython joseRecord
        (promoteConfirmedAuthor josePython true (onePublication joseText).rows [] joseRecord (some 1)
          confirmedAt).1 1 := by
  have filled : joseText ≠ "" := by decide
  have found : authorTarget josePython true joseRecord (some 1) = some joseTarget := by
    change authorTarget (adaPython "" "" .null) true joseRecord (some 1) = some joseTarget
    decide
  have read : attrsOf josePython.loads (publicationOf joseText) = some joseAttrs := by
    simp [attrsOf, publicationOf, josePython, filled]
  refine ⟨found, by decide, ⟨joseAttrs, [strip "José"], read, rfl, by decide⟩, ?_, ?_⟩
  · have none : candidates likeOf joseTarget (onePublication joseText).rows = [] := by decide
    exact ⟨[], by rw [none], rfl⟩
  · rintro ⟨canonicalId, -, row, member, -, attrs, rowRead, carried⟩
    simp only [promoteConfirmedAuthor, found, stampLoop, onePublication, List.map_cons, List.map_nil,
      List.mem_singleton] at member
    have unchanged : row = publicationOf joseText := member
    rw [unchanged, read, Option.some.injEq] at rowRead
    rw [← rowRead] at carried
    exact absurd carried (by simp [canonicalAuthors, joseAttrs, carries, get?])

end Ukip.Authority.PublicationWriteback
