import Ukip.Coauthorship.Authors

/-!
# Upserting an author with an ORCID

`get_or_create_author` of `coauthorship/identity.py` with the ORCID that it may be given, while
other sessions commit.  The table has two unique columns; the call reads it once by the first,
commits, and after a conflict reads it again by the first.
-/

namespace Ukip.Coauthorship.OrcidUpsert

open Identity Artifacts Weights Merges Authors

/-- The UNIQUE constraints of `name_key` and of `orcid`, where NULL equals nothing. -/
structure Unique (rows : List Author) : Prop where
  keys : ∀ first ∈ rows, ∀ second ∈ rows, first.nameKey = second.nameKey → first.id = second.id
  orcids : ∀ first ∈ rows, ∀ second ∈ rows,
    first.orcid ≠ none → first.orcid = second.orcid → first.id = second.id

instance (rows : List Author) : Decidable (Unique rows) :=
  decidable_of_iff
    ((∀ first ∈ rows, ∀ second ∈ rows, first.nameKey = second.nameKey → first.id = second.id) ∧
      ∀ first ∈ rows, ∀ second ∈ rows,
        first.orcid ≠ none → first.orcid = second.orcid → first.id = second.id)
    ⟨fun both => ⟨both.1, both.2⟩, fun unique => ⟨unique.keys, unique.orcids⟩⟩

structure Valid (table : AuthorTable) : Prop where
  numbered : Numbered table
  unique : Unique table.rows

inductive Refusal where
  | valueError
  | integrityError
  | staleDataError
  | noResultFound
  | multipleResultsFound
  deriving DecidableEq

/-- `if orcid and not existing.orcid` -/
def adopts (existing : Author) (orcid : Option String) : Bool :=
  filled orcid && !filled existing.orcid

def writtenRow (existing : Author) (surfaceForm : String) (orcid : Option String) (row : Author) :
    Author :=
  if row.id = existing.id then
    { row with
      aliases :=
        if surfaceForm ∈ existing.aliases then row.aliases else seenAs existing.aliases surfaceForm
      orcid := if adopts existing orcid then orcid else row.orcid }
  else row

def markSeen (table : AuthorTable) (existing : Author) (surfaceForm : String)
    (orcid : Option String) : AuthorTable :=
  { table with rows := table.rows.map (writtenRow existing surfaceForm orcid) }

def addedAuthor (table : AuthorTable) (key surfaceForm : String) (orcid : Option String) : Author :=
  { newAuthor table key surfaceForm with orcid := orcid }

def insert (table : AuthorTable) (key surfaceForm : String) (orcid : Option String) : AuthorTable :=
  ⟨table.rows ++ [addedAuthor table key surfaceForm orcid], table.lastId + 1⟩

/-- `get_or_create_author`: `seen` is the table at the query, `stored` the one that the commit
meets, `reread` the one after a rollback.  A committed row is returned, refreshed or fetched
again. -/
def getOrCreateAuthorWithOrcid (python : Python) (seen stored reread : AuthorTable)
    (surfaceForm : String) (orcid : Option String) : Except Refusal (Author × AuthorTable) :=
  let key := nameKey python surfaceForm
  if key = "" then .error .valueError
  else
    match seen.find key with
    | some existing =>
      let written := markSeen stored existing surfaceForm orcid
      if Unique written.rows then
        match written.rows.find? fun row => row.id == existing.id with
        | some row => .ok (row, written)
        | none => .error .staleDataError
      else .error .integrityError
    | none =>
      let added := insert stored key surfaceForm orcid
      if Unique added.rows then .ok (addedAuthor stored key surfaceForm orcid, added)
      else
        match reread.rows.filter fun row => row.nameKey == key with
        | [row] => .ok (row, reread)
        | [] => .error .noResultFound
        | _ => .error .multipleResultsFound

/-- What another session commits, for an author that it read or for a new one. -/
inductive Committed : AuthorTable → AuthorTable → Prop where
  | seen (table : AuthorTable) (existing : Author) (surfaceForm : String) (orcid : Option String)
      (unique : Unique (markSeen table existing surfaceForm orcid).rows) :
      Committed table (markSeen table existing surfaceForm orcid)
  | added (table : AuthorTable) (key surfaceForm : String) (orcid : Option String)
      (unique : Unique (insert table key surfaceForm orcid).rows) :
      Committed table (insert table key surfaceForm orcid)

/-- Any number of commits of other sessions. -/
abbrev Later : AuthorTable → AuthorTable → Prop := Relation.ReflTransGen Committed

variable {python : Python} {table after : AuthorTable}

variable (existing : Author) (surfaceForm : String) (orcid : Option String) (row : Author)

@[simp] theorem writtenRow_id :
    (writtenRow existing surfaceForm orcid row).id = row.id := by
  unfold writtenRow
  split <;> rfl

@[simp] theorem writtenRow_nameKey :
    (writtenRow existing surfaceForm orcid row).nameKey = row.nameKey := by
  unfold writtenRow
  split <;> rfl

theorem markSeen_numbered (numbered : Numbered table) :
    Numbered (markSeen table existing surfaceForm orcid) :=
  numbered.map fun _ => writtenRow_id ..

theorem insert_numbered (key surfaceForm : String) (orcid : Option String)
    (numbered : Numbered table) : Numbered (insert table key surfaceForm orcid) :=
  numbered.append rfl

theorem committed_valid (committed : Committed table after) (valid : Valid table) : Valid after := by
  cases committed with
  | seen existing surfaceForm orcid unique =>
    exact ⟨markSeen_numbered existing surfaceForm orcid valid.numbered, unique⟩
  | added key surfaceForm orcid unique =>
    exact ⟨insert_numbered key surfaceForm orcid valid.numbered, unique⟩

theorem committed_keeps (committed : Committed table after) {row : Author}
    (stored : row ∈ table.rows) : ∃ kept ∈ after.rows, kept.id = row.id ∧ kept.nameKey = row.nameKey := by
  cases committed with
  | seen existing surfaceForm orcid _ =>
    exact ⟨writtenRow existing surfaceForm orcid row, List.mem_map_of_mem stored, by simp, by simp⟩
  | added key surfaceForm orcid _ => exact ⟨row, List.mem_append_left _ stored, rfl, rfl⟩

theorem later_valid (later : Later table after) (valid : Valid table) : Valid after := by
  induction later with
  | refl => exact valid
  | tail _ committed ih => exact committed_valid committed ih

theorem later_keeps (later : Later table after) {row : Author} (stored : row ∈ table.rows) :
    ∃ kept ∈ after.rows, kept.id = row.id ∧ kept.nameKey = row.nameKey := by
  induction later with
  | refl => exact ⟨row, stored, rfl, rfl⟩
  | tail _ committed ih =>
    obtain ⟨between, present, sameId, sameKey⟩ := ih
    obtain ⟨kept, there, keptId, keptKey⟩ := committed_keeps committed present
    exact ⟨kept, there, keptId.trans sameId, keptKey.trans sameKey⟩

theorem find_none_iff {key : String} :
    table.find key = none ↔ ∀ row ∈ table.rows, row.nameKey ≠ key := by
  simp [AuthorTable.find]

theorem row_of_key (valid : Valid table) {first second : Author} (firstIn : first ∈ table.rows)
    (secondIn : second ∈ table.rows) (same : first.nameKey = second.nameKey) : first = second :=
  List.inj_on_of_nodup_map valid.numbered.distinct firstIn secondIn
    (valid.unique.keys first firstIn second secondIn same)

theorem writtenRow_orcid :
    (writtenRow existing surfaceForm orcid row).orcid =
      if row.id = existing.id ∧ adopts existing orcid = true then orcid else row.orcid := by
  unfold writtenRow
  by_cases here : row.id = existing.id <;> simp [here]

theorem markSeen_unique_iff (valid : Valid table) {existing row : Author} (stored : row ∈ table.rows)
    (same : row.id = existing.id) (surfaceForm : String) (orcid : Option String) :
    Unique (markSeen table existing surfaceForm orcid).rows ↔
      (adopts existing orcid = true →
        ∀ other ∈ table.rows, other.id ≠ existing.id → other.orcid ≠ orcid) := by
  have keys : ∀ first ∈ (markSeen table existing surfaceForm orcid).rows,
      ∀ second ∈ (markSeen table existing surfaceForm orcid).rows,
        first.nameKey = second.nameKey → first.id = second.id := by
    simp only [markSeen, List.forall_mem_map, writtenRow_nameKey, writtenRow_id]
    exact valid.unique.keys
  by_cases adopted : adopts existing orcid = true
  · have given : orcid ≠ none := by
      rintro rfl
      simp [adopts, filled] at adopted
    constructor
    · intro unique _ other otherIn apart owns
      have clash := unique.orcids _ (List.mem_map_of_mem stored) _ (List.mem_map_of_mem otherIn)
      simp only [writtenRow_orcid, writtenRow_id, same, adopted, apart, and_true, if_true,
        if_false] at clash
      exact apart (clash given owns.symm).symm
    · intro free
      have free := free adopted
      refine ⟨keys, ?_⟩
      simp only [markSeen, List.forall_mem_map, writtenRow_orcid, writtenRow_id, adopted, and_true]
      intro first firstIn second secondIn
      by_cases firstHere : first.id = existing.id <;> by_cases secondHere : second.id = existing.id
      · exact fun _ _ => firstHere.trans secondHere.symm
      · rw [if_pos firstHere, if_neg secondHere]
        exact fun _ owns => absurd owns.symm (free second secondIn secondHere)
      · rw [if_neg firstHere, if_pos secondHere]
        exact fun _ owns => absurd owns (free first firstIn firstHere)
      · rw [if_neg firstHere, if_neg secondHere]
        exact valid.unique.orcids first firstIn second secondIn
  · refine iff_of_true ⟨keys, ?_⟩ fun adopting => absurd adopting adopted
    simp only [markSeen, List.forall_mem_map, writtenRow_orcid, writtenRow_id, adopted,
      Bool.false_eq_true, and_false, if_false]
    exact valid.unique.orcids

theorem insert_unique_iff (valid : Valid table) (key surfaceForm : String) (orcid : Option String) :
    Unique (insert table key surfaceForm orcid).rows ↔
      (∀ row ∈ table.rows, row.nameKey ≠ key) ∧
        (orcid ≠ none → ∀ row ∈ table.rows, row.orcid ≠ orcid) := by
  have apart : ∀ row ∈ table.rows, row.id ≠ table.lastId + 1 := fun row stored same => by
    have bound := valid.numbered.bounded row stored
    omega
  have last : addedAuthor table key surfaceForm orcid ∈ (insert table key surfaceForm orcid).rows :=
    List.mem_append_right _ (List.mem_singleton_self _)
  constructor
  · intro unique
    refine ⟨fun row stored same => ?_, fun given row stored same => ?_⟩
    · exact apart row stored (unique.keys row (List.mem_append_left _ stored) _ last same)
    · exact apart row stored (unique.orcids row (List.mem_append_left _ stored) _ last
        (same ▸ given) same)
  · rintro ⟨freshKey, freshOrcid⟩
    refine ⟨fun first firstIn second secondIn same => ?_,
      fun first firstIn second secondIn given same => ?_⟩
    all_goals
      rcases List.mem_append.mp firstIn with firstOld | firstNew <;>
        rcases List.mem_append.mp secondIn with secondOld | secondNew
    · exact valid.unique.keys first firstOld second secondOld same
    · obtain rfl := List.mem_singleton.mp secondNew
      exact absurd same (freshKey first firstOld)
    · obtain rfl := List.mem_singleton.mp firstNew
      exact absurd same.symm (freshKey second secondOld)
    · rw [List.mem_singleton.mp firstNew, List.mem_singleton.mp secondNew]
    · exact valid.unique.orcids first firstOld second secondOld given same
    · obtain rfl := List.mem_singleton.mp secondNew
      exact absurd same (freshOrcid (fun none => given (same.trans none)) first firstOld)
    · obtain rfl := List.mem_singleton.mp firstNew
      exact absurd same.symm (freshOrcid given second secondOld)
    · rw [List.mem_singleton.mp firstNew, List.mem_singleton.mp secondNew]

/-- An author of the key is returned, and the constraints hold. -/
def Returned (python : Python) (seen stored reread : AuthorTable) (surfaceForm : String)
    (orcid : Option String) : Prop :=
  ∃ author after,
    getOrCreateAuthorWithOrcid python seen stored reread surfaceForm orcid = .ok (author, after) ∧
      author ∈ after.rows ∧ author.nameKey = nameKey python surfaceForm ∧ Unique after.rows

/-- The call cannot do without writing the ORCID: the author that it found lacks one, or there
is none to fall back on. -/
def storesOrcid (seen reread : AuthorTable) (key : String) (orcid : Option String) : Bool :=
  match seen.find key with
  | some existing => adopts existing orcid
  | none => orcid.isSome && (reread.find key).isNone

variable {seen stored reread : AuthorTable} {surfaceForm : String} {orcid : Option String}

theorem returned_found {existing : Author} (valid : Valid stored) (later : Later seen stored)
    (filled : nameKey python surfaceForm ≠ "")
    (found : seen.find (nameKey python surfaceForm) = some existing) :
    Returned python seen stored reread surfaceForm orcid ↔
      Unique (markSeen stored existing surfaceForm orcid).rows := by
  obtain ⟨seenThere, sameKey⟩ := find_key found
  obtain ⟨row, present, sameId, keptKey⟩ := later_keeps later seenThere
  constructor
  · rintro ⟨author, after, served, _, _, _⟩
    simp only [getOrCreateAuthorWithOrcid, found, if_neg filled] at served
    split at served
    · assumption
    · cases served
  · intro unique
    have there : writtenRow existing surfaceForm orcid row ∈
        (markSeen stored existing surfaceForm orcid).rows := List.mem_map_of_mem present
    cases fetched : (markSeen stored existing surfaceForm orcid).rows.find?
        fun row => row.id == existing.id with
    | none =>
      have absent := List.find?_eq_none.mp fetched _ there
      simp [sameId] at absent
    | some author =>
      have member := List.mem_of_find?_eq_some fetched
      have ofIt : author.id = existing.id := by simpa using List.find?_some fetched
      have numbered := markSeen_numbered existing surfaceForm orcid valid.numbered
      have same : author = writtenRow existing surfaceForm orcid row :=
        List.inj_on_of_nodup_map numbered.distinct member there (by simp [ofIt, sameId])
      refine ⟨author, markSeen stored existing surfaceForm orcid, ?_, member, ?_, unique⟩
      · simp only [getOrCreateAuthorWithOrcid, found, if_neg filled, if_pos unique, fetched]
      · rw [same, writtenRow_nameKey, keptKey, sameKey]

theorem returned_absent (valid : Valid reread) (filled : nameKey python surfaceForm ≠ "")
    (absent : seen.find (nameKey python surfaceForm) = none) :
    Returned python seen stored reread surfaceForm orcid ↔
      Unique (insert stored (nameKey python surfaceForm) surfaceForm orcid).rows ∨
        ∃ row ∈ reread.rows, row.nameKey = nameKey python surfaceForm := by
  by_cases unique : Unique (insert stored (nameKey python surfaceForm) surfaceForm orcid).rows
  · refine iff_of_true ?_ (.inl unique)
    refine ⟨addedAuthor stored (nameKey python surfaceForm) surfaceForm orcid, _, ?_,
      List.mem_append_right _ (List.mem_singleton_self _), rfl, unique⟩
    simp only [getOrCreateAuthorWithOrcid, absent, if_neg filled, if_pos unique]
  · simp only [unique, false_or]
    constructor
    · rintro ⟨author, after, served, member, key, _⟩
      simp only [getOrCreateAuthorWithOrcid, absent, if_neg filled, if_neg unique] at served
      split at served
      · obtain ⟨rfl, rfl⟩ := Prod.mk.inj (Except.ok.inj served)
        exact ⟨_, member, key⟩
      · cases served
      · cases served
    · rintro ⟨row, present, key⟩
      have one : reread.rows.filter (fun row => row.nameKey == nameKey python surfaceForm) = [row] := by
        have onlyRow : ∀ other ∈ reread.rows,
            (other.nameKey == nameKey python surfaceForm) = decide (other = row) := by
          intro other stored
          refine Bool.eq_iff_iff.mpr ?_
          simp only [beq_iff_eq, decide_eq_true_eq]
          exact ⟨fun same => row_of_key valid stored present (same.trans key.symm),
            fun same => same ▸ key⟩
        have once : reread.rows.count row = 1 :=
          List.count_eq_one_of_mem (List.Nodup.of_map _ valid.numbered.distinct) present
        rw [List.filter_congr onlyRow, List.filter_eq, once]
        rfl
      refine ⟨row, reread, ?_, present, key, valid.unique⟩
      simp only [getOrCreateAuthorWithOrcid, absent, if_neg filled, if_neg unique, one]

/-- A call returns an author exactly if the ORCID that it cannot do without belongs to no author
of another key when it commits. -/
theorem author_returned_iff (python : Python) (seen stored reread : AuthorTable)
    (surfaceForm : String) (orcid : Option String) (valid : Valid seen) (later : Later seen stored)
    (refetched : Later stored reread) (filled : nameKey python surfaceForm ≠ "") :
    Returned python seen stored reread surfaceForm orcid ↔
      (storesOrcid seen reread (nameKey python surfaceForm) orcid = true →
        ∀ row ∈ stored.rows, row.nameKey ≠ nameKey python surfaceForm → row.orcid ≠ orcid) := by
  have storedValid : Valid stored := later_valid later valid
  cases found : seen.find (nameKey python surfaceForm) with
  | some existing =>
    obtain ⟨seenThere, sameKey⟩ := find_key found
    obtain ⟨row, present, sameId, keptKey⟩ := later_keeps later seenThere
    rw [returned_found storedValid later filled found,
      markSeen_unique_iff storedValid present sameId]
    simp only [storesOrcid, found]
    refine imp_congr_right fun _ => forall₂_congr fun other otherIn => imp_congr_left ?_
    -- the rows of another key are the rows of another id
    rw [← sameId, ← sameKey, ← keptKey]
    refine not_congr ⟨fun same => ?_, storedValid.unique.keys other otherIn row present⟩
    rw [List.inj_on_of_nodup_map storedValid.numbered.distinct otherIn present same]
  | none =>
    have rereadValid : Valid reread := later_valid refetched storedValid
    rw [returned_absent rereadValid filled found, insert_unique_iff storedValid]
    simp only [storesOrcid, found, Bool.and_eq_true, Option.isSome_iff_ne_none, Option.isNone_iff_eq_none]
    by_cases fallback : ∃ row ∈ reread.rows, row.nameKey = nameKey python surfaceForm
    · refine iff_of_true (.inr fallback) fun needs => ?_
      obtain ⟨row, present, key⟩ := fallback
      exact absurd key (find_none_iff.mp needs.2 row present)
    · have absent : reread.find (nameKey python surfaceForm) = none :=
        find_none_iff.mpr fun row present key => fallback ⟨row, present, key⟩
      have fresh : ∀ row ∈ stored.rows, row.nameKey ≠ nameKey python surfaceForm := by
        intro row present key
        obtain ⟨kept, there, _, sameKey⟩ := later_keeps refetched present
        exact fallback ⟨kept, there, sameKey.trans key⟩
      simp only [fallback, or_false, absent, and_true]
      exact ⟨fun free given row present _ => free.2 given row present,
        fun free => ⟨fresh, fun given row present => free given row present (fresh row present)⟩⟩

/-- The race that the rollback is there for: the key came in between the query and the commit. -/
theorem author_returned_iff_raced :
    Returned asciiPython ⟨[], 0⟩ (insert ⟨[], 0⟩ "lee_amy" "Lee, Amy" none)
        (insert ⟨[], 0⟩ "lee_amy" "Lee, Amy" none) "Amy Lee" (some "0009") ↔
      (storesOrcid ⟨[], 0⟩ (insert ⟨[], 0⟩ "lee_amy" "Lee, Amy" none)
          (nameKey asciiPython "Amy Lee") (some "0009") = true →
        ∀ row ∈ (insert ⟨[], 0⟩ "lee_amy" "Lee, Amy" none).rows,
          row.nameKey ≠ nameKey asciiPython "Amy Lee" → row.orcid ≠ some "0009") :=
  author_returned_iff asciiPython ⟨[], 0⟩ _ _ "Amy Lee" (some "0009")
    ⟨⟨List.nodup_nil, nofun⟩, by decide⟩
    (.single (.added _ "lee_amy" "Lee, Amy" none (by decide))) .refl (by decide)

theorem markSeen_noOrcid (valid : Valid table) {existing : Author}
    (found : table.find (nameKey python surfaceForm) = some existing) :
    markSeen table existing surfaceForm none =
      { table with rows := table.rows.map (seenRow python surfaceForm) } := by
  obtain ⟨present, sameKey⟩ := find_key found
  have perRow : ∀ row ∈ table.rows,
      writtenRow existing surfaceForm none row = seenRow python surfaceForm row := by
    intro row stored
    unfold writtenRow seenRow
    by_cases key : row.nameKey = nameKey python surfaceForm
    · obtain rfl := row_of_key valid stored present (key.trans sameKey.symm)
      rw [if_pos rfl, if_pos key]
      by_cases known : surfaceForm ∈ row.aliases <;> simp [known, seenAs, adopts, filled]
    · have apart : row.id ≠ existing.id := fun same => key <| by
        rw [List.inj_on_of_nodup_map valid.numbered.distinct stored present same, sameKey]
      rw [if_neg apart, if_neg key]
  unfold markSeen
  rw [List.map_congr_left perRow]

/-- Without an ORCID and without another writer, the race handling changes nothing. -/
theorem getOrCreate_alone (valid : Valid table) (filled : nameKey python surfaceForm ≠ "") :
    ∃ author ∈ (touch python table surfaceForm).rows, author.nameKey = nameKey python surfaceForm ∧
      getOrCreateAuthorWithOrcid python table table table surfaceForm none =
        .ok (author, touch python table surfaceForm) ∧
      getOrCreateAuthor python table surfaceForm =
        .ok (author.id, touch python table surfaceForm) := by
  cases found : table.find (nameKey python surfaceForm) with
  | some existing =>
    obtain ⟨present, sameKey⟩ := find_key found
    obtain ⟨served, touched⟩ := touch_present filled found
    have unique : Unique (markSeen table existing surfaceForm none).rows :=
      (markSeen_unique_iff valid present rfl surfaceForm none).mpr fun adopted => by
        simp [adopts, Artifacts.filled] at adopted
    obtain ⟨author, after, returned, inAfter, keyed, _⟩ :=
      (returned_found valid .refl filled found).mpr unique
    have taken := returned
    simp only [getOrCreateAuthorWithOrcid, found, if_neg filled, if_pos unique] at taken
    split at taken
    · rename_i row fetched
      obtain ⟨rfl, rfl⟩ := Prod.mk.inj (Except.ok.inj taken)
      have sameId : row.id = existing.id := by simpa using List.find?_some fetched
      rw [markSeen_noOrcid valid found, ← touched] at returned inAfter
      exact ⟨row, inAfter, keyed, returned, sameId ▸ served⟩
    · cases taken
  | none =>
    obtain ⟨served, touched⟩ := touch_absent filled found
    have unique : Unique (insert table (nameKey python surfaceForm) surfaceForm none).rows :=
      (insert_unique_iff valid _ surfaceForm none).mpr
        ⟨find_none_iff.mp found, fun given => absurd rfl given⟩
    refine ⟨addedAuthor table (nameKey python surfaceForm) surfaceForm none, ?_, rfl, ?_, served⟩
    · rw [touched]
      exact List.mem_append_right table.rows List.mem_cons_self
    · rw [touched]
      simp only [getOrCreateAuthorWithOrcid, found, if_neg filled, if_pos unique]
      rfl

def smithOnly : AuthorTable := ⟨[⟨1, "smith_john", "John Smith", ["John Smith"], some "0009"⟩], 1⟩

def smithAndLee : AuthorTable :=
  ⟨smithOnly.rows ++ [⟨2, "lee_amy", "Amy Lee", ["Amy Lee"], none⟩], 2⟩

theorem getOrCreate_alone_smith :
    ∃ author ∈ (touch asciiPython smithOnly "Amy Lee").rows,
      author.nameKey = nameKey asciiPython "Amy Lee" ∧
      getOrCreateAuthorWithOrcid asciiPython smithOnly smithOnly smithOnly "Amy Lee" none =
        .ok (author, touch asciiPython smithOnly "Amy Lee") ∧
      getOrCreateAuthor asciiPython smithOnly "Amy Lee" =
        .ok (author.id, touch asciiPython smithOnly "Amy Lee") :=
  getOrCreate_alone ⟨⟨by decide, by decide⟩, by decide⟩ (by decide)

/-- John Smith has the ORCID that the call brings for Amy Lee: the INSERT finds no row to fall
back on, the UPDATE is not caught. -/
theorem orcid_of_another_raises :
    Unique smithOnly.rows ∧ Unique smithAndLee.rows ∧
      getOrCreateAuthorWithOrcid asciiPython smithOnly smithOnly smithOnly "Amy Lee" (some "0009") =
        .error .noResultFound ∧
      getOrCreateAuthorWithOrcid asciiPython smithAndLee smithAndLee smithAndLee "Amy Lee"
        (some "0009") = .error .integrityError := by
  decide

end Ukip.Coauthorship.OrcidUpsert
