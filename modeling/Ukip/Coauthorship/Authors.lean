import Ukip.Coauthorship.Merges

/-!
# The table of authors

Naming an author finds the row of the name's key or appends one.  Ids are never given twice,
and what is looked up by key stays: the id for good, the alias list with the forms seen since.
-/

namespace Ukip.Coauthorship.Authors

open Analytics.Corpus (strip isPythonSpace)
open Identity Artifacts Weights Merges

/-- The ids of the authors are distinct and the sequence is past them. -/
structure Numbered (table : AuthorTable) : Prop where
  distinct : (table.rows.map Author.id).Nodup
  bounded : ∀ row ∈ table.rows, row.id ≤ table.lastId

variable {python : Python} {store : Store}

def idOf (table : AuthorTable) (key : String) : Option Nat := (table.find key).map Author.id

def aliasesOf (table : AuthorTable) (key : String) : List String :=
  ((table.find key).map Author.aliases).getD []

variable {table : AuthorTable} {name : String}

theorem touch_empty (empty : nameKey python name = "") : touch python table name = table := by
  unfold touch
  rw [getOrCreate_empty empty]

def seenRow (python : Python) (name : String) (row : Author) : Author :=
  if row.nameKey = nameKey python name then { row with aliases := seenAs row.aliases name } else row

@[simp] theorem seenRow_id (name : String) (row : Author) : (seenRow python name row).id = row.id := by
  unfold seenRow
  split <;> rfl

@[simp] theorem seenRow_nameKey (name : String) (row : Author) :
    (seenRow python name row).nameKey = row.nameKey := by
  unfold seenRow
  split <;> rfl

theorem touch_present {existing : Author} (filled : nameKey python name ≠ "")
    (found : table.find (nameKey python name) = some existing) :
    getOrCreateAuthor python table name = .ok (existing.id, touch python table name) ∧
      touch python table name = { table with rows := table.rows.map (seenRow python name) } := by
  unfold touch getOrCreateAuthor
  constructor <;> simp [filled, found, seenRow]

theorem touch_absent (filled : nameKey python name ≠ "")
    (absent : table.find (nameKey python name) = none) :
    getOrCreateAuthor python table name = .ok (table.lastId + 1, touch python table name) ∧
      touch python table name =
        ⟨table.rows ++ [newAuthor table (nameKey python name) name], table.lastId + 1⟩ := by
  unfold touch getOrCreateAuthor
  constructor <;> simp [filled, absent]

theorem find_seenRow (table : AuthorTable) (name key : String) :
    ({ table with rows := table.rows.map (seenRow python name) } : AuthorTable).find key =
      (table.find key).map (seenRow python name) := by
  unfold AuthorTable.find
  rw [List.find?_map]
  simp

theorem find_key {key : String} {row : Author} (found : table.find key = some row) :
    row ∈ table.rows ∧ row.nameKey = key := by
  unfold AuthorTable.find at found
  exact ⟨List.mem_of_find?_eq_some found, by simpa using List.find?_some found⟩

theorem find_touch (table : AuthorTable) (name key : String) (filled : nameKey python name ≠ "") :
    (touch python table name).find key =
      if nameKey python name = key then
        some (seenRow python name ((table.find key).getD
          ⟨table.lastId + 1, key, name, [], none⟩))
      else table.find key := by
  cases found : table.find (nameKey python name) with
  | some existing =>
    rw [(touch_present filled found).2, find_seenRow]
    by_cases here : nameKey python name = key
    · rw [if_pos here, ← here, found]
      rfl
    · rw [if_neg here]
      cases other : table.find key with
      | none => rfl
      | some row =>
        have keyed := (find_key other).2
        have apart : row.nameKey ≠ nameKey python name := fun same => here (same ▸ keyed)
        simp [seenRow, apart]
  | none =>
    rw [(touch_absent filled found).2]
    unfold AuthorTable.find at found ⊢
    rw [List.find?_append]
    by_cases here : nameKey python name = key
    · rw [if_pos here, ← here, found]
      simp [newAuthor, seenRow, seenAs]
    · have apart : (nameKey python name == key) = false := beq_eq_false_iff_ne.mpr here
      rw [if_neg here]
      simp [newAuthor, apart]

theorem idOf_touch (table : AuthorTable) (name key : String) (filled : nameKey python name ≠ "") :
    idOf (touch python table name) key =
      if nameKey python name = key then some ((idOf table key).getD (table.lastId + 1))
      else idOf table key := by
  unfold idOf
  rw [find_touch table name key filled]
  by_cases here : nameKey python name = key
  · rw [if_pos here, if_pos here]
    cases table.find key <;> simp
  · rw [if_neg here, if_neg here]

theorem aliasesOf_touch (table : AuthorTable) (name key : String)
    (filled : nameKey python name ≠ "") :
    aliasesOf (touch python table name) key =
      if nameKey python name = key then seenAs (aliasesOf table key) name
      else aliasesOf table key := by
  unfold aliasesOf
  rw [find_touch table name key filled]
  by_cases here : nameKey python name = key
  · rw [if_pos here, if_pos here]
    cases found : table.find key with
    | none => simp [seenRow, here]
    | some row => simp [seenRow, here, (find_key found).2]
  · rw [if_neg here, if_neg here]

theorem getOrCreate_id (table : AuthorTable) (filled : nameKey python name ≠ "") :
    getOrCreateAuthor python table name =
      .ok ((idOf table (nameKey python name)).getD (table.lastId + 1), touch python table name) := by
  unfold idOf
  cases found : table.find (nameKey python name) with
  | some existing => exact (touch_present filled found).1
  | none => exact (touch_absent filled found).1

theorem lastId_touch (table : AuthorTable) (name : String) :
    table.lastId ≤ (touch python table name).lastId := by
  by_cases empty : nameKey python name = ""
  · rw [touch_empty empty]
  · cases found : table.find (nameKey python name) with
    | some existing => rw [(touch_present empty found).2]
    | none =>
      rw [(touch_absent empty found).2]
      exact Nat.le_succ table.lastId

theorem Numbered.map (numbered : Numbered table) {write : Author → Author}
    (sameId : ∀ row, (write row).id = row.id) :
    Numbered { table with rows := table.rows.map write } := by
  refine ⟨?_, fun row member => ?_⟩
  · simpa only [List.map_map, Function.comp_def, sameId] using numbered.distinct
  · obtain ⟨old, stored, rfl⟩ := List.mem_map.mp member
    exact (sameId old).symm ▸ numbered.bounded old stored

theorem Numbered.append (numbered : Numbered table) {row : Author}
    (next : row.id = table.lastId + 1) : Numbered ⟨table.rows ++ [row], table.lastId + 1⟩ := by
  refine ⟨?_, fun stored member => ?_⟩
  · rw [List.map_append, List.map_singleton]
    refine numbered.distinct.append (List.nodup_singleton _) (List.disjoint_singleton.mpr ?_)
    intro member
    obtain ⟨old, isOld, same⟩ := List.mem_map.mp member
    have bound := numbered.bounded old isOld
    omega
  · rcases List.mem_append.mp member with old | new
    · exact Nat.le_succ_of_le (numbered.bounded stored old)
    · exact (List.mem_singleton.mp new ▸ next).le

theorem touch_numbered (name : String) (numbered : Numbered table) :
    Numbered (touch python table name) := by
  by_cases empty : nameKey python name = ""
  · rw [touch_empty empty]
    exact numbered
  · cases found : table.find (nameKey python name) with
    | some existing =>
      rw [(touch_present empty found).2]
      exact numbered.map (seenRow_id name)
    | none =>
      rw [(touch_absent empty found).2]
      exact numbered.append rfl

variable (names : List String)

theorem touches_numbered (numbered : Numbered table) :
    Numbered (names.foldl (touch python) table) := by
  induction names generalizing table with
  | nil => exact numbered
  | cons name rest ih => exact ih (touch_numbered name numbered)

theorem mergeAuthors_numbered {winner loser : Author} {merged : Store}
    (served : mergeAuthors store winner loser = .ok merged) (numbered : Numbered store.authors) :
    Numbered merged.authors := by
  rcases mergeAuthors_cases served with ⟨_, rfl⟩ | ⟨_, rfl⟩
  · exact numbered
  · have sameId : ∀ row : Author,
        (if row.id = winner.id then
          { row with
            aliases := setAliases (winner.aliases ++ loser.aliases ++ [loser.displayName]) }
          else row).id = row.id := by
      intro row
      split <;> rfl
    refine ⟨?_, ?_⟩
    · refine numbered.distinct.sublist ?_
      refine (List.Sublist.map Author.id List.filter_sublist).trans ?_
      simp only [List.map_map, Function.comp_def, sameId]
      exact List.Sublist.refl _
    · intro row member
      obtain ⟨mapped, _⟩ := List.mem_filter.mp member
      obtain ⟨old, stored, rfl⟩ := List.mem_map.mp mapped
      rw [sameId]
      exact numbered.bounded old stored

theorem authorById_id {authorId : Nat} {author : Author}
    (found : authorById store authorId = some author) : author.id = authorId := by
  unfold authorById at found
  simpa using List.find?_some found

/-- The later table has the ids of the earlier one, and ids past its sequence for new keys. -/
structure Extends (earlier later : AuthorTable) : Prop where
  sequence : earlier.lastId ≤ later.lastId
  kept : ∀ key id, idOf earlier key = some id → idOf later key = some id
  fresh : ∀ key id, idOf earlier key = none → idOf later key = some id → earlier.lastId < id

theorem Extends.refl (table : AuthorTable) : Extends table table :=
  ⟨Nat.le_refl _, fun _ _ same => same, fun _ _ absent present =>
    (nomatch absent.symm.trans present)⟩

theorem Extends.trans {first second third : AuthorTable} (earlier : Extends first second)
    (later : Extends second third) : Extends first third := by
  refine ⟨earlier.sequence.trans later.sequence,
    fun key id found => later.kept key id (earlier.kept key id found), fun key id absent found => ?_⟩
  cases between : idOf second key with
  | none => exact lt_of_le_of_lt earlier.sequence (later.fresh key id between found)
  | some middle =>
    have same := later.kept key middle between
    obtain rfl := Option.some.inj (same.symm.trans found)
    exact earlier.fresh key middle absent between

theorem touch_extends (table : AuthorTable) (name : String) :
    Extends table (touch python table name) := by
  by_cases empty : nameKey python name = ""
  · rw [touch_empty empty]
    exact Extends.refl table
  · refine ⟨lastId_touch table name, fun key id found => ?_, fun key id absent found => ?_⟩
    · rw [idOf_touch table name key empty, found]
      simp
    · rw [idOf_touch table name key empty, absent] at found
      split at found
      · obtain rfl := Option.some.inj found
        exact Nat.lt_succ_self table.lastId
      · cases found

theorem touches_extend (table : AuthorTable) :
    Extends table (names.foldl (touch python) table) := by
  induction names generalizing table with
  | nil => exact Extends.refl table
  | cons name rest ih => exact (touch_extends table name).trans (ih (touch python table name))

theorem idOf_seen {names : List String} (member : name ∈ names) (filled : nameKey python name ≠ "") :
    ∃ id, idOf (names.foldl (touch python) table) (nameKey python name) = some id := by
  induction names generalizing table with
  | nil => cases member
  | cons head rest ih =>
    rw [List.foldl_cons]
    by_cases here : name = head
    · subst here
      have found := idOf_touch table name (nameKey python name) filled
      rw [if_pos rfl] at found
      exact ⟨_, (touches_extend rest _).kept _ _ found⟩
    · exact ih ((List.mem_cons.mp member).resolve_left here)

theorem resolveAuthors_filled (table : AuthorTable)
    (filled : ∀ name ∈ names, nameKey python name ≠ "") :
    resolveAuthors python table names =
      .ok (names.map fun name =>
          (idOf (names.foldl (touch python) table) (nameKey python name)).getD 0,
        names.foldl (touch python) table) := by
  induction names generalizing table with
  | nil => rfl
  | cons name rest ih =>
    have later := ih (touch python table name) fun other member =>
      filled other (List.mem_cons_of_mem name member)
    have here : nameKey python name ≠ "" := filled name List.mem_cons_self
    have found := idOf_touch table name (nameKey python name) here
    rw [if_pos rfl] at found
    have grown : Extends (touch python table name) (rest.foldl (touch python) (touch python table name)) :=
      touches_extend rest (touch python table name)
    have stays := grown.kept _ _ found
    simp only [resolveAuthors, getOrCreate_id table here, later, List.foldl_cons, List.map_cons]
    rw [stays]
    rfl

theorem resolveAuthors_unfilled {names : List String} (table : AuthorTable) (member : name ∈ names)
    (empty : nameKey python name = "") :
    ∃ failure, resolveAuthors python table names = .error failure := by
  induction names generalizing table with
  | nil => cases member
  | cons head rest ih =>
    by_cases here : nameKey python head = ""
    · exact ⟨_, by simp only [resolveAuthors, getOrCreate_empty here]; rfl⟩
    · have later : name ∈ rest := (List.mem_cons.mp member).resolve_left fun same =>
        here (same ▸ empty)
      obtain ⟨failure, raised⟩ := ih (touch python table head) later
      exact ⟨failure, by simp only [resolveAuthors, getOrCreate_id table here, raised]⟩

theorem idOf_inj (numbered : Numbered table) {first second : String} {id : Nat}
    (firstFound : idOf table first = some id) (secondFound : idOf table second = some id) :
    first = second := by
  obtain ⟨firstRow, firstRowFound, firstId⟩ := Option.map_eq_some_iff.mp firstFound
  obtain ⟨secondRow, secondRowFound, secondId⟩ := Option.map_eq_some_iff.mp secondFound
  obtain ⟨firstStored, rfl⟩ := find_key firstRowFound
  obtain ⟨secondStored, rfl⟩ := find_key secondRowFound
  have same : firstRow = secondRow := List.inj_on_of_nodup_map numbered.distinct firstStored
    secondStored (firstId.trans secondId.symm)
  rw [same]

def formsOf (python : Python) (names : List String) (key : String) : List String :=
  names.filter fun name => nameKey python name == key

theorem formsOf_cons (name : String) (rest : List String) (key : String) :
    formsOf python (name :: rest) key =
      if nameKey python name = key then name :: formsOf python rest key
      else formsOf python rest key := by
  unfold formsOf
  rw [List.filter_cons]
  simp only [beq_iff_eq]

theorem aliasesOf_touches (table : AuthorTable) (key : String)
    (filled : ∀ name ∈ names, nameKey python name ≠ "") :
    aliasesOf (names.foldl (touch python) table) key =
      (formsOf python names key).foldl seenAs (aliasesOf table key) := by
  induction names generalizing table with
  | nil => rfl
  | cons name rest ih =>
    rw [List.foldl_cons, ih _ fun other member => filled other (List.mem_cons_of_mem name member),
      aliasesOf_touch table name key (filled name List.mem_cons_self), formsOf_cons]
    split <;> rfl

def seenAll (python : Python) (names : List String) (row : Author) : Author :=
  { row with aliases := (formsOf python names row.nameKey).foldl seenAs row.aliases }

theorem seenAll_cons (name : String) (rest : List String) (row : Author) :
    seenAll python (name :: rest) row = seenAll python rest (seenRow python name row) := by
  unfold seenAll
  rw [seenRow_nameKey, formsOf_cons]
  by_cases here : nameKey python name = row.nameKey
  · simp [seenRow, here]
  · have apart : row.nameKey ≠ nameKey python name := fun same => here same.symm
    simp [seenRow, here, apart]

theorem touches_stored (table : AuthorTable) (filled : ∀ name ∈ names, nameKey python name ≠ "")
    (stored : ∀ name ∈ names, ∃ id, idOf table (nameKey python name) = some id) :
    names.foldl (touch python) table =
      { table with rows := table.rows.map (seenAll python names) } := by
  induction names generalizing table with
  | nil =>
    have same : seenAll python [] = id := rfl
    simp [same]
  | cons name rest ih =>
    obtain ⟨id, found⟩ := stored name List.mem_cons_self
    obtain ⟨existing, present, _⟩ := Option.map_eq_some_iff.mp found
    have here := (touch_present (filled name List.mem_cons_self) present).2
    rw [List.foldl_cons, ih (touch python table name)
      (fun other member => filled other (List.mem_cons_of_mem name member))
      (fun other member => ?_), here]
    · simp only [List.map_map, Function.comp_def, ← seenAll_cons]
    · obtain ⟨otherId, otherFound⟩ := stored other (List.mem_cons_of_mem name member)
      exact ⟨otherId, (touch_extends table name).kept _ _ otherFound⟩

def KeysDistinct (table : AuthorTable) : Prop := (table.rows.map Author.nameKey).Nodup

theorem touch_distinct (name : String) (distinct : KeysDistinct table) :
    KeysDistinct (touch python table name) := by
  by_cases empty : nameKey python name = ""
  · rw [touch_empty empty]
    exact distinct
  · unfold KeysDistinct at distinct ⊢
    cases found : table.find (nameKey python name) with
    | some existing =>
      rw [(touch_present empty found).2]
      simpa only [List.map_map, Function.comp_def, seenRow_nameKey] using distinct
    | none =>
      rw [(touch_absent empty found).2, List.map_append, List.nodup_append]
      refine ⟨distinct, List.nodup_singleton _, ?_⟩
      intro oldKey oldMember newKey newMember same
      obtain ⟨old, stored, rfl⟩ := List.mem_map.mp oldMember
      obtain rfl := List.mem_singleton.mp newMember
      have missing := List.find?_eq_none.mp found old stored
      exact missing (beq_iff_eq.mpr same)

theorem touches_distinct (distinct : KeysDistinct table) :
    KeysDistinct (names.foldl (touch python) table) := by
  induction names generalizing table with
  | nil => exact distinct
  | cons name rest ih => exact ih (touch_distinct name distinct)

theorem find_of_mem (distinct : KeysDistinct table) {row : Author} (member : row ∈ table.rows) :
    table.find row.nameKey = some row := by
  have present : (table.find row.nameKey).isSome = true :=
    List.find?_isSome.mpr ⟨row, member, by simp⟩
  obtain ⟨first, found⟩ := Option.isSome_iff_exists.mp present
  obtain ⟨stored, keyed⟩ : first ∈ table.rows ∧ first.nameKey = row.nameKey := find_key found
  have same : first = row := List.inj_on_of_nodup_map distinct stored member keyed
  exact same ▸ found

/-- Running through the forms of a key once more leaves its alias list as it is. -/
def AliasesSettle (python : Python) (table : AuthorTable) (names : List String) : Prop :=
  ∀ key, (formsOf python names key).foldl seenAs
      ((formsOf python names key).foldl seenAs (aliasesOf table key)) =
    (formsOf python names key).foldl seenAs (aliasesOf table key)

theorem touches_again_iff (distinct : KeysDistinct table) (names : List String)
    (filled : ∀ name ∈ names, nameKey python name ≠ "") :
    names.foldl (touch python) (names.foldl (touch python) table) =
        names.foldl (touch python) table ↔
      AliasesSettle python table names := by
  have stored : ∀ name ∈ names, ∃ id,
      idOf (names.foldl (touch python) table) (nameKey python name) = some id :=
    fun name member => idOf_seen member (filled name member)
  have keyed : ∀ row ∈ (names.foldl (touch python) table).rows,
      row.aliases = (formsOf python names row.nameKey).foldl seenAs (aliasesOf table row.nameKey) := by
    intro row member
    rw [← aliasesOf_touches names table row.nameKey filled]
    unfold aliasesOf
    rw [find_of_mem (touches_distinct names distinct) member]
    rfl
  rw [touches_stored names _ filled stored]
  constructor
  · intro same key
    have rows := congrArg AuthorTable.rows same
    dsimp only at rows
    cases found : (names.foldl (touch python) table).find key with
    | some row =>
      obtain ⟨member, rfl⟩ := find_key found
      have fixed : seenAll python names row = row := by
        have fixedAll := (List.map_eq_map_iff (f := seenAll python names) (g := id)).mp
          (rows.trans (List.map_id _).symm)
        exact fixedAll row member
      have aliases := congrArg Author.aliases fixed
      rw [← keyed row member]
      exact aliases
    | none =>
      have formless : formsOf python names key = [] := by
        refine List.filter_eq_nil_iff.mpr fun name member here => ?_
        obtain ⟨id, present⟩ := stored name member
        rw [beq_iff_eq.mp here] at present
        unfold idOf at present
        rw [found] at present
        cases present
      rw [formless]
      rfl
  · intro settle
    have rows : (names.foldl (touch python) table).rows.map (seenAll python names) =
        (names.foldl (touch python) table).rows := by
      refine (List.map_congr_left fun row member => ?_).trans (List.map_id _)
      unfold seenAll
      rw [keyed row member, settle row.nameKey, ← keyed row member]
      rfl
    rw [rows]

theorem eraseDups_nodup {Item : Type} [DecidableEq Item] (items : List Item) :
    items.eraseDups.Nodup := by
  induction length : items.length using Nat.strong_induction_on generalizing items with
  | _ count ih =>
    cases items with
    | nil => exact List.nodup_nil
    | cons item rest =>
      rw [List.eraseDups_cons, List.nodup_cons]
      refine ⟨fun member => ?_, ?_⟩
      · have kept := (List.mem_filter.mp (List.mem_eraseDups.mp member)).2
        simp at kept
      · refine ih _ ?_ _ rfl
        have shorter := List.length_filter_le (fun other => !other == item) rest
        simp only [List.length_cons] at length
        omega

theorem mem_setAliases {items : List String} {forms : Finset String}
    (within : ∀ item ∈ items, item ∈ forms) (few : forms.card ≤ aliasCap) {item : String} :
    item ∈ setAliases items ↔ item ∈ items ∧ item ≠ "" := by
  have short : ((items.filter fun item => item ≠ "").eraseDups).length ≤ aliasCap := by
    rw [← List.toFinset_card_of_nodup (eraseDups_nodup _)]
    refine (Finset.card_le_card fun other member => ?_).trans few
    have kept := List.mem_eraseDups.mp (List.mem_toFinset.mp member)
    exact within other (List.mem_filter.mp kept).1
  unfold setAliases
  rw [List.take_of_length_le short, List.mem_eraseDups, List.mem_filter, decide_eq_true_iff]

theorem foldl_seenAs_idle {forms aliases : List String} (known : ∀ form ∈ forms, form ∈ aliases) :
    forms.foldl seenAs aliases = aliases := by
  induction forms with
  | nil => rfl
  | cons form rest ih =>
    have here : seenAs aliases form = aliases := if_pos (known form List.mem_cons_self)
    rw [List.foldl_cons, here]
    exact ih fun other member => known other (List.mem_cons_of_mem form member)

theorem foldl_seenAs_known {forms aliases : List String} {all : Finset String}
    (few : all.card ≤ aliasCap) (aliasesWithin : ∀ item ∈ aliases, item ∈ all)
    (formsWithin : ∀ form ∈ forms, form ∈ all) (filled : ∀ form ∈ forms, form ≠ "") :
    (∀ form ∈ forms, form ∈ forms.foldl seenAs aliases) ∧
      ∀ item ∈ aliases, item ≠ "" → item ∈ forms.foldl seenAs aliases := by
  induction forms generalizing aliases with
  | nil => exact ⟨nofun, fun _ member _ => member⟩
  | cons form rest ih =>
    obtain ⟨formFilled, restFilled⟩ := List.forall_mem_cons.mp filled
    obtain ⟨formWithin, restWithin⟩ := List.forall_mem_cons.mp formsWithin
    have consWithin : ∀ item ∈ form :: aliases, item ∈ all :=
      List.forall_mem_cons.mpr ⟨formWithin, aliasesWithin⟩
    have kept : ∀ item, (item = form ∨ item ∈ aliases) → item ≠ "" →
        item ∈ seenAs aliases form := by
      intro item known itemFilled
      unfold seenAs
      split
      · rename_i there
        exact known.elim (fun same => same ▸ there) id
      · exact (mem_setAliases consWithin few).mpr ⟨List.mem_cons.mpr known, itemFilled⟩
    have within : ∀ item ∈ seenAs aliases form, item ∈ all := by
      intro item member
      unfold seenAs at member
      split at member
      · exact aliasesWithin item member
      · exact consWithin item ((mem_setAliases consWithin few).mp member).1
    obtain ⟨formsKept, aliasesKept⟩ := ih within restWithin restFilled
    refine ⟨List.forall_mem_cons.mpr ⟨?_, formsKept⟩, fun item member itemFilled => ?_⟩
    · exact aliasesKept form (kept form (.inl rfl) formFilled) formFilled
    · exact aliasesKept item (kept item (.inr member) itemFilled) itemFilled

theorem nameKey_empty : nameKey python "" = "" := by
  have blank : strip isPythonSpace "".toList = [] := rfl
  unfold nameKey
  rw [if_pos blank]

/-- Alias lists settle where no key has more forms than the cap, old and new ones together. -/
theorem settle_of_few (table : AuthorTable) (names : List String)
    (filled : ∀ name ∈ names, nameKey python name ≠ "")
    (few : ∀ key, ((formsOf python names key).toFinset ∪ (aliasesOf table key).toFinset).card ≤
      aliasCap) : AliasesSettle python table names := by
  intro key
  have formsFilled : ∀ form ∈ formsOf python names key, form ≠ "" := by
    rintro form seen rfl
    exact filled "" (List.mem_filter.mp seen).1 nameKey_empty
  refine foldl_seenAs_idle fun form member => ?_
  have known := foldl_seenAs_known (few key)
    (fun item stored => Finset.mem_union_right _ (List.mem_toFinset.mpr stored))
    (fun form seen => Finset.mem_union_left _ (List.mem_toFinset.mpr seen))
    formsFilled
  exact known.1 form member

end Ukip.Coauthorship.Authors
