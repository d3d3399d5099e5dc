/-!
# Rows that refer to rows

A DELETE statement takes the doomed rows, the rows that refer to them by a cascading key,
and the reference of the rows that refer to them by a SET NULL key.  It is refused where
a row that would stay refers to a doomed row by a plain key.  Columns that hold an id
without a key are not looked at.
-/

namespace Foundation.References

variable {Table Column Data : Type} [DecidableEq Table]

inductive OnDelete where
  | noAction
  | cascade
  | setNull
  | unenforced
  deriving DecidableEq

structure Schema (Table Column : Type) where
  child : Column → Table
  parent : Column → Table
  onDelete : Column → OnDelete
  columns : List Column
  complete : ∀ column, column ∈ columns
  /-- What goes by cascade is referred to by no key, so that no cascade goes on. -/
  leaves : ∀ gone column, onDelete gone = .cascade → onDelete column ≠ .unenforced →
    parent column ≠ child gone

structure Row (Table Column Data : Type) where
  table : Table
  id : Nat
  owner : Option Int
  reference : Column → Option Nat
  data : Data

namespace Schema

variable (schema : Schema Table Column)

def points (row : Row Table Column Data) (column : Column) (target : Row Table Column Data) : Bool :=
  decide (schema.child column = row.table) && decide (schema.parent column = target.table) &&
    row.reference column == some target.id

def pointsInto (rows : List (Row Table Column Data)) (doomed : Row Table Column Data → Bool)
    (row : Row Table Column Data) (column : Column) : Bool :=
  rows.any fun target => doomed target && schema.points row column target

def goesWith (rows : List (Row Table Column Data)) (doomed : Row Table Column Data → Bool)
    (row : Row Table Column Data) : Bool :=
  schema.columns.any fun column =>
    schema.onDelete column == .cascade && schema.pointsInto rows doomed row column

def isGone (rows : List (Row Table Column Data)) (doomed : Row Table Column Data → Bool)
    (row : Row Table Column Data) : Bool :=
  doomed row || schema.goesWith rows doomed row

def isBlocked (rows : List (Row Table Column Data)) (doomed : Row Table Column Data → Bool) : Bool :=
  rows.any fun row => !schema.isGone rows doomed row && schema.columns.any fun column =>
    schema.onDelete column == .noAction && schema.pointsInto rows doomed row column

def detach (rows : List (Row Table Column Data)) (doomed : Row Table Column Data → Bool)
    (row : Row Table Column Data) : Row Table Column Data :=
  { row with
    reference := fun column =>
      if schema.onDelete column == .setNull && schema.pointsInto rows doomed row column then none
      else row.reference column }

def delete (rows : List (Row Table Column Data)) (doomed : Row Table Column Data → Bool) :
    Option (List (Row Table Column Data)) :=
  if schema.isBlocked rows doomed then none
  else some ((rows.filter fun row => !schema.isGone rows doomed row).map
    (schema.detach rows doomed))

def deleteAll : List (Row Table Column Data → Bool) → List (Row Table Column Data) →
    Option (List (Row Table Column Data))
  | [], rows => some rows
  | doomed :: rest, rows => (schema.delete rows doomed).bind (deleteAll rest)

variable (rows : List (Row Table Column Data)) (doomed : Row Table Column Data → Bool)

theorem pointsInto_iff (row : Row Table Column Data) (column : Column) :
    schema.pointsInto rows doomed row column = true ↔
      ∃ target ∈ rows, doomed target = true ∧ schema.points row column target = true := by
  simp [pointsInto]

theorem goesWith_iff (row : Row Table Column Data) :
    schema.goesWith rows doomed row = true ↔ ∃ column, schema.onDelete column = .cascade ∧
      schema.pointsInto rows doomed row column = true := by
  unfold goesWith
  rw [List.any_eq_true]
  constructor
  · rintro ⟨column, -, here⟩
    rw [Bool.and_eq_true, beq_iff_eq] at here
    exact ⟨column, here⟩
  · rintro ⟨column, cascades, into⟩
    exact ⟨column, schema.complete column, by rw [cascades, into]; rfl⟩

theorem isBlocked_iff :
    schema.isBlocked rows doomed = true ↔
      ∃ row ∈ rows, schema.isGone rows doomed row = false ∧ ∃ column,
        schema.onDelete column = .noAction ∧ schema.pointsInto rows doomed row column = true := by
  unfold isBlocked
  rw [List.any_eq_true]
  constructor
  · rintro ⟨row, member, here⟩
    rw [Bool.and_eq_true, List.any_eq_true, Bool.not_eq_true'] at here
    obtain ⟨stays, column, -, into⟩ := here
    rw [Bool.and_eq_true, beq_iff_eq] at into
    exact ⟨row, member, stays, column, into⟩
  · rintro ⟨row, member, stays, column, plain, into⟩
    refine ⟨row, member, ?_⟩
    rw [stays, Bool.not_false, Bool.true_and]
    exact List.any_eq_true.mpr ⟨column, schema.complete column, by rw [plain, into]; rfl⟩

variable {first second : Row Table Column Data → Bool}

theorem pointsInto_congr {rows : List (Row Table Column Data)}
    (same : ∀ target ∈ rows, first target = second target) (row : Row Table Column Data)
    (column : Column) :
    schema.pointsInto rows first row column = schema.pointsInto rows second row column := by
  rw [Bool.eq_iff_iff, pointsInto_iff, pointsInto_iff]
  refine exists_congr fun target => and_congr_right fun member => ?_
  rw [same target member]

/-- No row refers to a doomed one by a plain key. -/
def Unreferenced (rows : List (Row Table Column Data)) (doomed : Row Table Column Data → Bool) : Prop :=
  ∀ row ∈ rows, ∀ column, schema.onDelete column = .noAction →
    schema.pointsInto rows doomed row column = false

/-- Only plain keys and ids without a key lead to the doomed rows. -/
def Plain (doomed : Row Table Column Data → Bool) : Prop :=
  ∀ target, doomed target = true → ∀ column, schema.parent column = target.table →
    schema.onDelete column ≠ .cascade ∧ schema.onDelete column ≠ .setNull

variable {schema}

variable {doomed : Row Table Column Data → Bool}

theorem parent_of_pointsInto {rows : List (Row Table Column Data)} {row : Row Table Column Data}
    {column : Column} (into : schema.pointsInto rows doomed row column = true) :
    ∃ target ∈ rows, doomed target = true ∧ schema.parent column = target.table ∧
      row.reference column = some target.id := by
  obtain ⟨target, member, own, points⟩ := (schema.pointsInto_iff rows doomed row column).mp into
  unfold Schema.points at points
  rw [Bool.and_eq_true, Bool.and_eq_true, beq_iff_eq] at points
  exact ⟨target, member, own, of_decide_eq_true points.1.2, points.2⟩

theorem Plain.isGone (plain : schema.Plain doomed) (rows : List (Row Table Column Data))
    (row : Row Table Column Data) : schema.isGone rows doomed row = doomed row := by
  have none : schema.goesWith rows doomed row = false := by
    refine Bool.eq_false_iff.mpr fun goes => ?_
    obtain ⟨column, cascades, into⟩ := (schema.goesWith_iff rows doomed row).mp goes
    obtain ⟨target, _, own, parent, _⟩ := parent_of_pointsInto into
    exact (plain target own column parent).1 cascades
  unfold Schema.isGone
  rw [none, Bool.or_false]

theorem detach_eq_self_iff (doomed : Row Table Column Data → Bool) (row : Row Table Column Data) :
    schema.detach rows doomed row = row ↔
      ∀ column, schema.onDelete column = .setNull → schema.pointsInto rows doomed row column = false := by
  constructor
  · intro same column sets
    refine Bool.eq_false_iff.mpr fun into => ?_
    have kept : (schema.detach rows doomed row).reference column = row.reference column := by rw [same]
    unfold Schema.detach at kept
    simp only [sets, into, BEq.rfl, Bool.and_self, if_true] at kept
    obtain ⟨target, _, _, _, reference⟩ := parent_of_pointsInto into
    rw [reference] at kept
    cases kept
  · intro free
    have same : ∀ column, (if schema.onDelete column == .setNull &&
        schema.pointsInto rows doomed row column then none else row.reference column) =
          row.reference column := by
      intro column
      split
      · rename_i both
        rw [Bool.and_eq_true, beq_iff_eq] at both
        rw [free column both.1] at both
        cases both.2
      · rfl
    unfold Schema.detach
    simp only [same]

theorem Plain.detach (plain : schema.Plain doomed) (rows : List (Row Table Column Data))
    (row : Row Table Column Data) : schema.detach rows doomed row = row := by
  refine (detach_eq_self_iff rows doomed row).mpr fun column sets => Bool.eq_false_iff.mpr fun into => ?_
  obtain ⟨target, _, own, parent, _⟩ := parent_of_pointsInto into
  exact (plain target own column parent).2 sets

theorem Plain.delete (plain : schema.Plain doomed) (rows : List (Row Table Column Data)) :
    schema.delete rows doomed =
      if schema.isBlocked rows doomed then none else some (rows.filter fun row => !doomed row) := by
  unfold Schema.delete
  simp only [plain.isGone]
  rw [List.map_congr_left fun row _ => plain.detach rows row, List.map_id']

theorem delete_of_detached (doomed : Row Table Column Data → Bool)
    (detached : ∀ row ∈ rows, doomed row = false → ∀ column,
      schema.onDelete column ≠ .unenforced → schema.pointsInto rows doomed row column = false) :
    schema.delete rows doomed = some (rows.filter fun row => !doomed row) := by
  have gone : ∀ row ∈ rows, schema.isGone rows doomed row = doomed row := by
    intro row member
    unfold Schema.isGone
    cases own : doomed row with
    | true => rfl
    | false =>
      rw [Bool.false_or]
      refine Bool.eq_false_iff.mpr fun goes => ?_
      obtain ⟨column, cascades, into⟩ := (schema.goesWith_iff rows doomed row).mp goes
      rw [detached row member own column (by rw [cascades]; decide)] at into
      cases into
  have unblocked : schema.isBlocked rows doomed = false := by
    refine Bool.eq_false_iff.mpr fun blocked => ?_
    obtain ⟨row, member, stays, column, plain, into⟩ := (schema.isBlocked_iff rows doomed).mp blocked
    rw [gone row member] at stays
    rw [detached row member stays column (by rw [plain]; decide)] at into
    cases into
  unfold Schema.delete
  rw [unblocked, if_neg Bool.false_ne_true, List.filter_congr fun row member =>
    congrArg not (gone row member)]
  refine congrArg some ((List.map_congr_left fun row member => ?_).trans (List.map_id _))
  obtain ⟨here, stays⟩ := List.mem_filter.mp member
  exact (detach_eq_self_iff rows doomed row).mpr fun column sets =>
    detached row here (by simpa using stays) column (by rw [sets]; decide)

variable (statements : List (Row Table Column Data → Bool))

theorem deleteAll_of_unseen
    (unseen : ∀ doomed ∈ statements, ∀ target, doomed target = true → ∀ column,
      schema.parent column ≠ target.table) (rows : List (Row Table Column Data)) :
    schema.deleteAll statements rows =
      some (rows.filter fun row => !statements.any fun doomed => doomed row) := by
  induction statements generalizing rows with
  | nil => exact congrArg some (List.filter_eq_self.mpr fun _ _ => rfl).symm
  | cons doomed rest ih =>
    have alone : schema.delete rows doomed = some (rows.filter fun row => !doomed row) :=
      delete_of_detached rows doomed fun row _ _ column _ =>
        Bool.eq_false_iff.mpr fun into => by
          obtain ⟨target, _, own, parent, _⟩ := parent_of_pointsInto into
          exact unseen doomed List.mem_cons_self target own column parent
    rw [deleteAll, alone, Option.bind_some,
      ih fun other member => unseen other (List.mem_cons_of_mem doomed member), List.filter_filter]
    refine congrArg some (List.filter_congr fun row _ => ?_)
    rw [List.any_cons, Bool.not_or, Bool.and_comm]

/-- No statement takes a row that refers, by a plain key, to a row that it or a later
statement takes; and no two statements take one row. -/
def NothingFreed (schema : Schema Table Column) : List (Row Table Column Data → Bool) → Prop
  | [] => True
  | doomed :: rest =>
    (∀ row column target, schema.onDelete column = .noAction →
      schema.points row column target = true →
      (∃ later ∈ doomed :: rest, later target = true) → doomed row = false) ∧
    (∀ later ∈ rest, ∀ row, later row = true → doomed row = false) ∧ NothingFreed schema rest

theorem isBlocked_iff_not_unreferenced (plain : schema.Plain doomed)
    (rows : List (Row Table Column Data))
    (apart : ∀ row column target, schema.onDelete column = .noAction →
      schema.points row column target = true → doomed target = true → doomed row = false) :
    schema.isBlocked rows doomed = true ↔ ¬ schema.Unreferenced rows doomed := by
  rw [schema.isBlocked_iff]
  unfold Schema.Unreferenced
  constructor
  · rintro ⟨row, member, -, column, noAction, into⟩ free
    rw [free row member column noAction] at into
    cases into
  · intro referenced
    refine Classical.byContradiction fun stuck => referenced fun row member column noAction => ?_
    refine Bool.eq_false_iff.mpr fun into => stuck ⟨row, member, ?_, column, noAction, into⟩
    obtain ⟨target, _, own, points⟩ := (schema.pointsInto_iff rows doomed row column).mp into
    rw [plain.isGone]
    exact apart row column target noAction points own

theorem unreferenced_filter (apart : ∀ row column target, schema.onDelete column = .noAction →
      schema.points row column target = true → second target = true → first row = false)
    (distinct : ∀ row, second row = true → first row = false) :
    schema.Unreferenced (rows.filter fun row => !first row) second ↔
      schema.Unreferenced rows second := by
  constructor
  · intro free row member column noAction
    refine Bool.eq_false_iff.mpr fun into => ?_
    obtain ⟨target, targetMember, own, points⟩ :=
      (schema.pointsInto_iff rows second row column).mp into
    have rowStays : row ∈ rows.filter fun row => !first row :=
      List.mem_filter.mpr ⟨member, by rw [apart row column target noAction points own]; rfl⟩
    have targetStays : target ∈ rows.filter fun row => !first row :=
      List.mem_filter.mpr ⟨targetMember, by rw [distinct target own]; rfl⟩
    have still := (schema.pointsInto_iff _ second row column).mpr ⟨target, targetStays, own, points⟩
    rw [free row rowStays column noAction] at still
    cases still
  · intro free row member column noAction
    refine Bool.eq_false_iff.mpr fun into => ?_
    obtain ⟨target, targetMember, own, points⟩ := (schema.pointsInto_iff _ second row column).mp into
    have before := (schema.pointsInto_iff rows second row column).mpr
      ⟨target, (List.mem_filter.mp targetMember).1, own, points⟩
    rw [free row (List.mem_filter.mp member).1 column noAction] at before
    cases before

theorem deleteAll_eq_some_iff (plain : ∀ doomed ∈ statements, schema.Plain doomed)
    (freed : NothingFreed schema statements) (rows after : List (Row Table Column Data)) :
    schema.deleteAll statements rows = some after ↔
      (∀ doomed ∈ statements, schema.Unreferenced rows doomed) ∧
        after = rows.filter fun row => !statements.any fun doomed => doomed row := by
  induction statements generalizing rows with
  | nil =>
    have all : (rows.filter fun row => !(([] : List (Row Table Column Data → Bool)).any
        fun doomed => doomed row)) = rows := List.filter_eq_self.mpr fun _ _ => rfl
    rw [all, deleteAll, Option.some.injEq]
    constructor
    · intro same
      refine ⟨fun doomed member => ?_, same.symm⟩
      cases member
    · exact fun both => both.2.symm
  | cons doomed rest ih =>
    obtain ⟨own, distinct, later⟩ := freed
    have plainHere := plain doomed List.mem_cons_self
    have blocked := isBlocked_iff_not_unreferenced plainHere rows
      fun row column target noAction points doomedTarget =>
        own row column target noAction points ⟨doomed, List.mem_cons_self, doomedTarget⟩
    have narrowed : ∀ other ∈ rest,
        schema.Unreferenced (rows.filter fun row => !doomed row) other ↔
          schema.Unreferenced rows other := fun other member =>
      unreferenced_filter rows (fun row column target noAction points otherTarget =>
        own row column target noAction points
          ⟨other, List.mem_cons_of_mem doomed member, otherTarget⟩) (distinct other member)
    rw [deleteAll, plainHere.delete]
    by_cases free : schema.Unreferenced rows doomed
    · have passes : schema.isBlocked rows doomed = false :=
        Bool.eq_false_iff.mpr fun here => blocked.mp here free
      rw [passes, if_neg Bool.false_ne_true, Option.bind_some,
        ih (fun other member => plain other (List.mem_cons_of_mem doomed member)) later,
        List.filter_filter]
      have sameRows : (rows.filter fun row => (!rest.any fun other => other row) && !doomed row) =
          rows.filter fun row => !(doomed :: rest).any fun other => other row := by
        refine List.filter_congr fun row _ => ?_
        rw [List.any_cons, Bool.not_or, Bool.and_comm]
      rw [sameRows]
      refine and_congr_left fun _ => ?_
      constructor
      · intro all other member
        rcases List.mem_cons.mp member with rfl | member
        · exact free
        · exact (narrowed other member).mp (all other member)
      · exact fun all other member =>
          (narrowed other member).mpr (all other (List.mem_cons_of_mem doomed member))
    · rw [blocked.mpr free, if_pos rfl, Option.bind_none]
      constructor
      · intro none
        cases none
      · exact fun both => absurd (both.1 doomed List.mem_cons_self) free

theorem deleteAll_append (first second : List (Row Table Column Data → Bool))
    (rows : List (Row Table Column Data)) :
    schema.deleteAll (first ++ second) rows =
      (schema.deleteAll first rows).bind (schema.deleteAll second) := by
  induction first generalizing rows with
  | nil => rfl
  | cons doomed rest ih =>
    rw [List.cons_append, deleteAll, deleteAll]
    cases schema.delete rows doomed with
    | none => rfl
    | some after => exact ih after

theorem pointsInto_filter {kept doomed : Row Table Column Data → Bool}
    (stays : ∀ target, doomed target = true → kept target = true)
    (rows : List (Row Table Column Data)) (row : Row Table Column Data) (column : Column) :
    schema.pointsInto (rows.filter kept) doomed row column = schema.pointsInto rows doomed row column := by
  rw [Bool.eq_iff_iff, pointsInto_iff, pointsInto_iff]
  constructor
  · rintro ⟨target, member, own, points⟩
    exact ⟨target, (List.mem_filter.mp member).1, own, points⟩
  · rintro ⟨target, member, own, points⟩
    exact ⟨target, List.mem_filter.mpr ⟨member, stays target own⟩, own, points⟩

end Schema

theorem filter_map_filter_eq_iff {Item : Type} (items : List Item) (stays chosen : Item → Bool)
    (change : Item → Item) (kept : ∀ item, chosen (change item) = chosen item) :
    (((items.filter stays).map change).filter chosen = items.filter chosen) ↔
      ∀ item ∈ items, chosen item = true → stays item = true ∧ change item = item := by
  have moved : ((items.filter stays).map change).filter chosen =
      ((items.filter chosen).filter stays).map change := by
    rw [List.filter_map, List.filter_filter, List.filter_filter]
    congr 1
    refine List.filter_congr fun item _ => ?_
    rw [Function.comp_apply, kept, Bool.and_comm]
  rw [moved]
  constructor
  · intro same item member own
    have length : ((items.filter chosen).filter stays).length = (items.filter chosen).length := by
      have lengths := congrArg List.length same
      rwa [List.length_map] at lengths
    have all : (items.filter chosen).filter stays = items.filter chosen :=
      List.filter_sublist.eq_of_length length
    rw [all] at same
    have inside : item ∈ items.filter chosen := List.mem_filter.mpr ⟨member, own⟩
    have here := List.filter_eq_self.mp all item inside
    refine ⟨here, ?_⟩
    exact List.map_inj_left.mp (same.trans (List.map_id _).symm) item inside
  · intro each
    have all : (items.filter chosen).filter stays = items.filter chosen :=
      List.filter_eq_self.mpr fun item member =>
        (each item (List.mem_filter.mp member).1 (List.mem_filter.mp member).2).1
    rw [all]
    refine (List.map_congr_left fun item member => ?_).trans (List.map_id _)
    exact (each item (List.mem_filter.mp member).1 (List.mem_filter.mp member).2).2

end Foundation.References
