import Mathlib

/-!
# Jobs that are undone and done again in any order

Each cell has one value to go to.  A job takes cells that hold their first value there and
records both values; undoing it writes the first values back, doing it again the later ones.
Whatever the order, a cell that is away from its first value is a cell of a job that stands, so
once every job is undone the cells are as they were at first.
-/

namespace Foundation.Toggling

variable {Cell Value : Type}

structure Change (Cell Value : Type) where
  cell : Cell
  before : Value
  after : Value

structure Job (Cell Value : Type) where
  id : Nat
  changes : List (Change Cell Value)
  undone : Bool

/-- Each job has recorded the first value and the later one, and a cell that holds the later one
is a cell of a job that stands. -/
structure Balanced (initial target : Cell → Value) (cells : Cell → Value)
    (jobs : List (Job Cell Value)) : Prop where
  recorded : ∀ job ∈ jobs, ∀ change ∈ job.changes,
    change.before = initial change.cell ∧ change.after = target change.cell
  standing : ∀ cell, cells cell = initial cell ∨
    cells cell = target cell ∧
      ∃ job ∈ jobs, job.undone = false ∧ ∃ change ∈ job.changes, change.cell = cell

variable {initial target cells : Cell → Value} {jobs : List (Job Cell Value)}

theorem balanced_initial : Balanced initial target initial [] :=
  ⟨nofun, fun _ => .inl rfl⟩

theorem Balanced.all_undone (balanced : Balanced initial target cells jobs)
    (all : ∀ job ∈ jobs, job.undone = true) : cells = initial := by
  funext cell
  rcases balanced.standing cell with first | ⟨_, job, member, stands, _⟩
  · exact first
  · rw [all job member] at stands
    cases stands

def setUndone (jobs : List (Job Cell Value)) (id : Nat) (undone : Bool) : List (Job Cell Value) :=
  jobs.map fun job => if job.id = id then { job with undone := undone } else job

theorem setUndone_recorded (id : Nat) (undone : Bool)
    (recorded : ∀ job ∈ jobs, ∀ change ∈ job.changes,
      change.before = initial change.cell ∧ change.after = target change.cell) :
    ∀ job ∈ setUndone jobs id undone, ∀ change ∈ job.changes,
      change.before = initial change.cell ∧ change.after = target change.cell := by
  intro job member
  obtain ⟨old, stored, rfl⟩ := List.mem_map.mp member
  have before := recorded old stored
  split <;> exact before

variable {job : Job Cell Value}

theorem mem_setUndone_of_ne {id : Nat} {undone : Bool} (member : job ∈ jobs) (other : job.id ≠ id) :
    job ∈ setUndone jobs id undone :=
  List.mem_map.mpr ⟨job, member, if_neg other⟩

variable [DecidableEq Cell]

def writeBack (value : Change Cell Value → Value) (cells : Cell → Value)
    (changes : List (Change Cell Value)) : Cell → Value :=
  changes.foldl (fun cells change => Function.update cells change.cell (value change)) cells

variable {changes : List (Change Cell Value)}

theorem writeBack_apply {value : Change Cell Value → Value} {written : Cell → Value}
    (agree : ∀ change ∈ changes, value change = written change.cell) (cells : Cell → Value)
    (cell : Cell) :
    writeBack value cells changes cell =
      if ∃ change ∈ changes, change.cell = cell then written cell else cells cell := by
  induction changes generalizing cells with
  | nil => simp [writeBack]
  | cons change rest ih =>
    obtain ⟨here, later⟩ := List.forall_mem_cons.mp agree
    have step : writeBack value cells (change :: rest) =
        writeBack value (Function.update cells change.cell (value change)) rest := rfl
    rw [step, ih later]
    by_cases again : ∃ other ∈ rest, other.cell = cell
    · obtain ⟨other, member, own⟩ := again
      rw [if_pos ⟨other, member, own⟩, if_pos ⟨other, List.mem_cons_of_mem change member, own⟩]
    · rw [if_neg again]
      by_cases own : change.cell = cell
      · rw [if_pos ⟨change, List.mem_cons_self, own⟩, ← own, Function.update_self, here]
      · have none : ¬ ∃ other ∈ change :: rest, other.cell = cell := by
          rintro ⟨other, member, ofIt⟩
          rcases List.mem_cons.mp member with rfl | member
          · exact own ofIt
          · exact again ⟨other, member, ofIt⟩
        rw [if_neg none, Function.update_of_ne fun same => own same.symm]

theorem writeBack_undone {target : Cell → Value} (recorded : ∀ change ∈ changes,
      change.before = cells change.cell ∧ change.after = target change.cell) :
    writeBack Change.before (writeBack Change.after cells changes) changes = cells := by
  funext cell
  rw [writeBack_apply fun change member => (recorded change member).1]
  split
  · rfl
  · next untouched =>
      rw [writeBack_apply fun change member => (recorded change member).2, if_neg untouched]

theorem Balanced.applied (balanced : Balanced initial target cells jobs) (id : Nat)
    (new : ∀ change ∈ changes,
      change.before = initial change.cell ∧ change.after = target change.cell) :
    Balanced initial target (writeBack Change.after cells changes) (jobs ++ [⟨id, changes, false⟩]) := by
  refine ⟨?_, fun cell => ?_⟩
  · intro job member
    rcases List.mem_append.mp member with old | added
    · exact balanced.recorded job old
    · obtain rfl := List.mem_singleton.mp added
      exact new
  · rw [writeBack_apply fun change member => (new change member).2]
    split
    · rename_i changed
      exact .inr ⟨rfl, ⟨id, changes, false⟩, List.mem_append_right _ List.mem_cons_self, rfl,
        changed⟩
    · rcases balanced.standing cell with first | ⟨later, job, member, stands⟩
      · exact .inl first
      · exact .inr ⟨later, job, List.mem_append_left _ member, stands⟩

theorem Balanced.undo (balanced : Balanced initial target cells jobs) (member : job ∈ jobs)
    (unique : ∀ other ∈ jobs, other.id = job.id → other = job) :
    Balanced initial target (writeBack Change.before cells job.changes)
      (setUndone jobs job.id true) := by
  refine ⟨setUndone_recorded job.id true balanced.recorded, fun cell => ?_⟩
  rw [writeBack_apply fun change changed => (balanced.recorded job member change changed).1]
  split
  · exact .inl rfl
  · rename_i untouched
    rcases balanced.standing cell with first | ⟨later, other, stored, stands, changed⟩
    · exact .inl first
    · have apart : other.id ≠ job.id := fun same => untouched (unique other stored same ▸ changed)
      exact .inr ⟨later, other, mem_setUndone_of_ne stored apart, stands, changed⟩

theorem Balanced.redo (balanced : Balanced initial target cells jobs) (member : job ∈ jobs) :
    Balanced initial target (writeBack Change.after cells job.changes)
        (setUndone jobs job.id false) ∧
      ∀ change ∈ job.changes,
        writeBack Change.after cells job.changes change.cell = change.after := by
  have agree : ∀ change ∈ job.changes, change.after = target change.cell :=
    fun change changed => (balanced.recorded job member change changed).2
  have set : { job with undone := false } ∈ setUndone jobs job.id false :=
    List.mem_map.mpr ⟨job, member, if_pos rfl⟩
  refine ⟨⟨setUndone_recorded job.id false balanced.recorded, fun cell => ?_⟩, ?_⟩
  · rw [writeBack_apply agree]
    split
    · rename_i changed
      exact .inr ⟨rfl, _, set, rfl, changed⟩
    · rcases balanced.standing cell with first | ⟨later, other, stored, stands, changed⟩
      · exact .inl first
      · refine .inr ⟨later, { other with undone := false }, ?_, rfl, changed⟩
        refine List.mem_map.mpr ⟨other, stored, ?_⟩
        obtain ⟨id, changes, undone⟩ := other
        have stands : undone = false := stands
        subst stands
        split <;> rfl
  · intro change changed
    rw [writeBack_apply agree, if_pos ⟨change, changed, rfl⟩, agree change changed]

end Foundation.Toggling
