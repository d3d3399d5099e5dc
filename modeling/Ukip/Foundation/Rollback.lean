import Mathlib

/-!
# Jobs that record what they overwrite

A job writes cells of a store and records the value that it finds in each of
them.  Undoing the job writes the recorded values back.  A journal where the
writes of each cell are chained, every write finding what the one before it has
left, stays so as long as a job is undone only after the later jobs that wrote
one of its cells: then the cells hold what the latest job that is not undone has
written, and what they held at first where there is none.
-/

namespace Foundation.Rollback

variable {Job Cell Value : Type}

structure Write (Job Cell Value : Type) where
  job : Job
  cell : Cell
  before : Value
  after : Value

structure Journal (Job Cell Value : Type) where
  values : Cell → Value
  writes : List (Write Job Cell Value)
  undone : Job → Bool

/-- Every write finds what the one before it has left. -/
def Chained : Value → List (Write Job Cell Value) → Value → Prop
  | first, [], last => first = last
  | first, write :: rest, last => write.before = first ∧ Chained write.after rest last

theorem chained_append_iff (first : Value) (writes : List (Write Job Cell Value))
    (write : Write Job Cell Value) (last : Value) :
    Chained first (writes ++ [write]) last ↔ Chained first writes write.before ∧ write.after = last := by
  induction writes generalizing first with
  | nil =>
    constructor
    · rintro ⟨found, left⟩
      exact ⟨found.symm, left⟩
    · rintro ⟨found, left⟩
      exact ⟨found.symm, left⟩
  | cons head rest ih =>
    change (head.before = first ∧ Chained head.after (rest ++ [write]) last) ↔ _
    rw [ih head.after]
    exact and_assoc.symm

variable [DecidableEq Cell]

def Journal.pending (journal : Journal Job Cell Value) (cell : Cell) :
    List (Write Job Cell Value) :=
  journal.writes.filter fun write => decide (write.cell = cell) && !journal.undone write.job

theorem Journal.mem_pending_iff (journal : Journal Job Cell Value) (cell : Cell)
    (write : Write Job Cell Value) :
    write ∈ journal.pending cell ↔
      write ∈ journal.writes ∧ write.cell = cell ∧ journal.undone write.job = false := by
  unfold Journal.pending
  rw [List.mem_filter, Bool.and_eq_true, decide_eq_true_iff, Bool.not_eq_true']

variable [LinearOrder Job]

/-- The writes in the order of their jobs, at most one of a job to a cell, and chained. -/
structure Standing (initial : Cell → Value) (journal : Journal Job Cell Value) : Prop where
  chained : ∀ cell, Chained (initial cell) (journal.pending cell) (journal.values cell)
  ascending : journal.writes.Pairwise fun first second =>
    first.cell = second.cell → first.job < second.job

/-- A new job has written the cells of `new`. -/
structure Applied (job : Job) (new : List (Write Job Cell Value))
    (before after : Journal Job Cell Value) : Prop where
  writes : after.writes = before.writes ++ new
  undone : after.undone = before.undone
  later : ∀ write ∈ before.writes, write.job < job
  fresh : before.undone job = false
  mine : ∀ write ∈ new, write.job = job
  found : ∀ write ∈ new, write.before = before.values write.cell
  left : ∀ write ∈ new, after.values write.cell = write.after
  once : new.Pairwise fun first second => first.cell ≠ second.cell
  others : ∀ cell, (∀ write ∈ new, write.cell ≠ cell) → after.values cell = before.values cell

structure Undone (job : Job) (before after : Journal Job Cell Value) : Prop where
  writes : after.writes = before.writes
  undone : ∀ other, after.undone other = (before.undone other || decide (other = job))
  pending : before.undone job = false
  restored : ∀ write ∈ before.writes, write.job = job → after.values write.cell = write.before
  others : ∀ cell, (∀ write ∈ before.writes, write.job = job → write.cell ≠ cell) →
    after.values cell = before.values cell

/-- No later job that is not undone has written a cell of the job. -/
def Latest (job : Job) (journal : Journal Job Cell Value) : Prop :=
  ∀ write ∈ journal.writes, write.job = job → ∀ other ∈ journal.pending write.cell, other.job ≤ job

variable {initial : Cell → Value} {journal : Journal Job Cell Value}

theorem Standing.eq_of_same (standing : Standing initial journal) {first second : Write Job Cell Value}
    (firstIn : first ∈ journal.writes) (secondIn : second ∈ journal.writes)
    (sameCell : first.cell = second.cell) (sameJob : first.job = second.job) : first = second := by
  have apart : journal.writes.Pairwise fun one other =>
      one.cell = other.cell → one.job = other.job → one = other :=
    standing.ascending.imp fun ascends cell job => absurd (ascends cell) (by rw [job]; exact lt_irrefl _)
  have flipped : journal.writes.Pairwise (flip fun one other =>
      one.cell = other.cell → one.job = other.job → one = other) :=
    apart.imp fun same cell job => (same cell.symm job.symm).symm
  exact apart.forall_of_forall_of_flip (fun _ _ _ _ => rfl) flipped firstIn secondIn sameCell sameJob

theorem Standing.pending_eq_append (standing : Standing initial journal) {cell : Cell}
    {write : Write Job Cell Value} (here : write ∈ journal.pending cell)
    (latest : ∀ other ∈ journal.pending cell, other.job ≤ write.job) :
    ∃ front, journal.pending cell = front ++ [write] ∧ ∀ other ∈ front, other.job < write.job := by
  have ordered : (journal.pending cell).Pairwise fun first second => first.job < second.job := by
    refine List.Pairwise.imp_of_mem ?_ (standing.ascending.sublist List.filter_sublist)
    intro first second firstIn secondIn ascends
    have firstCell := ((journal.mem_pending_iff cell first).mp firstIn).2.1
    have secondCell := ((journal.mem_pending_iff cell second).mp secondIn).2.1
    exact ascends (firstCell.trans secondCell.symm)
  obtain ⟨front, rest, split⟩ := List.append_of_mem here
  rw [split] at ordered latest
  obtain ⟨_, tail, across⟩ := List.pairwise_append.mp ordered
  have none : rest = [] := by
    refine List.eq_nil_iff_forall_not_mem.mpr fun other member => ?_
    have above := (List.pairwise_cons.mp tail).1 other member
    have below := latest other (List.mem_append_right front (List.mem_cons_of_mem write member))
    exact absurd above (not_lt.mpr below)
  rw [none] at split
  exact ⟨front, split, fun other member => across other member write List.mem_cons_self⟩

theorem Standing.values_eq_initial (standing : Standing initial journal) (cell : Cell)
    (undone : ∀ write ∈ journal.writes, write.cell = cell → journal.undone write.job = true) :
    journal.values cell = initial cell := by
  have none : journal.pending cell = [] := by
    refine List.eq_nil_iff_forall_not_mem.mpr fun write member => ?_
    obtain ⟨present, same, open'⟩ := (journal.mem_pending_iff cell write).mp member
    rw [undone write present same] at open'
    cases open'
  have chain := standing.chained cell
  rw [none] at chain
  exact chain.symm

theorem Standing.values_eq_after (standing : Standing initial journal) {write : Write Job Cell Value}
    (here : write ∈ journal.pending write.cell)
    (latest : ∀ other ∈ journal.pending write.cell, other.job ≤ write.job) :
    journal.values write.cell = write.after := by
  obtain ⟨front, split, _⟩ := standing.pending_eq_append here latest
  have chain := standing.chained write.cell
  rw [split, chained_append_iff] at chain
  exact chain.2.symm

variable {before after : Journal Job Cell Value} {job : Job}

theorem Applied.pending_eq {new : List (Write Job Cell Value)} (applied : Applied job new before after)
    (cell : Cell) :
    after.pending cell = before.pending cell ++ new.filter fun write => decide (write.cell = cell) := by
  unfold Journal.pending
  rw [applied.writes, applied.undone, List.filter_append]
  congr 1
  refine List.filter_congr fun write member => ?_
  rw [applied.mine write member, applied.fresh, Bool.not_false, Bool.and_true]

theorem Standing.applied {new : List (Write Job Cell Value)} (standing : Standing initial before)
    (applied : Applied job new before after) : Standing initial after := by
  refine ⟨fun cell => ?_, ?_⟩
  · rw [applied.pending_eq cell]
    by_cases written : ∃ write ∈ new, write.cell = cell
    · obtain ⟨write, member, rfl⟩ := written
      have only : (new.filter fun other => decide (other.cell = write.cell)) = [write] := by
        obtain ⟨front, rest, split⟩ := List.append_of_mem member
        have once := applied.once
        rw [split] at once
        obtain ⟨_, tail, across⟩ := List.pairwise_append.mp once
        have frontOther : (front.filter fun other => decide (other.cell = write.cell)) = [] :=
          List.filter_eq_nil_iff.mpr fun other here =>
            by simpa using across other here write List.mem_cons_self
        have restOther : (rest.filter fun other => decide (other.cell = write.cell)) = [] :=
          List.filter_eq_nil_iff.mpr fun other here =>
            by simpa using ((List.pairwise_cons.mp tail).1 other here).symm
        have itself : decide (write.cell = write.cell) = true := decide_eq_true rfl
        rw [split, List.filter_append, frontOther, List.nil_append, List.filter_cons, if_pos itself,
          restOther]
      rw [only, chained_append_iff, applied.found write member, applied.left write member]
      exact ⟨standing.chained write.cell, rfl⟩
    · have others : ∀ write ∈ new, write.cell ≠ cell := fun write member same =>
        written ⟨write, member, same⟩
      have none : (new.filter fun other => decide (other.cell = cell)) = [] :=
        List.filter_eq_nil_iff.mpr fun other here => by simpa using others other here
      rw [none, List.append_nil, applied.others cell others]
      exact standing.chained cell
  · rw [applied.writes]
    refine List.pairwise_append.mpr ⟨standing.ascending, ?_, ?_⟩
    · exact applied.once.imp fun apart same => absurd same apart
    · intro first firstIn second secondIn _
      rw [applied.mine second secondIn]
      exact applied.later first firstIn

theorem Undone.pending_eq (undone : Undone job before after) (cell : Cell) :
    after.pending cell = (before.pending cell).filter fun write => decide (write.job ≠ job) := by
  unfold Journal.pending
  rw [undone.writes, List.filter_filter]
  refine List.filter_congr fun write _ => ?_
  rw [undone.undone]
  by_cases mine : write.job = job <;> simp [mine]

theorem Standing.undone (standing : Standing initial before) (undone : Undone job before after)
    (latest : Latest job before) : Standing initial after := by
  refine ⟨fun cell => ?_, undone.writes ▸ standing.ascending⟩
  rw [undone.pending_eq cell]
  by_cases written : ∃ write ∈ before.writes, write.job = job ∧ write.cell = cell
  · obtain ⟨write, member, mine, rfl⟩ := written
    have here : write ∈ before.pending write.cell :=
      (before.mem_pending_iff _ write).mpr ⟨member, rfl, mine ▸ undone.pending⟩
    obtain ⟨front, split, below⟩ :=
      standing.pending_eq_append here (by rw [mine]; exact latest write member mine)
    -- The write of the job goes, and it is the last one.
    have gone : (before.pending write.cell).filter (fun other => decide (other.job ≠ job)) = front := by
      rw [split, List.filter_append, List.filter_cons_of_neg (by simp [mine]), List.filter_nil,
        List.append_nil]
      refine List.filter_eq_self.mpr fun other here => ?_
      rw [decide_eq_true_iff, ← mine]
      exact ne_of_lt (below other here)
    have chain := standing.chained write.cell
    rw [split, chained_append_iff] at chain
    rw [gone, undone.restored write member mine]
    exact chain.1
  · have stays : (before.pending cell).filter (fun other => decide (other.job ≠ job)) =
        before.pending cell := by
      refine List.filter_eq_self.mpr fun other here => ?_
      obtain ⟨present, same, _⟩ := (before.mem_pending_iff cell other).mp here
      rw [decide_eq_true_iff]
      exact fun mine => written ⟨other, present, mine, same⟩
    rw [stays, undone.others cell fun write member mine same => written ⟨write, member, mine, same⟩]
    exact standing.chained cell

end Foundation.Rollback
