import Ukip.Lifecycle.Purge

/-!
# The retention sweep

`purge_expired_orgs` of `data_lifecycle.py`: all organisations share one session.  A statement
that fails aborts the transaction, and every statement raises from then on until a rollback,
which the sweep never asks for.
-/

namespace Ukip.Lifecycle.RetentionSweep

open Purge Tables

inductive EventStatus where
  | started
  | completed
  | failed
  deriving DecidableEq

structure LifecycleEvent where
  orgId : Nat
  status : EventStatus
  evidence : List (String × Nat)
  deriving DecidableEq

structure Store where
  rows : List LifecycleRow
  events : List LifecycleEvent

structure Session where
  committed : Store
  working : Store
  aborted : Bool

/-- One statement; the exception carries the session that it leaves. -/
def execute (fails : Bool) (session : Session) (change : Store → Option Store) :
    Except Session Session :=
  if session.aborted || fails then .error { session with aborted := true }
  else
    match change session.working with
    | none => .error { session with aborted := true }
    | some working => .ok { session with working := working }

def commit (fails : Bool) (session : Session) : Except Session Session :=
  (execute fails session some).map fun session => { session with committed := session.working }

/-- `record_event`, with the place of the new event. -/
def recordEvent (session : Session) (orgId : Nat) : Except Session (Session × Nat) := do
  let added ← execute false session fun store =>
    some { store with events := store.events ++ [⟨orgId, .started, []⟩] }
  return (← commit false added, session.working.events.length)

def completeEvent (session : Session) (place : Nat) (event : LifecycleEvent) :
    Except Session Session := do
  commit false (← execute false session fun store =>
    some { store with events := store.events.set place event })

def deleteSurface (fails : Nat → Bool) (state : Session × List (String × Nat))
    (statement : (String × (LifecycleRow → Bool)) × Nat) :
    Except Session (Session × List (String × Nat)) := do
  let deleted ← execute (fails statement.2) state.1 fun store =>
    (schema.delete store.rows statement.1.2).map fun rows => { store with rows := rows }
  return (deleted, state.2 ++ [(statement.1.1, (state.1.working.rows.filter statement.1.2).length)])

/-- `purge_expired_entities` in the session; `fails` says which of its seven statements fail. -/
def purgeEntities (orgId : Nat) (cutoff : Int) (fails : Nat → Bool) (session : Session) :
    Except Session (Session × List (String × Nat)) := do
  let session ← execute (fails 0) session some
  let ids := expiredIds orgId cutoff session.working.rows
  if ids = [] then .ok (session, [])
  else do
    let deleted ← ((childDeletions ids ++ [("entities", entityDeletion ids)]).zipIdx 1).foldlM
      (deleteSurface fails) (session, [])
    (commit (fails 6) deleted.1).map fun session => (session, deleted.2)

structure RetentionPolicy where
  orgId : Option Nat
  retentionDays : Option Nat

/-- The organisation and the cutoff of a policy that purges. -/
def RetentionPolicy.target (now : Int) (policy : RetentionPolicy) : Option (Nat × Int) :=
  policy.retentionDays.bind fun days => policy.orgId.map fun orgId => (orgId, now - days * 86400)

variable (now : Int) (fails : Nat → Nat → Bool)

def sweepPolicy (session : Session) (policy : RetentionPolicy) : Except Session Session :=
  match policy.target now with
  | none => .ok session
  | some (orgId, cutoff) => do
    let session ← execute false session some
    if expiredIds orgId cutoff session.working.rows = [] then .ok session
    else do
      let (session, place) ← recordEvent session orgId
      match purgeEntities orgId cutoff (fails orgId) session with
      | .error broken => completeEvent broken place ⟨orgId, .failed, []⟩
      | .ok (purged, counts) =>
        match completeEvent purged place ⟨orgId, .completed, counts⟩ with
        | .ok done => .ok done
        | .error broken => completeEvent broken place ⟨orgId, .failed, []⟩

def purgeExpiredOrgs (policies : List RetentionPolicy) (session : Session) : Except Session Session :=
  policies.foldlM (sweepPolicy now fails) session

/-- What the database holds in the end: an exception discards what is not committed. -/
def left : Except Session Session → Store
  | .ok session => session.committed
  | .error session => session.committed

def opened (store : Store) : Session := ⟨store, store, false⟩

/-- Every event that the sweep starts ends, and every organisation is purged, or untouched with
failed events. -/
structure Isolated (policies : List RetentionPolicy) (before after : Store) : Prop where
  ended : ∀ event ∈ after.events.drop before.events.length, event.status ≠ .started
  processed : ∀ policy ∈ policies, ∀ orgId cutoff, policy.target now = some (orgId, cutoff) →
    (expiredIds orgId cutoff after.rows = [] ∧
      ∀ event ∈ after.events.drop before.events.length, event.orgId = orgId → event.status = .completed) ∨
    ((∀ row ∈ before.rows, row.owner = some (orgId : Int) → row ∈ after.rows) ∧
      ∀ event ∈ after.events.drop before.events.length, event.orgId = orgId → event.status = .failed)

def remaining (orgId : Nat) (cutoff : Int) (rows : List LifecycleRow) : List LifecycleRow :=
  rows.filter fun row => !isDoomed (expiredIds orgId cutoff rows) row

/-- No statement fails in the purge of an organisation that has expired rows at its turn. -/
def Unbroken : List RetentionPolicy → List LifecycleRow → Prop
  | [], _ => True
  | policy :: rest, rows =>
    match policy.target now with
    | none => Unbroken rest rows
    | some (orgId, cutoff) =>
      (expiredIds orgId cutoff rows ≠ [] → ∀ place ≤ 6, fails orgId place = false) ∧
        Unbroken rest (remaining orgId cutoff rows)

variable {session : Session}

theorem execute_ready (ready : session.aborted = false) (fails : Bool)
    (change : Store → Option Store) {working : Store}
    (changed : change session.working = some working) :
    execute fails session change =
      if fails then .error { session with aborted := true }
      else .ok { session with working := working } := by
  rw [execute, ready, changed, Bool.false_or]

theorem execute_aborted (aborted : session.aborted = true) (fails : Bool)
    (change : Store → Option Store) : execute fails session change = .error session := by
  rw [execute, aborted, Bool.true_or, if_pos rfl, ← aborted]

theorem commit_ready (ready : session.aborted = false) (fails : Bool) :
    commit fails session =
      if fails then .error { session with aborted := true } else .ok (opened session.working) := by
  rw [commit, execute_ready ready fails some rfl, opened, ← ready]
  cases fails <;> rfl

variable {fails : Nat → Bool}

theorem deletes_cases (statements : List (String × (LifecycleRow → Bool))) (place : Nat)
    (ready : session.aborted = false) (counts : List (String × Nat)) {rows : List LifecycleRow}
    (deletes : schema.deleteAll (statements.map Prod.snd) session.working.rows = some rows) :
    (∃ counted, (statements.zipIdx place).foldlM (deleteSurface fails) (session, counts) =
        .ok ({ session with working := { session.working with rows := rows } }, counted) ∧
      ∀ here, place ≤ here → here < place + statements.length → fails here = false) ∨
    ∃ broken, (statements.zipIdx place).foldlM (deleteSurface fails) (session, counts) = .error broken ∧
      broken.aborted = true ∧ broken.committed = session.committed ∧
      ∃ here, place ≤ here ∧ here < place + statements.length ∧ fails here = true := by
  induction statements generalizing place session counts with
  | nil =>
    obtain rfl : session.working.rows = rows := Option.some.inj deletes
    exact .inl ⟨counts, rfl, fun here low high => absurd high (Nat.not_lt.mpr low)⟩
  | cons statement rest ih =>
    obtain ⟨after, deleted, later⟩ := Option.bind_eq_some_iff.mp deletes
    let next : Session := { session with working := { session.working with rows := after } }
    have nextReady : next.aborted = false := ready
    have one := execute_ready ready (fails place) (fun store =>
      (schema.delete store.rows statement.2).map fun rows => { store with rows := rows })
      (congrArg (Option.map _) deleted)
    rw [List.zipIdx_cons, List.foldlM_cons, deleteSurface]
    dsimp only
    rw [one, List.length_cons]
    by_cases failing : fails place = true
    · rw [if_pos failing]
      exact .inr ⟨_, rfl, rfl, rfl, place, Nat.le_refl place, by omega, failing⟩
    · rw [if_neg failing]
      rcases ih (place + 1) nextReady _ later with ⟨counted, run, fine⟩ | ⟨broken, run, aborted, kept, here, low, high, fault⟩
      · refine .inl ⟨counted, run, fun here low high => ?_⟩
        rcases Nat.eq_or_lt_of_le low with rfl | beyond
        · exact Bool.not_eq_true _ ▸ failing
        · exact fine here beyond (by omega)
      · exact .inr ⟨broken, run, aborted, kept, here, by omega, by omega, fault⟩

theorem purgeEntities_cases {orgId : Nat} {cutoff : Int} (ready : session.aborted = false)
    (some_ : expiredIds orgId cutoff session.working.rows ≠ []) :
    (∃ counts, purgeEntities orgId cutoff fails session =
        .ok (opened { session.working with rows := remaining orgId cutoff session.working.rows }, counts) ∧
      ∀ place ≤ 6, fails place = false) ∨
    ∃ broken, purgeEntities orgId cutoff fails session = .error broken ∧ broken.aborted = true ∧
      broken.committed = session.committed ∧ ∃ place ≤ 6, fails place = true := by
  let deleted : Session := { session with
    working := { session.working with rows := remaining orgId cutoff session.working.rows } }
  have committed := commit_ready (show deleted.aborted = false from ready) (fails 6)
  have deletes : schema.deleteAll _ session.working.rows =
    some (remaining orgId cutoff session.working.rows) := deleteAll_purge orgId cutoff session.working.rows
  unfold purgeEntities
  rw [execute_ready ready (fails 0) some rfl]
  by_cases first : fails 0 = true
  · rw [if_pos first]
    exact .inr ⟨_, rfl, rfl, rfl, 0, Nat.zero_le 6, first⟩
  · rw [if_neg first]
    simp only [bind, Except.bind, if_neg some_]
    rcases deletes_cases _ 1 ready [] deletes with
      ⟨counts, run, fine⟩ | ⟨broken, run, aborted, kept, place, low, high, fault⟩
    · rw [run]
      dsimp only
      rw [show commit (fails 6) { session with working := _ } = _ from committed]
      by_cases last : fails 6 = true
      · rw [if_pos last]
        exact .inr ⟨_, rfl, rfl, rfl, 6, Nat.le_refl 6, last⟩
      · rw [if_neg last]
        refine .inl ⟨counts, rfl, fun place bound => ?_⟩
        rcases Nat.eq_zero_or_pos place with rfl | positive
        · exact Bool.not_eq_true _ ▸ first
        · rcases Nat.eq_or_lt_of_le bound with rfl | below
          · exact Bool.not_eq_true _ ▸ last
          · exact fine place positive (by simpa [childDeletions, entityChildSurfaces] using below)
    · rw [run]
      have few : place < 1 + (4 + 1) := by simpa [childDeletions, entityChildSurfaces] using high
      exact .inr ⟨broken, rfl, aborted, kept, place, Nat.le_of_lt few, fault⟩

variable {fails : Nat → Nat → Bool} {now : Int}

theorem sweepPolicy_cases (store : Store) (policy : RetentionPolicy) :
    match policy.target now with
    | none => sweepPolicy now fails (opened store) policy = .ok (opened store)
    | some (orgId, cutoff) =>
      (∃ events, sweepPolicy now fails (opened store) policy =
          .ok (opened ⟨remaining orgId cutoff store.rows, store.events ++ events⟩) ∧
        (∀ event ∈ events, event.status = .completed) ∧
        (expiredIds orgId cutoff store.rows ≠ [] → ∀ place ≤ 6, fails orgId place = false)) ∨
      ∃ broken, sweepPolicy now fails (opened store) policy = .error broken ∧
        broken.committed.events = store.events ++ [⟨orgId, .started, []⟩] ∧
        expiredIds orgId cutoff store.rows ≠ [] ∧ ∃ place ≤ 6, fails orgId place = true := by
  unfold sweepPolicy
  cases policy.target now with
  | none => rfl
  | some target =>
    obtain ⟨orgId, cutoff⟩ := target
    let noted : Store := { store with events := store.events ++ [⟨orgId, .started, []⟩] }
    have started : recordEvent (opened store) orgId = .ok (opened noted, store.events.length) := rfl
    dsimp only
    rw [execute_ready rfl false some rfl]
    simp only [bind, Except.bind, Bool.false_eq_true, if_false]
    by_cases none_ : expiredIds orgId cutoff store.rows = []
    · refine .inl ⟨[], ?_, nofun, fun some_ => absurd none_ some_⟩
      have same : remaining orgId cutoff store.rows = store.rows := by
        rw [remaining, none_]
        exact List.filter_eq_self.mpr fun row _ => by rw [isDoomed_nil]; rfl
      rw [if_pos (show expiredIds orgId cutoff (opened store).working.rows = [] from none_), same,
        List.append_nil]
    · rw [if_neg (show ¬expiredIds orgId cutoff (opened store).working.rows = [] from none_), started]
      dsimp only
      have cases_ : (∃ counts, purgeEntities orgId cutoff (fails orgId) (opened noted) = _ ∧ _) ∨
          ∃ broken, purgeEntities orgId cutoff (fails orgId) (opened noted) = .error broken ∧ _ :=
        purgeEntities_cases rfl none_
      rcases cases_ with ⟨counts, run, fine⟩ | ⟨broken, run, aborted, kept, fault⟩
      · rw [run]
        refine .inl ⟨[⟨orgId, .completed, counts⟩], ?_, by simp, fun _ => fine⟩
        have written (done : LifecycleEvent) :
            noted.events.set store.events.length done = store.events ++ [done] := by
          rw [List.set_append_right _ _ (Nat.le_refl _), Nat.sub_self]
          rfl
        rw [← written]
        rfl
      · rw [run]
        refine .inr ⟨broken, ?_, ?_, none_, fault⟩
        · dsimp only
          rw [completeEvent, execute_aborted aborted]
          rfl
        · rw [kept]
          rfl

theorem expiredIds_remaining (orgId : Nat) (cutoff : Int) (rows : List LifecycleRow) :
    expiredIds orgId cutoff (remaining orgId cutoff rows) = [] := by
  refine List.map_eq_nil_iff.mpr (List.filter_eq_nil_iff.mpr fun row member expired => ?_)
  obtain ⟨stored, kept⟩ := List.mem_filter.mp member
  have doomed : entityDeletion (expiredIds orgId cutoff rows) row = true := by
    rw [entityDeletion, List.contains_iff_mem.mpr ((mem_expiredIds orgId cutoff rows row.id).mpr
      ⟨row, stored, expired, rfl⟩), Bool.and_true]
    exact decide_eq_true (entity_of_isExpired orgId cutoff expired)
  rw [isDoomed, doomed, Bool.or_true] at kept
  cases kept

theorem expiredIds_of_subset {orgId : Nat} {cutoff : Int} {rows after : List LifecycleRow}
    (within : after ⊆ rows) (none_ : expiredIds orgId cutoff rows = []) :
    expiredIds orgId cutoff after = [] := by
  refine List.map_eq_nil_iff.mpr (List.filter_eq_nil_iff.mpr fun row member => ?_)
  exact List.filter_eq_nil_iff.mp (List.map_eq_nil_iff.mp none_) row (within member)

variable (policies : List RetentionPolicy)

theorem sweep_unbroken (store : Store) (unbroken : Unbroken now fails policies store.rows) :
    ∃ rows events, purgeExpiredOrgs now fails policies (opened store) =
        .ok (opened ⟨rows, store.events ++ events⟩) ∧
      rows ⊆ store.rows ∧ (∀ event ∈ events, event.status = .completed) ∧
      ∀ policy ∈ policies, ∀ orgId cutoff, policy.target now = some (orgId, cutoff) →
        expiredIds orgId cutoff rows = [] := by
  induction policies generalizing store with
  | nil => exact ⟨store.rows, [], by rw [List.append_nil]; rfl, List.Subset.refl _, nofun, nofun⟩
  | cons policy rest ih =>
    have turn := @sweepPolicy_cases fails now store policy
    rw [Unbroken] at unbroken
    rw [purgeExpiredOrgs, List.foldlM_cons]
    cases target : policy.target now with
    | none =>
      rw [target] at turn unbroken
      obtain ⟨rows, events, run, within, completed, purged⟩ := ih store unbroken
      rw [show sweepPolicy now fails (opened store) policy = _ from turn]
      refine ⟨rows, events, run, within, completed, List.forall_mem_cons.mpr ⟨?_, purged⟩⟩
      intro orgId cutoff named
      rw [target] at named
      cases named
    | some aim =>
      obtain ⟨orgId, cutoff⟩ := aim
      rw [target] at turn unbroken
      rcases turn with ⟨events, run, completed, _⟩ | ⟨broken, _, _, some_, place, low, fault⟩
      · obtain ⟨rows, later, runs, within, completedLater, purged⟩ :=
          ih ⟨remaining orgId cutoff store.rows, store.events ++ events⟩ unbroken.2
        rw [run]
        refine ⟨rows, events ++ later, ?_, fun row member => List.mem_of_mem_filter (within member),
          List.forall_mem_append.mpr ⟨completed, completedLater⟩,
          List.forall_mem_cons.mpr ⟨?_, purged⟩⟩
        · rw [← List.append_assoc]
          exact runs
        · intro _ _ named
          rw [target] at named
          cases named
          exact expiredIds_of_subset within (expiredIds_remaining orgId cutoff store.rows)
      · rw [unbroken.1 some_ place low] at fault
        cases fault

/-- The first purge that fails ends the sweep and leaves its event as it started. -/
theorem sweep_broken (store : Store) (breaks : ¬ Unbroken now fails policies store.rows) :
    ∃ broken events, purgeExpiredOrgs now fails policies (opened store) = .error broken ∧
      broken.committed.events = store.events ++ events ∧ ∃ event ∈ events, event.status = .started := by
  induction policies generalizing store with
  | nil => exact absurd trivial breaks
  | cons policy rest ih =>
    have turn := @sweepPolicy_cases fails now store policy
    rw [Unbroken] at breaks
    rw [purgeExpiredOrgs, List.foldlM_cons]
    cases target : policy.target now with
    | none =>
      rw [target] at turn breaks
      rw [show sweepPolicy now fails (opened store) policy = _ from turn]
      exact ih store breaks
    | some aim =>
      rw [target] at turn breaks
      rcases turn with ⟨events, run, _, fine⟩ | ⟨broken, run, noted, _⟩
      · obtain ⟨broken, later, runs, noted, event, member, started⟩ :=
          ih ⟨remaining aim.1 aim.2 store.rows, store.events ++ events⟩ fun rest => breaks ⟨fine, rest⟩
        rw [run]
        refine ⟨broken, events ++ later, runs, ?_, event, List.mem_append_right events member, started⟩
        rw [noted, List.append_assoc]
      · rw [run]
        exact ⟨broken, _, rfl, noted, _, List.mem_cons_self, rfl⟩

theorem isolated_iff (now : Int) (fails : Nat → Nat → Bool) (policies : List RetentionPolicy)
    (before : Store) :
    Isolated now policies before (left (purgeExpiredOrgs now fails policies (opened before))) ↔
      Unbroken now fails policies before.rows := by
  constructor
  · intro isolated
    by_contra breaks
    obtain ⟨broken, events, run, noted, event, member, started⟩ := sweep_broken policies before breaks
    refine isolated.ended event ?_ started
    rw [run, left, noted, List.drop_left]
    exact member
  · intro unbroken
    obtain ⟨rows, events, run, _, completed, purged⟩ := sweep_unbroken policies before unbroken
    rw [run, left, opened]
    constructor
    · intro event member
      rw [List.drop_left] at member
      rw [completed event member]
      exact EventStatus.noConfusion
    · intro policy listed orgId cutoff target
      refine .inl ⟨purged policy listed orgId cutoff target, fun event member _ => ?_⟩
      rw [List.drop_left] at member
      exact completed event member

/-- The third delete of the purge of organisation 7 fails. -/
theorem failed_delete_leaves_started :
    ¬ Isolated 10 [⟨some 7, some 0⟩] ⟨harmonizedEntity.rows, []⟩
      (left (purgeExpiredOrgs 10 (fun _ place => place == 3) [⟨some 7, some 0⟩]
        (opened ⟨harmonizedEntity.rows, []⟩))) := by
  intro isolated
  exact isolated.ended ⟨7, .started, []⟩ (by decide +kernel) rfl

end Ukip.Lifecycle.RetentionSweep
