import Ukip.Foundation.Grouping
import Ukip.Foundation.OrderBy
import Ukip.Retrospective.Ledger
import Mathlib.Data.String.Basic

/-!
# Point-in-time queries

`query.py`: the snapshot of a subject that is valid at a time, and the cohort of the
subjects whose first event falls into a window.  Both look at the time a record speaks
about and at nothing else that an append could change, so records about later times do
not reach the answers.
-/

namespace Ukip.Retrospective

open Foundation Foundation.Grouping

/-- Newest first, as `order_by(valid_at.desc())` may return them. -/
abbrev NewestFirst := OrderBy fun snapshot : RetrospectiveSnapshot => -snapshot.validAt

/-- Oldest first, as `order_by(occurred_at.asc())` may return them. -/
abbrev OldestFirst := OrderBy RetrospectiveEvent.occurredAt

structure SnapshotResult where
  found : Bool
  snapshotType : String
  subjectId : String
  validAt : Option Int
  recordedAt : Option Int
  payload : Option Payload
  missingReason : Option String

def scopedSnapshots (ledger : Ledger) (orgId : Option Int) (snapshotType subjectId : String) :
    List RetrospectiveSnapshot :=
  ledger.snapshots.filter fun snapshot =>
    snapshot.snapshotType = snapshotType ∧ snapshot.subjectId = subjectId ∧
      snapshot.orgId = orgId

def pointInTimeSnapshot (newest : NewestFirst) (ledger : Ledger) (orgId : Option Int)
    (snapshotType subjectId : String) (asOf : Int) : SnapshotResult :=
  let valid := (scopedSnapshots ledger orgId snapshotType subjectId).filter fun snapshot =>
    snapshot.validAt ≤ asOf
  match (newest.arrange valid).head? with
  | none =>
    { found := false, snapshotType := snapshotType, subjectId := subjectId, validAt := none,
      recordedAt := none, payload := none, missingReason := some "no_history" }
  | some row =>
    { found := true, snapshotType := snapshotType, subjectId := subjectId,
      validAt := some row.validAt, recordedAt := some row.recordedAt,
      payload := some row.payload, missingReason := none }

def scopedEvents (ledger : Ledger) (orgId : Option Int) (eventType : String) :
    List RetrospectiveEvent :=
  ledger.events.filter fun event => event.eventType = eventType ∧ event.orgId = orgId

/-- `first_seen`, filled by `setdefault`: the first event of every subject. -/
def firstSeen (oldest : OldestFirst) (ledger : Ledger) (orgId : Option Int)
    (eventType : String) : List RetrospectiveEvent :=
  firsts RetrospectiveEvent.domainObjectId (oldest.arrange (scopedEvents ledger orgId eventType))

def cohortByFirstEvent (oldest : OldestFirst) (ledger : Ledger) (orgId : Option Int)
    (eventType : String) (since until_ : Int) : List String :=
  let members := (firstSeen oldest ledger orgId eventType).filter fun event =>
    since ≤ event.occurredAt ∧ event.occurredAt ≤ until_
  (members.map RetrospectiveEvent.domainObjectId).insertionSort (· ≤ ·)

variable (oldest : OldestFirst)

theorem mem_cohortByFirstEvent (ledger : Ledger) (orgId : Option Int) (eventType : String)
    (since until_ : Int) (subject : String) :
    subject ∈ cohortByFirstEvent oldest ledger orgId eventType since until_ ↔
      ∃ event ∈ scopedEvents ledger orgId eventType, event.domainObjectId = subject ∧
        (∀ other ∈ scopedEvents ledger orgId eventType, other.domainObjectId = subject →
          event.occurredAt ≤ other.occurredAt) ∧
        since ≤ event.occurredAt ∧ event.occurredAt ≤ until_ := by
  unfold cohortByFirstEvent firstSeen
  dsimp only
  rw [(List.perm_insertionSort _ _).mem_iff, List.mem_map]
  constructor
  · rintro ⟨event, member, rfl⟩
    obtain ⟨first, window⟩ := List.mem_filter.mp member
    rw [mem_firsts_iff] at first
    obtain ⟨⟨inScope, _⟩, earliest⟩ := oldest.le_of_find?_arrange first
    refine ⟨event, inScope, rfl, ?_, by simpa using window⟩
    intro other otherScope same
    exact earliest other otherScope (by simpa using same)
  · rintro ⟨event, inScope, rfl, earliest, window⟩
    obtain ⟨first, isFirst, same⟩ := exists_mem_firsts RetrospectiveEvent.domainObjectId
      ((oldest.mem_arrange _ event).mpr inScope)
    have found := (mem_firsts_iff _ _ first).mp isFirst
    obtain ⟨⟨firstScope, _⟩, least⟩ := oldest.le_of_find?_arrange found
    have sameTime : first.occurredAt = event.occurredAt :=
      Int.le_antisymm (least event inScope (by simpa using same.symm))
        (earliest first firstScope same)
    refine ⟨first, List.mem_filter.mpr ⟨isFirst, ?_⟩, same⟩
    rw [sameTime]
    simpa using window

theorem nodup_cohortByFirstEvent (ledger : Ledger) (orgId : Option Int) (eventType : String)
    (since until_ : Int) :
    (cohortByFirstEvent oldest ledger orgId eventType since until_).Nodup := by
  unfold cohortByFirstEvent firstSeen
  dsimp only
  rw [(List.perm_insertionSort _ _).nodup_iff]
  exact (nodup_map_firsts _ _).sublist (List.filter_sublist.map _)

theorem pairwise_cohortByFirstEvent (ledger : Ledger) (orgId : Option Int) (eventType : String)
    (since until_ : Int) :
    (cohortByFirstEvent oldest ledger orgId eventType since until_).Pairwise (· ≤ ·) :=
  List.pairwise_insertionSort _ _

theorem cohortByFirstEvent_ext {oldest other : OldestFirst} {ledger later : Ledger}
    {orgId : Option Int} {eventType : String} {since until_ : Int}
    (same : ∀ subject, subject ∈ cohortByFirstEvent oldest ledger orgId eventType since until_ ↔
      subject ∈ cohortByFirstEvent other later orgId eventType since until_) :
    cohortByFirstEvent oldest ledger orgId eventType since until_ =
      cohortByFirstEvent other later orgId eventType since until_ := by
  have perm := (List.perm_ext_iff_of_nodup (nodup_cohortByFirstEvent _ _ _ _ _ _)
    (nodup_cohortByFirstEvent _ _ _ _ _ _)).mpr same
  refine perm.eq_of_pairwise ?_ (pairwise_cohortByFirstEvent _ _ _ _ _ _)
    (pairwise_cohortByFirstEvent _ _ _ _ _ _)
  intro a b _ _ ab ba
  exact le_antisymm ab ba

theorem pointInTimeSnapshot_appendAll (newest : NewestFirst) (ledger : Ledger)
    (later : List Record) (asOf : Int) (after : ∀ record ∈ later, asOf < record.factTime)
    (orgId : Option Int) (snapshotType subjectId : String) :
    pointInTimeSnapshot newest (ledger.appendAll later) orgId snapshotType subjectId asOf =
      pointInTimeSnapshot newest ledger orgId snapshotType subjectId asOf := by
  obtain ⟨_, snapshots, _, rows, _, fromLater⟩ := ledger.appendAll_rows later
  have isLater : ∀ snapshot ∈ snapshots, asOf < snapshot.validAt :=
    fun snapshot member => after _ (fromLater snapshot member)
  have valid : (scopedSnapshots (ledger.appendAll later) orgId snapshotType subjectId).filter
        (fun snapshot => snapshot.validAt ≤ asOf) =
      (scopedSnapshots ledger orgId snapshotType subjectId).filter
        fun snapshot => snapshot.validAt ≤ asOf := by
    rw [scopedSnapshots, rows, List.filter_append, List.filter_append, scopedSnapshots]
    refine (congrArg _ (List.filter_eq_nil_iff.mpr ?_)).trans (List.append_nil _)
    intro snapshot member
    have past := isLater snapshot (List.mem_of_mem_filter member)
    simpa using past
  unfold pointInTimeSnapshot
  dsimp only
  rw [valid]

theorem cohortByFirstEvent_appendAll (oldest other : OldestFirst) (ledger : Ledger)
    (later : List Record) (asOf : Int) (after : ∀ record ∈ later, asOf < record.factTime)
    (orgId : Option Int) (eventType : String) (since until_ : Int) (ended : until_ ≤ asOf) :
    cohortByFirstEvent other (ledger.appendAll later) orgId eventType since until_ =
      cohortByFirstEvent oldest ledger orgId eventType since until_ := by
  obtain ⟨events, _, rows, _, fromLater, _⟩ := ledger.appendAll_rows later
  have inScope : ∀ event, event ∈ scopedEvents (ledger.appendAll later) orgId eventType ↔
      event ∈ scopedEvents ledger orgId eventType ∨
        event ∈ events ∧ event.eventType = eventType ∧ event.orgId = orgId := by
    intro event
    simp [scopedEvents, rows]
  have isLater : ∀ event ∈ events, asOf < event.occurredAt :=
    fun event member => after _ (fromLater event member)
  refine cohortByFirstEvent_ext fun subject => ?_
  rw [mem_cohortByFirstEvent, mem_cohortByFirstEvent]
  constructor
  · rintro ⟨event, member, same, earliest, window⟩
    rcases (inScope event).mp member with old | ⟨new, _⟩
    · refine ⟨event, old, same, ?_, window⟩
      intro another found
      exact earliest another ((inScope another).mpr (.inl found))
    · have past := isLater event new
      omega
  · rintro ⟨event, member, same, earliest, window⟩
    refine ⟨event, (inScope event).mpr (.inl member), same, ?_, window⟩
    intro another found sameSubject
    rcases (inScope another).mp found with old | ⟨new, _⟩
    · exact earliest another old sameSubject
    · have past := isLater another new
      omega

/-- What was asked for a time is answered the same after any number of records about
later times: the snapshot valid at that time, where the database keeps to one order of equal
rows, and the cohorts up to it, where it may take another one. -/
theorem as_of_answers_stable (ledger : Ledger) (asOf : Int) (later : List Record)
    (after : ∀ record ∈ later, asOf < record.factTime) :
    (∀ (newest : NewestFirst) (orgId : Option Int) (snapshotType subjectId : String),
      pointInTimeSnapshot newest (ledger.appendAll later) orgId snapshotType subjectId asOf =
        pointInTimeSnapshot newest ledger orgId snapshotType subjectId asOf) ∧
    ∀ (oldest other : OldestFirst) (orgId : Option Int) (eventType : String)
      (since until_ : Int), until_ ≤ asOf →
      cohortByFirstEvent other (ledger.appendAll later) orgId eventType since until_ =
        cohortByFirstEvent oldest ledger orgId eventType since until_ :=
  ⟨fun newest => pointInTimeSnapshot_appendAll newest ledger later asOf after,
    fun oldest other => cohortByFirstEvent_appendAll oldest other ledger later asOf after⟩

def maySnapshot : RetrospectiveSnapshot where
  snapshotId := "0d7c"
  snapshotType := "journal_metric"
  schemaVersion := 1
  orgId := none
  subjectType := "journal"
  subjectId := "0028-0836"
  validAt := 1778846400000000
  recordedAt := 1778846401000000
  idempotencyKey := "0028-0836:2026-05-15"
  payload := [("nif", .number 2)]
  lineage := none

def juneSnapshot : RetrospectiveSnapshot :=
  { maySnapshot with
    snapshotId := "41ab", validAt := 1781524800000000, recordedAt := 1781524801000000,
    idempotencyKey := "0028-0836:2026-06-15", payload := [("nif", .number 3)] }

theorem as_of_may_stable :
    (pointInTimeSnapshot (OrderBy.stable _) (Ledger.appendAll ⟨[], [maySnapshot]⟩
        [.snapshot juneSnapshot]) none "journal_metric" "0028-0836" maySnapshot.validAt) =
      pointInTimeSnapshot (OrderBy.stable _) ⟨[], [maySnapshot]⟩ none "journal_metric"
        "0028-0836" maySnapshot.validAt :=
  (as_of_answers_stable ⟨[], [maySnapshot]⟩ maySnapshot.validAt [.snapshot juneSnapshot]
    (by simp [Record.factTime, maySnapshot, juneSnapshot])).1 _ _ _ _

end Ukip.Retrospective
