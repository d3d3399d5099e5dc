import Ukip.Foundation.CheckThenInsert
import Ukip.Retrospective.Query

/-!
# The writers of the ledger

`registry.py` and `writer.py`.  A writer validates its request, looks its idempotency key
up, and inserts in a flush of its own; it shares the session with the operational change
that it reports.  The unique constraints of the two tables have the organisation in them,
and SQL takes every NULL for a value of its own.
-/

namespace Ukip.Retrospective

open Foundation.EventRun Foundation.CheckThenInsert

def maxPayloadBytes : Nat := 32 * 1024

/-- `EVENT_FAMILIES`: the current version of every event type. -/
def eventFamilies : List (String × Int) :=
  [("journal_metric.computed", 1), ("journal_metric.recomputed", 1), ("enrichment.requested", 1),
    ("enrichment.completed", 1), ("enrichment.failed", 1), ("authority.candidate_created", 1),
    ("authority.accepted", 1), ("authority.rejected", 1), ("authority.nil_marked", 1)]

def snapshotFamilies : List (String × Int) :=
  [("journal_metric", 1), ("enrichment_coverage", 1), ("authority_readiness", 1)]

inductive WriteError where
  | unknownFamily (family : String)
  | schemaVersion (family : String) (supplied current : Int)
  /-- idempotency_key is required -/
  | noIdempotencyKey
  /-- {field} payload is required -/
  | noPayload (field : String)
  /-- {field} payload is {size} bytes; limit is {MAX_PAYLOAD_BYTES} bytes -/
  | payloadTooLarge (field : String) (size : Nat)

/-- `_resolve`, after the look-up of the family. -/
def resolveVersion (families : List (String × Int)) (family : String) (supplied : Option Int) :
    Except WriteError Int :=
  match families.lookup family with
  | none => .error (.unknownFamily family)
  | some current =>
    match supplied with
    | none => .ok current
    | some version =>
      if version ≠ current then .error (.schemaVersion family version current) else .ok version

def resolveEventVersion (eventType : String) (supplied : Option Int) : Except WriteError Int :=
  resolveVersion eventFamilies eventType supplied

def resolveSnapshotVersion (snapshotType : String) (supplied : Option Int) :
    Except WriteError Int :=
  resolveVersion snapshotFamilies snapshotType supplied

/-- The arguments of `record_event`, with what `uuid4` and the clock of the column default
give it. -/
structure EventRequest where
  eventType : String
  orgId : Option Int
  domainObjectType : String
  domainObjectId : String
  occurredAt : Int
  source : String
  idempotencyKey : String
  payload : Option Payload
  actorType : String
  actorId : Option String
  correlationId : Option String
  lineage : Option Payload
  schemaVersion : Option Int
  eventId : String
  recordedAt : Int

/-- The arguments of `record_snapshot`. -/
structure SnapshotRequest where
  snapshotType : String
  orgId : Option Int
  subjectType : String
  subjectId : String
  validAt : Int
  idempotencyKey : String
  payload : Option Payload
  lineage : Option Payload
  schemaVersion : Option Int
  snapshotId : String
  recordedAt : Int

inductive WriteRequest where
  | event (request : EventRequest)
  | snapshot (request : SnapshotRequest)

/-- What makes a record the same as another one: its table, scope, type and idempotency
key. -/
structure IdempotencyKey where
  snapshot : Bool
  orgId : Option Int
  type : String
  idempotencyKey : String
  deriving DecidableEq

def WriteRequest.key : WriteRequest → IdempotencyKey
  | .event request => ⟨false, request.orgId, request.eventType, request.idempotencyKey⟩
  | .snapshot request => ⟨true, request.orgId, request.snapshotType, request.idempotencyKey⟩

def Record.key : Record → IdempotencyKey
  | .event row => ⟨false, row.orgId, row.eventType, row.idempotencyKey⟩
  | .snapshot row => ⟨true, row.orgId, row.snapshotType, row.idempotencyKey⟩

section Writing

-- `json.dumps(payload, separators=(",", ":"), sort_keys=True, default=str)`
variable (dumps : Payload → String)

/-- `_serialize`: the payload that is stored. -/
def serialize (payload : Option Payload) (field : String) : Except WriteError Payload :=
  match payload with
  | none => .error (.noPayload field)
  | some payload =>
    let size := (dumps payload).utf8ByteSize
    if maxPayloadBytes < size then .error (.payloadTooLarge field size) else .ok payload

def WriteRequest.version (request : WriteRequest) : Except WriteError Int := do
  let version ←
    match request with
    | .event request => resolveEventVersion request.eventType request.schemaVersion
    | .snapshot request => resolveSnapshotVersion request.snapshotType request.schemaVersion
  if request.key.idempotencyKey = "" then .error .noIdempotencyKey
  return version

def WriteRequest.record (request : WriteRequest) : Except WriteError Record := do
  let version ← request.version
  match request with
  | .event request =>
    let payload ← serialize dumps request.payload "event"
    return .event {
      eventId := request.eventId
      eventType := request.eventType
      schemaVersion := version
      orgId := request.orgId
      domainObjectType := request.domainObjectType
      domainObjectId := request.domainObjectId
      occurredAt := request.occurredAt
      recordedAt := request.recordedAt
      source := request.source
      actorType := request.actorType
      actorId := request.actorId
      correlationId := request.correlationId
      idempotencyKey := request.idempotencyKey
      payload := payload
      lineage := request.lineage }
  | .snapshot request =>
    let payload ← serialize dumps request.payload "snapshot"
    return .snapshot {
      snapshotId := request.snapshotId
      snapshotType := request.snapshotType
      schemaVersion := version
      orgId := request.orgId
      subjectType := request.subjectType
      subjectId := request.subjectId
      validAt := request.validAt
      recordedAt := request.recordedAt
      idempotencyKey := request.idempotencyKey
      payload := payload
      lineage := request.lineage }

theorem key_record (request : WriteRequest) (record : Record)
    (made : (request.record dumps).toOption = some record) : record.key = request.key := by
  unfold WriteRequest.record at made
  cases validated : request.version with
  | error error =>
    rw [validated] at made
    cases made
  | ok version =>
    rw [validated] at made
    cases request with
    | event request =>
      cases encoded : serialize dumps request.payload "event" with
      | error error => simp [encoded, bind, Except.bind, Except.toOption] at made
      | ok payload =>
        simp [encoded, bind, Except.bind, pure, Except.pure, Except.toOption] at made
        subst made
        rfl
    | snapshot request =>
      cases encoded : serialize dumps request.payload "snapshot" with
      | error error => simp [encoded, bind, Except.bind, Except.toOption] at made
      | ok payload =>
        simp [encoded, bind, Except.bind, pure, Except.pure, Except.toOption] at made
        subst made
        rfl

/-- `record_event` and `record_snapshot`, under `uq_retro_event_idempotency` and
`uq_retro_snapshot_idempotency`. -/
def ledgerWriter : Writer WriteRequest Record IdempotencyKey where
  accepts := fun request => request.version.isOk
  key := WriteRequest.key
  record := fun request => (request.record dumps).toOption
  keyOf := Record.key
  keyOf_record := key_record dumps
  covered := fun key => key.orgId.isSome

/-- Whatever the writers do, and whatever else their sessions change: at most one event and
one snapshot of every key is committed in every state, and a writer that loses the race
answers the winner's record and discards nothing, exactly if no writer of an organisation
loses it with uncommitted changes in its session, and none without an organisation inserts
or commits a key that was committed since it looked. -/
theorem ledger_sound_iff_undisturbed {Change : Type} (events : List (Event WriteRequest Change)) :
    (EveryState (ledgerWriter dumps).step (ledgerWriter dumps).OnePerKey State.empty events ∧
      EveryStep (ledgerWriter dumps).step (ledgerWriter dumps).LoserUnharmed State.empty events) ↔
    EveryStep (ledgerWriter dumps).step (ledgerWriter dumps).Undisturbed State.empty events :=
  Writer.sound_iff_undisturbed events

end Writing

def compactJson (_ : Payload) : String := "\x7b\"nif\":2.0\x7d"

def computedInMay (orgId : Option Int) (eventId : String) : WriteRequest :=
  .event {
    eventType := "journal_metric.computed"
    orgId := orgId
    domainObjectType := "journal"
    domainObjectId := "issn:0028-0836"
    occurredAt := 1778846400000000
    source := "journal_normalization"
    idempotencyKey := "0028-0836:2026-05-15T12:00:00"
    payload := some [("nif", .number 2)]
    actorType := "job"
    actorId := none
    correlationId := none
    lineage := none
    schemaVersion := none
    eventId := eventId
    recordedAt := 1778846401000000 }

def racingJobs (orgId : Option Int) : List (Event WriteRequest String) :=
  [.change 1 "journal_metrics.normalized_impact_factor", .check 0 (computedInMay orgId "5f01"),
    .check 1 (computedInMay orgId "c93e"), .insert 0, .commit 0, .insert 1, .commit 1]

/-- Without an organisation both events are kept; within one the second job loses the
change that it was about to commit. -/
theorem racing_jobs_unsound :
    ¬ EveryState (ledgerWriter compactJson).step
        (ledgerWriter compactJson).OnePerKey State.empty (racingJobs none) ∧
      ¬ EveryStep (ledgerWriter compactJson).step
        (ledgerWriter compactJson).LoserUnharmed State.empty (racingJobs (some 1)) := by
  constructor
  · decide
  · rintro ⟨_, _, _, _, _, loses, _⟩
    obtain ⟨_, kept, _⟩ := loses _ rfl ⟨_, List.mem_cons_self, rfl⟩
    revert kept
    decide

end Ukip.Retrospective
