import Ukip.Core.Clock
import Mathlib.Data.Rat.Defs

/-!
# The retrospective ledger

The two append-only tables of `models.py`.  A payload column holds the JSON text of an
object of numbers, texts and nulls; here it holds the object.
-/

namespace Ukip.Retrospective

inductive Value where
  | null
  | number (value : Rat)
  | text (value : String)
  deriving DecidableEq

abbrev Payload := List (String × Value)

/-- `payload.get(name)` -/
def Payload.get (payload : Payload) (name : String) : Value :=
  (payload.lookup name).getD .null

structure RetrospectiveEvent where
  eventId : String
  eventType : String
  schemaVersion : Int
  orgId : Option Int
  domainObjectType : String
  domainObjectId : String
  /-- when the fact happened -/
  occurredAt : Int
  recordedAt : Int
  source : String
  actorType : String
  actorId : Option String
  correlationId : Option String
  idempotencyKey : String
  payload : Payload
  lineage : Option Payload

structure RetrospectiveSnapshot where
  snapshotId : String
  snapshotType : String
  schemaVersion : Int
  orgId : Option Int
  subjectType : String
  subjectId : String
  /-- point in time the state holds -/
  validAt : Int
  recordedAt : Int
  idempotencyKey : String
  payload : Payload
  lineage : Option Payload

structure Ledger where
  events : List RetrospectiveEvent
  snapshots : List RetrospectiveSnapshot

inductive Record where
  | event (event : RetrospectiveEvent)
  | snapshot (snapshot : RetrospectiveSnapshot)

def Record.factTime : Record → Int
  | .event row => row.occurredAt
  | .snapshot row => row.validAt

namespace Ledger

def append (ledger : Ledger) : Record → Ledger
  | .event row => { ledger with events := ledger.events ++ [row] }
  | .snapshot row => { ledger with snapshots := ledger.snapshots ++ [row] }

def appendAll (ledger : Ledger) (records : List Record) : Ledger := records.foldl append ledger

theorem appendAll_rows (ledger : Ledger) (records : List Record) :
    ∃ events snapshots, (ledger.appendAll records).events = ledger.events ++ events ∧
      (ledger.appendAll records).snapshots = ledger.snapshots ++ snapshots ∧
      (∀ event ∈ events, .event event ∈ records) ∧
      ∀ snapshot ∈ snapshots, .snapshot snapshot ∈ records := by
  induction records generalizing ledger with
  | nil => exact ⟨[], [], by simp [appendAll]⟩
  | cons record rest ih =>
    obtain ⟨events, snapshots, eventsEq, snapshotsEq, fromEvents, fromSnapshots⟩ :=
      ih (ledger.append record)
    cases record with
    | event event =>
      refine ⟨event :: events, snapshots, ?_, snapshotsEq, ?_, ?_⟩
      · exact eventsEq.trans (by simp [append])
      · intro other member
        rcases List.mem_cons.mp member with rfl | later
        · exact List.mem_cons_self
        · exact List.mem_cons_of_mem _ (fromEvents other later)
      · exact fun other member => List.mem_cons_of_mem _ (fromSnapshots other member)
    | snapshot snapshot =>
      refine ⟨events, snapshot :: snapshots, eventsEq, ?_, ?_, ?_⟩
      · exact snapshotsEq.trans (by simp [append])
      · exact fun other member => List.mem_cons_of_mem _ (fromEvents other member)
      · intro other member
        rcases List.mem_cons.mp member with rfl | later
        · exact List.mem_cons_self
        · exact List.mem_cons_of_mem _ (fromSnapshots other later)

end Ledger

end Ukip.Retrospective
