import Ukip.Foundation.FallibleLoop
import Ukip.Foundation.Rollback
import Ukip.Governance.FieldCorrespondence

/-!
# Rollback of field correspondence jobs

`rollback_field_correspondence_job` and `undo_harmonization` over the jobs that
`apply_field_correspondence_rule` has logged.  Both write the recorded old value of each
change back, whatever the field holds by then.
-/

namespace Ukip.Governance.Rollback

open Foundation.EventRun Foundation.FallibleLoop Foundation.Relational Foundation.Rollback
open Tenancy.Access FieldCorrespondence

/-- The database with the ids of the logs that are `reverted`. -/
structure JobsDb where
  governance : GovernanceDb
  reverted : List Nat

/-- `now` is the time that a request writes to `updated_at`. -/
inductive JobRequest where
  | govern (now : String) (request : GovernanceRequest)
  | rollback (now : String) (user : User) (jobId : Nat) (commits : Bool)
  | undo (user : User) (logId : Nat) (commits : Bool)

inductive JobOutcome where
  | governed (outcome : Outcome)
  | restored (logId records : Nat)

variable (platform : Platform)

/-! ## Endpoints -/

def stamp (now : String) (entity : Entity) : Entity :=
  { entity with cell := fun name => if name = "updated_at" then some now else entity.cell name }

/-- The rows that a job has written get `updated_at`. -/
def stampWritten (now : String) (before after : GovernanceDb) : GovernanceDb :=
  let new := after.changes.drop before.changes.length
  { after with
    entities := List.zipWith
      (fun old stored =>
        if new.any fun change => change.recordId == old.id then stamp now stored else stored)
      before.entities after.entities }

/-- The row after `setattr` with a recorded value and the flush. -/
def restoreAttribute (organizations : List Organization) (name : String) (old : Option String)
    (entity : Entity) : Option Entity :=
  match old with
  | some text => storeAttribute platform organizations name text entity
  | none =>
    if name = "id" then none
    else if name = "org_id" then some { entity with orgId := none }
    else if name ∈ textColumns then
      some { entity with
        cell := fun other => if other = name then none else entity.cell other }
    else some entity

/-- The changes of one row written back; the undo leaves `updated_at` as it is. -/
def restoreEntity (organizations : List Organization) (reaches : Entity → Bool)
    (now : Option String) (changes : List HarmonizationChangeRecord) (entity : Entity) :
    Option Entity :=
  if reaches entity then
    (changes.filter fun change => change.recordId == entity.id).foldlM
      (fun current change =>
        (restoreAttribute platform organizations change.field change.oldValue current).map
          fun stored => (now.map fun time => stamp time stored).getD stored) entity
  else some entity

def revertJob (db : JobsDb) (log : HarmonizationLog) (reaches : Entity → Bool)
    (now : Option String) (alreadyReverted noRecords : HttpError) (commits : Bool) :
    Except HttpError (JobOutcome × JobsDb) :=
  if log.id ∈ db.reverted then .error alreadyReverted
  else
    let changes := db.governance.changes.filter fun change => change.logId == log.id
    if changes = [] ∧ 0 < log.recordsUpdated then .error noRecords
    else
      match db.governance.entities.mapM (restoreEntity platform
          db.governance.directory.organizations reaches now changes) with
      | none => .error internalServerError
      | some entities =>
        if commits then
          .ok (.restored log.id (changes.countP fun change =>
              db.governance.entities.any fun entity =>
                entity.id == change.recordId && reaches entity),
            { governance := { db.governance with entities := entities }
              reverted := log.id :: db.reverted })
        else .error internalServerError

def jobNotFound (jobId : Nat) : HttpError where
  statusCode := 404
  detail := "Job '" ++ toString jobId ++ "' not found"

def alreadyRolledBack : HttpError where
  statusCode := 400
  detail := "This job has already been rolled back"

def noRollbackRecords : HttpError where
  statusCode := 400
  detail := "No change records found for rollback"

/-- `entity.org_id == org_id` -/
def ofOrganization (scope : Option Int) (entity : Entity) : Bool :=
  entity.orgId == scope.map OrgValue.id

def rollbackFieldCorrespondenceJob (db : JobsDb) (now : String) (user : User) (jobId : Nat)
    (commits : Bool) : Except HttpError (JobOutcome × JobsDb) :=
  if !mayGovern user.role then .error (roleRefused user.role)
  else if jobId = 0 then .error unprocessable
  else
    match requestScope db.governance.directory user with
    | .error error => .error error
    | .ok scope =>
      match db.governance.logs.find? fun log => log.id == jobId with
      | none => .error (jobNotFound jobId)
      | some log =>
        if log.orgId ≠ scope then .error (jobNotFound jobId)
        else
          revertJob platform db log (ofOrganization scope) (some now) alreadyRolledBack
            noRollbackRecords commits

/-- `require_role("super_admin", "admin", "editor")` -/
def mayHarmonize (role : Role) : Bool := role ∈ [.superAdmin, .admin, .editor]

def logNotFound : HttpError where
  statusCode := 404
  detail := "Log entry not found"

def alreadyUndone : HttpError where
  statusCode := 400
  detail := "This operation has already been reverted"

def noUndoRecords : HttpError where
  statusCode := 400
  detail := "No change records found for this log entry (pre-undo data not available)"

/-- `org_scope_filter` over `raw_entities`. -/
def entityInScope (scope : Option Int) (entity : Entity) : Bool :=
  match entity.orgId with
  | none => inScope scope none
  | some (.id value) => inScope scope (some value)
  | some (.text _) => scope.isNone

def undoHarmonization (db : JobsDb) (user : User) (logId : Nat) (commits : Bool) :
    Except HttpError (JobOutcome × JobsDb) :=
  if !mayHarmonize user.role then .error (roleRefused user.role)
  else if logId = 0 then .error unprocessable
  else
    match requestScope db.governance.directory user with
    | .error error => .error error
    | .ok scope =>
      match db.governance.logs.find? fun log => inScope scope log.orgId && log.id == logId with
      | none => .error logNotFound
      | some log =>
        revertJob platform db log (entityInScope scope) none alreadyUndone noUndoRecords commits

def respondJob (db : JobsDb) : JobRequest → Except HttpError (JobOutcome × JobsDb)
  | .govern now request =>
    match respond platform db.governance request with
    | .error error => .error error
    | .ok (outcome, next) =>
      .ok (.governed outcome, { db with governance := stampWritten now db.governance next })
  | .rollback now user jobId commits =>
    rollbackFieldCorrespondenceJob platform db now user jobId commits
  | .undo user logId commits => undoHarmonization platform db user logId commits

def stepJob (db : JobsDb) (request : JobRequest) : JobsDb :=
  match respondJob platform db request with
  | .error _ => db
  | .ok outcome => outcome.2

/-! ## What is to hold -/

/-- The columns that a job can write, without the ids and the time of the last change. -/
def isDataColumn (name : String) : Prop := name ∈ textColumns ∧ name ≠ "updated_at"

instance : DecidablePred isDataColumn := fun _ => inferInstanceAs (Decidable (_ ∧ _))

structure SameFields (first entity : Entity) : Prop where
  id : entity.id = first.id
  orgId : entity.orgId = first.orgId
  fields : ∀ name, isDataColumn name → entity.cell name = first.cell name

/-- Once every job is rolled back, the entities are what they were. -/
def Restores (start db : JobsDb) : Prop :=
  (∀ log ∈ db.governance.logs, log.id ∈ db.reverted) →
    List.Forall₂ SameFields start.governance.entities db.governance.entities

def isStandingChange (db : JobsDb) (change : HarmonizationChangeRecord) : Prop :=
  change ∈ db.governance.changes ∧ change.logId ∉ db.reverted ∧
    ∀ other ∈ db.governance.changes, other.recordId = change.recordId → other.field = change.field →
      other.logId ∉ db.reverted → other.logId ≤ change.logId

/-- No value of a job that is not rolled back is lost, but to a later such job. -/
def KeepsWrites (db : JobsDb) : Prop :=
  ∀ change, isStandingChange db change → isDataColumn change.field →
    ∃ entity ∈ db.governance.entities, entity.id = change.recordId ∧
      entity.cell change.field = some change.newValue

structure NoJobs (db : JobsDb) : Prop where
  logs : db.governance.logs = []
  changes : db.governance.changes = []
  reverted : db.reverted = []
  primaryKey : (db.governance.entities.map Entity.id).Nodup

/-- For every field of an entity that it wrote, the job is the latest that is not rolled
back. -/
def LatestWriter (db : JobsDb) (jobId : Nat) : Prop :=
  ∀ change ∈ db.governance.changes, change.logId = jobId →
    ∀ other ∈ db.governance.changes, other.recordId = change.recordId → other.field = change.field →
      other.logId ∉ db.reverted → other.logId ≤ jobId

/-- The rule applied does not write the ids, the job rolled back is the latest writer. -/
def Orderly (db : JobsDb) : JobRequest → Prop
  | .govern _ (.apply _ ruleId payload _) =>
    payload.dryRun = false → ∀ rule, db.governance.rules.get? ruleId = some rule →
      rule.canonicalTarget ∉ [some "id", some "org_id"]
  | .govern _ _ => True
  | .rollback _ _ jobId _ => LatestWriter db jobId
  | .undo _ logId _ => LatestWriter db logId

/-! ## The journal of a database -/

def toWrite (change : HarmonizationChangeRecord) : Write Nat (Int × String) (Option String) where
  job := change.logId
  cell := (change.recordId, change.field)
  before := change.oldValue
  after := some change.newValue

def valueAt (entities : List Entity) (cell : Int × String) : Option String :=
  (entities.find? fun entity => entity.id == cell.1).bind fun entity => entity.cell cell.2

def dataValue (entities : List Entity) (cell : Int × String) : Option String :=
  if isDataColumn cell.2 then valueAt entities cell else none

def dataChanges (changes : List HarmonizationChangeRecord) : List HarmonizationChangeRecord :=
  changes.filter fun change => decide (isDataColumn change.field)

def journal (db : JobsDb) : Journal Nat (Int × String) (Option String) where
  values := dataValue db.governance.entities
  writes := (dataChanges db.governance.changes).map toWrite
  undone := fun jobId => decide (jobId ∈ db.reverted)

theorem mem_writes_iff (db : JobsDb) (write : Write Nat (Int × String) (Option String)) :
    write ∈ (journal db).writes ↔
      ∃ change ∈ db.governance.changes, isDataColumn change.field ∧ toWrite change = write := by
  simp only [journal, dataChanges, List.mem_map, List.mem_filter, decide_eq_true_iff, and_assoc]

theorem mem_pending_iff (db : JobsDb) (change : HarmonizationChangeRecord)
    (cell : Int × String) :
    toWrite change ∈ (journal db).pending cell ↔
      toWrite change ∈ (journal db).writes ∧ (change.recordId, change.field) = cell ∧
        change.logId ∉ db.reverted := by
  rw [Journal.mem_pending_iff]
  simp [journal, toWrite]

variable {entities : List Entity}

theorem valueAt_of_mem (primaryKey : (entities.map Entity.id).Nodup) {entity : Entity}
    (member : entity ∈ entities) (name : String) :
    valueAt entities (entity.id, name) = entity.cell name := by
  have found : entities.find? (fun other => other.id == entity.id) = some entity := by
    induction entities with
    | nil => cases member
    | cons head rest ih =>
      obtain ⟨apart, restKey⟩ := List.nodup_cons.mp primaryKey
      rcases List.mem_cons.mp member with rfl | later
      · exact List.find?_cons_of_pos (beq_self_eq_true entity.id)
      · have other : (head.id == entity.id) = false := by
          rw [beq_eq_false_iff_ne]
          intro same
          exact apart (same ▸ List.mem_map_of_mem later)
        rw [List.find?_cons, other]
        exact ih restKey later
  unfold valueAt
  rw [found]
  rfl

variable {before after : List Entity}

theorem valueAt_congr (cell : Int × String)
    (rows : List.Forall₂ (fun old stored => stored.id = old.id ∧
      (old.id = cell.1 → stored.cell cell.2 = old.cell cell.2)) before after) :
    valueAt after cell = valueAt before cell := by
  unfold valueAt
  induction rows with
  | nil => rfl
  | @cons old stored _ _ here _ ih =>
    rw [List.find?_cons, List.find?_cons, here.1]
    cases found : old.id == cell.1 with
    | true => exact here.2 (beq_iff_eq.mp found)
    | false => exact ih

theorem ids_eq {Row : Entity → Entity → Prop}
    (keeps : ∀ old stored, Row old stored → stored.id = old.id)
    (rows : List.Forall₂ Row before after) : after.map Entity.id = before.map Entity.id := by
  induction rows with
  | nil => rfl
  | cons here _ ih => rw [List.map_cons, List.map_cons, keeps _ _ here, ih]

theorem exists_of_mem {Row : Entity → Entity → Prop} (rows : List.Forall₂ Row before after)
    {old : Entity} (member : old ∈ before) : ∃ stored ∈ after, Row old stored := by
  induction rows with
  | nil => cases member
  | cons here _ ih =>
    rcases List.mem_cons.mp member with rfl | later
    · exact ⟨_, List.mem_cons_self, here⟩
    · obtain ⟨stored, present, row⟩ := ih later
      exact ⟨stored, List.mem_cons_of_mem _ present, row⟩

/-! ## What a request does to one row -/

/-- The row after the changes of a job, each of which leaves `value` in its field. -/
structure RowWritten (value : HarmonizationChangeRecord → Option String)
    (changes : List HarmonizationChangeRecord) (old stored : Entity) : Prop where
  id : stored.id = old.id
  orgId : stored.orgId = old.orgId
  written : ∀ change ∈ changes, change.recordId = old.id → isDataColumn change.field →
    stored.cell change.field = value change
  kept : ∀ name, isDataColumn name →
    (∀ change ∈ changes, change.recordId = old.id → change.field ≠ name) →
      stored.cell name = old.cell name

variable {organizations : List Organization} {entity stored : Entity}

theorem restoreAttribute_spec {name : String} {old : Option String} (noId : name ≠ "id")
    (noOrg : name ≠ "org_id")
    (stores : restoreAttribute platform organizations name old entity = some stored) :
    stored.id = entity.id ∧ stored.orgId = entity.orgId ∧
      ∀ other ∈ textColumns, stored.cell other = if other = name then old else entity.cell other := by
  cases old with
  | some _ | none =>
    simp only [restoreAttribute, storeAttribute, if_neg noId, if_neg noOrg] at stores
    split at stores
    · cases stores
      exact ⟨rfl, rfl, fun _ _ => rfl⟩
    rename_i noColumn
    cases stores
    refine ⟨rfl, rfl, fun other column => ?_⟩
    have apart : other ≠ name := by
      rintro rfl
      exact noColumn column
    rw [if_neg apart]

theorem storeAttribute_spec {name text : String} (noId : name ≠ "id") (noOrg : name ≠ "org_id")
    (stores : storeAttribute platform organizations name text entity = some stored) :
    stored.id = entity.id ∧ stored.orgId = entity.orgId ∧
      ∀ other ∈ textColumns, stored.cell other = if other = name then some text else entity.cell other :=
  @restoreAttribute_spec platform organizations entity stored name (some text) noId noOrg stores

theorem stamp_cell (now : String) (entity : Entity) {name : String} (data : isDataColumn name) :
    (stamp now entity).cell name = entity.cell name := if_neg data.2

variable {now : Option String} {change : HarmonizationChangeRecord}

theorem restoreChange_spec (noId : change.field ≠ "id") (noOrg : change.field ≠ "org_id")
    (stores : ((restoreAttribute platform organizations change.field change.oldValue entity).map
      fun stored => (now.map fun time => stamp time stored).getD stored) = some stored) :
    stored.id = entity.id ∧ stored.orgId = entity.orgId ∧ ∀ name, isDataColumn name →
      stored.cell name = if name = change.field then change.oldValue else entity.cell name := by
  obtain ⟨middle, restored, rfl⟩ := Option.map_eq_some_iff.mp stores
  obtain ⟨sameId, sameOrg, cells⟩ := restoreAttribute_spec platform noId noOrg restored
  cases now with
  | none => exact ⟨sameId, sameOrg, fun name data => cells name data.1⟩
  | some time =>
    exact ⟨sameId, sameOrg, fun name data => (stamp_cell time middle data).trans (cells name data.1)⟩

theorem restoreChanges_spec (changes : List HarmonizationChangeRecord)
    (noIds : ∀ change ∈ changes, change.field ≠ "id" ∧ change.field ≠ "org_id")
    (stores : changes.foldlM (fun current change =>
      (restoreAttribute platform organizations change.field change.oldValue current).map
        fun stored => (now.map fun time => stamp time stored).getD stored) entity = some stored) :
    stored.id = entity.id ∧ stored.orgId = entity.orgId ∧ ∀ name, isDataColumn name →
      ((∀ change ∈ changes, change.field ≠ name) → stored.cell name = entity.cell name) ∧
        ∀ value, (∃ change ∈ changes, change.field = name) →
          (∀ change ∈ changes, change.field = name → change.oldValue = value) →
            stored.cell name = value := by
  induction changes generalizing entity with
  | nil =>
    cases stores
    refine ⟨rfl, rfl, fun name _ => ⟨fun _ => rfl, ?_⟩⟩
    rintro value ⟨change, member, _⟩
    cases member
  | cons change rest ih =>
    obtain ⟨middle, first, later⟩ := Option.bind_eq_some_iff.mp stores
    obtain ⟨noId, noOrg⟩ := noIds change List.mem_cons_self
    obtain ⟨sameId, sameOrg, cells⟩ := restoreChange_spec platform noId noOrg first
    obtain ⟨restId, restOrg, restCells⟩ :=
      ih (fun other member => noIds other (List.mem_cons_of_mem change member)) later
    refine ⟨restId.trans sameId, restOrg.trans sameOrg, fun name data => ⟨fun others => ?_, ?_⟩⟩
    · rw [(restCells name data).1 fun other member => others other (List.mem_cons_of_mem change member),
        cells name data, if_neg (others change List.mem_cons_self).symm]
    · rintro value ⟨writer, member, same⟩ all
      by_cases again : ∃ other ∈ rest, other.field = name
      · exact (restCells name data).2 value again fun other here =>
          all other (List.mem_cons_of_mem change here)
      · rw [(restCells name data).1 fun other here field => again ⟨other, here, field⟩,
          cells name data]
        rcases List.mem_cons.mp member with rfl | here
        · rw [if_pos same.symm]
          exact all writer List.mem_cons_self same
        · exact absurd ⟨writer, here, same⟩ again

variable {changes : List HarmonizationChangeRecord} {reaches : Entity → Bool}

theorem restoreEntity_spec
    (noIds : ∀ change ∈ changes, change.field ≠ "id" ∧ change.field ≠ "org_id")
    (once : ∀ first ∈ changes, ∀ second ∈ changes, first.recordId = second.recordId →
      first.field = second.field → isDataColumn first.field → first.oldValue = second.oldValue)
    (reached : (∃ change ∈ changes, change.recordId = entity.id) → reaches entity = true)
    (stores : restoreEntity platform organizations reaches now changes entity = some stored) :
    RowWritten HarmonizationChangeRecord.oldValue changes entity stored := by
  have ofRow : ∀ change, change ∈ changes.filter (fun other => other.recordId == entity.id) ↔
      change ∈ changes ∧ change.recordId = entity.id := fun change => by
    rw [List.mem_filter, beq_iff_eq]
  unfold restoreEntity at stores
  split at stores
  · obtain ⟨sameId, sameOrg, cells⟩ := restoreChanges_spec platform _
      (fun change member => noIds change ((ofRow change).mp member).1) stores
    refine ⟨sameId, sameOrg, fun change member here data => ?_, fun name data others => ?_⟩
    · refine (cells change.field data).2 change.oldValue ⟨change, (ofRow change).mpr ⟨member, here⟩, rfl⟩
        fun other present field => ?_
      obtain ⟨otherIn, otherHere⟩ := (ofRow other).mp present
      exact once other otherIn change member (otherHere.trans here.symm) field (field ▸ data)
    · exact (cells name data).1 fun change present =>
        others change ((ofRow change).mp present).1 ((ofRow change).mp present).2
  · rename_i missed
    cases stores
    exact ⟨rfl, rfl, fun change member here _ => absurd (reached ⟨change, member, here⟩) missed,
      fun _ _ _ => rfl⟩

/-! ## The invariant -/

abbrev SameRow (first entity : Entity) : Prop := entity.id = first.id ∧ entity.orgId = first.orgId

/-- The journal stands over the first values, and every change is about a row of the
organization of its log. -/
structure Sound (start db : JobsDb) : Prop where
  standing : Standing (dataValue start.governance.entities) (journal db)
  rows : List.Forall₂ SameRow start.governance.entities db.governance.entities
  primaryKey : (db.governance.entities.map Entity.id).Nodup
  numbered : ∀ log ∈ db.governance.logs, log.id < db.governance.nextLogId
  reverted : ∀ jobId ∈ db.reverted, jobId < db.governance.nextLogId
  logged : ∀ change ∈ db.governance.changes, ∃ log ∈ db.governance.logs, log.id = change.logId
  fields : ∀ change ∈ db.governance.changes, change.field ≠ "id" ∧ change.field ≠ "org_id"
  placed : ∀ change ∈ db.governance.changes, ∃ entity ∈ db.governance.entities,
    entity.id = change.recordId ∧ ∀ log ∈ db.governance.logs, log.id = change.logId →
      entity.orgId = log.orgId.map OrgValue.id

theorem sound_of_noJobs {db : JobsDb} (first : NoJobs db) : Sound db db := by
  have noWrites : (journal db).writes = [] := by
    unfold journal
    dsimp only
    rw [first.changes]
    rfl
  have noPending : ∀ cell, (journal db).pending cell = [] := fun cell => by
    unfold Journal.pending
    rw [noWrites]
    rfl
  refine ⟨⟨fun cell => ?_, ?_⟩, ?_, first.primaryKey, ?_, ?_, ?_, ?_, ?_⟩
  · rw [noPending cell]
    rfl
  · rw [noWrites]
    exact List.Pairwise.nil
  · exact List.forall₂_same.mpr fun _ _ => ⟨rfl, rfl⟩
  · intro log member
    rw [first.logs] at member
    cases member
  · intro jobId member
    rw [first.reverted] at member
    cases member
  all_goals
    intro change member
    rw [first.changes] at member
    cases member

/-! ### What it is for -/

variable {start db : JobsDb}

theorem Sound.restores (sound : Sound start db)
    (startKey : (start.governance.entities.map Entity.id).Nodup) : Restores start db := by
  intro all
  have undone : ∀ write ∈ (journal db).writes, (journal db).undone write.job = true := by
    intro write member
    obtain ⟨change, present, _, rfl⟩ := (mem_writes_iff db write).mp member
    obtain ⟨log, logIn, same⟩ := sound.logged change present
    have here : change.logId ∈ db.reverted := same ▸ all log logIn
    exact decide_eq_true here
  refine List.forall₂_iff_get.mpr ⟨sound.rows.length_eq, fun index low high => ?_⟩
  obtain ⟨sameId, sameOrg⟩ := sound.rows.get low high
  refine ⟨sameId, sameOrg, fun name data => ?_⟩
  have here := valueAt_of_mem sound.primaryKey (List.get_mem db.governance.entities ⟨index, high⟩) name
  have there := valueAt_of_mem startKey (List.get_mem start.governance.entities ⟨index, low⟩) name
  have same := sound.standing.values_eq_initial ((start.governance.entities.get ⟨index, low⟩).id, name) fun write member _ =>
    undone write member
  simp only [journal, dataValue, if_pos data] at same
  rw [← here, ← there, sameId]
  exact same

theorem Sound.keepsWrites (sound : Sound start db) : KeepsWrites db := by
  rintro change ⟨member, open', latest⟩ data
  have written : toWrite change ∈ (journal db).writes :=
    (mem_writes_iff db _).mpr ⟨change, member, data, rfl⟩
  have here : toWrite change ∈ (journal db).pending (toWrite change).cell :=
    (mem_pending_iff db change _).mpr ⟨written, rfl, open'⟩
  have stands := sound.standing.values_eq_after here fun other pending => by
    obtain ⟨present, same, otherOpen⟩ := ((journal db).mem_pending_iff _ other).mp pending
    obtain ⟨record, recordIn, _, rfl⟩ := (mem_writes_iff db other).mp present
    obtain ⟨row, field⟩ := Prod.mk.inj same
    exact latest record recordIn row field (of_decide_eq_false otherOpen)
  obtain ⟨entity, present, sameId, _⟩ := sound.placed change member
  refine ⟨entity, present, sameId, ?_⟩
  rw [← valueAt_of_mem sound.primaryKey present change.field, sameId]
  exact (if_pos data).symm.trans stands

/-! ### Rollback -/

theorem sameRows_trans {first before after : List Entity}
    (rows : List.Forall₂ SameRow first before) (next : List.Forall₂ SameRow before after) :
    List.Forall₂ SameRow first after := by
  induction rows generalizing after with
  | nil => exact next
  | cons here _ ih =>
    cases next with
    | cons later rest => exact .cons ⟨later.1.trans here.1, later.2.trans here.2⟩ (ih rest)

theorem Sound.eq_of_same (sound : Sound start db) {first second : HarmonizationChangeRecord}
    (firstIn : first ∈ db.governance.changes) (secondIn : second ∈ db.governance.changes)
    (job : first.logId = second.logId) (row : first.recordId = second.recordId)
    (field : first.field = second.field) (data : isDataColumn first.field) :
    toWrite first = toWrite second :=
  sound.standing.eq_of_same ((mem_writes_iff db _).mpr ⟨first, firstIn, data, rfl⟩)
    ((mem_writes_iff db _).mpr ⟨second, secondIn, field ▸ data, rfl⟩)
    (Prod.ext row field) job

variable {value : HarmonizationChangeRecord → Option String}

theorem values_written (beforeKey : (before.map Entity.id).Nodup)
    (rows : List.Forall₂ (RowWritten value changes) before after) :
    (∀ change ∈ changes, isDataColumn change.field →
      (∃ entity ∈ before, entity.id = change.recordId) →
        dataValue after (change.recordId, change.field) = value change) ∧
      ∀ cell, (∀ change ∈ changes, isDataColumn change.field →
          (change.recordId, change.field) ≠ cell) →
        dataValue after cell = dataValue before cell := by
  have afterKey : (after.map Entity.id).Nodup := by
    rw [ids_eq (fun _ _ row => row.id) rows]
    exact beforeKey
  refine ⟨?_, fun cell others => ?_⟩
  · rintro change member data ⟨entity, present, same⟩
    obtain ⟨stored, storedIn, row⟩ := exists_of_mem rows present
    rw [dataValue, if_pos data, ← same, ← row.id, valueAt_of_mem afterKey storedIn]
    exact row.written change member same.symm data
  · unfold dataValue
    split
    · rename_i data
      refine valueAt_congr cell (rows.imp fun old stored row => ⟨row.id, fun here => ?_⟩)
      refine row.kept cell.2 data fun change member sameRow sameField => ?_
      exact others change member (sameField ▸ data) (Prod.ext (sameRow.trans here) sameField)
    · rfl

variable {log : HarmonizationLog}

theorem Sound.restored_rows (sound : Sound start db) (logIn : log ∈ db.governance.logs)
    (reached : ∀ entity, entity.orgId = log.orgId.map OrgValue.id → reaches entity = true)
    (stores : db.governance.entities.mapM (restoreEntity platform organizations reaches now
      (db.governance.changes.filter fun change => change.logId == log.id)) = some entities) :
    List.Forall₂ (RowWritten HarmonizationChangeRecord.oldValue
      (db.governance.changes.filter fun change => change.logId == log.id))
      db.governance.entities entities := by
  have ofJob : ∀ change, change ∈ db.governance.changes.filter (fun other => other.logId == log.id) →
      change ∈ db.governance.changes ∧ change.logId = log.id := fun change member =>
    ⟨(List.mem_filter.mp member).1, beq_iff_eq.mp (List.mem_filter.mp member).2⟩
  refine (forall₂_of_mapM stores).imp fun old stored here => ?_
  refine restoreEntity_spec platform (fun change member => sound.fields change (ofJob change member).1)
    ?_ ?_ here.2
  · intro first firstIn second secondIn row field data
    obtain ⟨firstHere, firstJob⟩ := ofJob first firstIn
    obtain ⟨secondHere, secondJob⟩ := ofJob second secondIn
    exact congrArg Write.before
      (sound.eq_of_same firstHere secondHere (firstJob.trans secondJob.symm) row field data)
  · rintro ⟨change, member, same⟩
    obtain ⟨present, job⟩ := ofJob change member
    obtain ⟨entity, entityIn, sameRow, organized⟩ := sound.placed change present
    have one : entity = old :=
      List.inj_on_of_nodup_map sound.primaryKey entityIn here.1 (sameRow.trans same)
    exact reached old (one ▸ organized log logIn job.symm)

theorem latest_of_latestWriter {db : JobsDb} {jobId : Nat} (latest : LatestWriter db jobId) :
    Latest jobId (journal db) := by
  intro write member mine other pending
  obtain ⟨change, changeIn, _, rfl⟩ := (mem_writes_iff db write).mp member
  obtain ⟨present, same, open'⟩ := ((journal db).mem_pending_iff _ other).mp pending
  obtain ⟨record, recordIn, _, rfl⟩ := (mem_writes_iff db other).mp present
  obtain ⟨row, field⟩ := Prod.mk.inj same
  exact latest change changeIn mine record recordIn row field (of_decide_eq_false open')

theorem Sound.revert (sound : Sound start db) (logIn : log ∈ db.governance.logs)
    (open' : log.id ∉ db.reverted)
    (reached : ∀ entity, entity.orgId = log.orgId.map OrgValue.id → reaches entity = true)
    (stores : db.governance.entities.mapM (restoreEntity platform organizations reaches now
      (db.governance.changes.filter fun change => change.logId == log.id)) = some entities)
    (latest : LatestWriter db log.id) :
    Sound start
      { governance := { db.governance with entities := entities }
        reverted := log.id :: db.reverted } := by
  have rows := sound.restored_rows platform logIn reached stores
  have values := values_written sound.primaryKey rows
  have undone : Undone log.id (journal db) (journal
      { governance := { db.governance with entities := entities }
        reverted := log.id :: db.reverted }) := by
    refine ⟨rfl, fun other => ?_, decide_eq_false open', ?_, ?_⟩
    · simp only [journal, List.mem_cons, Bool.decide_or]
      exact Bool.or_comm _ _
    · intro write member mine
      obtain ⟨change, changeIn, data, rfl⟩ := (mem_writes_iff db write).mp member
      obtain ⟨entity, present, same, _⟩ := sound.placed change changeIn
      exact values.1 change (List.mem_filter.mpr ⟨changeIn, beq_iff_eq.mpr mine⟩) data
        ⟨entity, present, same⟩
    · intro cell others
      refine values.2 cell fun change member data => ?_
      obtain ⟨changeIn, job⟩ := List.mem_filter.mp member
      exact others (toWrite change) ((mem_writes_iff db _).mpr ⟨change, changeIn, data, rfl⟩)
        (beq_iff_eq.mp job)
  refine
    { standing := sound.standing.undone undone (latest_of_latestWriter latest)
      rows := sameRows_trans sound.rows (rows.imp fun _ _ row => ⟨row.id, row.orgId⟩)
      primaryKey := ?_
      numbered := sound.numbered
      reverted := ?_
      logged := sound.logged
      fields := sound.fields
      placed := ?_ }
  · change (entities.map Entity.id).Nodup
    rw [ids_eq (fun _ _ row => row.id) rows]
    exact sound.primaryKey
  · intro jobId member
    rcases List.mem_cons.mp member with rfl | old
    · exact sound.numbered log logIn
    · exact sound.reverted jobId old
  · intro change member
    obtain ⟨entity, present, same, organized⟩ := sound.placed change member
    obtain ⟨stored, storedIn, row⟩ := exists_of_mem rows present
    exact ⟨stored, storedIn, row.id.trans same, fun other otherIn job =>
      row.orgId.trans (organized other otherIn job)⟩

variable {outcome : JobOutcome × JobsDb} {commits : Bool}

theorem revertJob_served {db : JobsDb} {alreadyReverted noRecords : HttpError}
    (served : revertJob platform db log reaches now alreadyReverted noRecords commits = .ok outcome) :
    log.id ∉ db.reverted ∧ ∃ entities,
      db.governance.entities.mapM (restoreEntity platform db.governance.directory.organizations reaches
        now (db.governance.changes.filter fun change => change.logId == log.id)) = some entities ∧
      outcome.2 =
        { governance := { db.governance with entities := entities }
          reverted := log.id :: db.reverted } := by
  unfold revertJob at served
  split at served
  · cases served
  rename_i open'
  dsimp only at served
  split at served
  · cases served
  split at served
  · cases served
  rename_i entities stores
  split at served
  · cases served
    exact ⟨open', entities, stores, rfl⟩
  · cases served

variable {user : User}

theorem Sound.rollback (sound : Sound start db) {now : String} {jobId : Nat}
    (served : rollbackFieldCorrespondenceJob platform db now user jobId commits = .ok outcome)
    (latest : LatestWriter db jobId) : Sound start outcome.2 := by
  unfold rollbackFieldCorrespondenceJob at served
  split at served
  · cases served
  split at served
  · cases served
  split at served
  · cases served
  rename_i scope _
  split at served
  · cases served
  rename_i log found
  split at served
  · cases served
  rename_i ofScope
  have chosen := List.find?_some found
  have job : log.id = jobId := beq_iff_eq.mp chosen
  have inOrg : log.orgId = scope := not_not.mp ofScope
  obtain ⟨open', entities, stores, result⟩ := revertJob_served platform served
  rw [result]
  refine sound.revert platform (List.mem_of_find?_eq_some found) open' ?_ stores (job ▸ latest)
  intro entity organized
  rw [ofOrganization, organized, inOrg]
  exact beq_self_eq_true _

variable {scope : Option Int}

theorem entityInScope_of_log {entity : Entity} (logIn : inScope scope log.orgId = true)
    (organized : entity.orgId = log.orgId.map OrgValue.id) : entityInScope scope entity = true := by
  unfold entityInScope
  rw [organized]
  cases ofLog : log.orgId with
  | none =>
    rw [ofLog] at logIn
    exact logIn
  | some value =>
    rw [ofLog] at logIn
    exact logIn

theorem Sound.undo (sound : Sound start db) {logId : Nat}
    (served : undoHarmonization platform db user logId commits = .ok outcome)
    (latest : LatestWriter db logId) : Sound start outcome.2 := by
  unfold undoHarmonization at served
  split at served
  · cases served
  split at served
  · cases served
  split at served
  · cases served
  rename_i scope _
  split at served
  · cases served
  rename_i log found
  have chosen := List.find?_some found
  rw [Bool.and_eq_true] at chosen
  have job : log.id = logId := beq_iff_eq.mp chosen.2
  obtain ⟨open', entities, stores, result⟩ := revertJob_served platform served
  rw [result]
  exact sound.revert platform (List.mem_of_find?_eq_some found) open'
    (fun entity organized => entityInScope_of_log chosen.1 organized) stores (job ▸ latest)

/-! ### Apply -/

variable {outcomes : List (Entity × CandidateOutcome)}

theorem mem_candidateOutcomes {store : Entity → Option CandidateOutcome}
    (all : entities.mapM (fun entity => (store entity).map fun outcome => (entity, outcome)) =
      some outcomes) :
    outcomes.map Prod.fst = entities ∧ ∀ entry ∈ outcomes, store entry.1 = some entry.2 := by
  induction entities generalizing outcomes with
  | nil =>
    cases all
    exact ⟨rfl, nofun⟩
  | cons head rest ih =>
    rw [List.mapM_cons] at all
    obtain ⟨first, mapped, others⟩ := Option.bind_eq_some_iff.mp all
    obtain ⟨later, restAll, same⟩ := Option.bind_eq_some_iff.mp others
    cases same
    obtain ⟨outcome, here, rfl⟩ := Option.map_eq_some_iff.mp mapped
    obtain ⟨entitiesAre, each⟩ := ih restAll
    refine ⟨by rw [List.map_cons, entitiesAre], fun entry member => ?_⟩
    rcases List.mem_cons.mp member with rfl | restIn
    · exact here
    · exact each entry restIn

/-- The row after an apply, by what the loop has decided for it. -/
def Follows (organizations : List Organization) (target : String)
    (outcomes : List (Entity × CandidateOutcome)) (old stored : Entity) : Prop :=
  (∃ text, (old, .write text) ∈ outcomes ∧
      storeAttribute platform organizations target text old = some stored) ∨
    stored = old ∧ ∀ text, (old, .write text) ∉ outcomes

variable {target : String} {entry : Entity × CandidateOutcome}

theorem Follows.cons {old stored : Entity}
    (follows : Follows platform organizations target outcomes old stored) (other : old ≠ entry.1) :
    Follows platform organizations target (entry :: outcomes) old stored := by
  rcases follows with ⟨text, member, stores⟩ | ⟨same, unwritten⟩
  · exact .inl ⟨text, List.mem_cons_of_mem entry member, stores⟩
  · refine .inr ⟨same, fun text member => ?_⟩
    rcases List.mem_cons.mp member with rfl | later
    · exact other rfl
    · exact unwritten text later

variable {rule : FieldCorrespondenceRule}

theorem storeWrites_follows {overwrite : Bool} (limit : Nat) {entities stored : List Entity}
    (distinct : entities.Nodup)
    (stores : storeWrites platform organizations scope rule target overwrite limit entities =
      some stored)
    (all : ((entities.filter (isCandidate platform scope rule.sourceField)).take limit).mapM
      (fun entity => (candidateOutcome platform rule target overwrite entity).map
        fun outcome => (entity, outcome)) = some outcomes) :
    List.Forall₂ (Follows platform organizations target outcomes) entities stored := by
  induction entities generalizing limit stored outcomes with
  | nil =>
    cases stores
    exact .nil
  | cons head rest ih =>
    obtain ⟨apart, restDistinct⟩ := List.nodup_cons.mp distinct
    have untouched : ∀ {chosen : List Entity} {results : List (Entity × CandidateOutcome)},
        chosen.Sublist rest → results.map Prod.fst = chosen →
          ∀ text, (head, CandidateOutcome.write text) ∉ results := by
      intro chosen results sub same text member
      exact apart (sub.subset (same ▸ List.mem_map_of_mem member))
    cases limit with
    | zero =>
      cases stores
      cases all
      exact List.forall₂_same.mpr fun _ _ => .inr ⟨rfl, nofun⟩
    | succ limit =>
      unfold storeWrites at stores
      split at stores
      · rename_i candidate
        rw [List.filter_cons_of_pos candidate, List.take_succ_cons, List.mapM_cons] at all
        obtain ⟨entry, mapped, others⟩ := Option.bind_eq_some_iff.mp all
        obtain ⟨later, restAll, same⟩ := Option.bind_eq_some_iff.mp others
        cases same
        obtain ⟨outcome, decided, rfl⟩ := Option.map_eq_some_iff.mp mapped
        obtain ⟨first, firstStores, restMapped⟩ := Option.bind_eq_some_iff.mp stores
        obtain ⟨tail, restStores, rfl⟩ := Option.map_eq_some_iff.mp restMapped
        have chosen := (mem_candidateOutcomes restAll).1
        have sub : ((rest.filter (isCandidate platform scope rule.sourceField)).take limit).Sublist
            rest := (List.take_sublist _ _).trans List.filter_sublist
        have later' := (List.forall₂_and_left rest tail).mpr
          ⟨fun _ member => member, ih limit restDistinct restStores restAll⟩
        refine .cons ?_ (later'.imp fun old kept here => here.2.cons platform ?_)
        · unfold storeCandidate at firstStores
          rw [decided] at firstStores
          cases outcome with
          | write text => exact .inl ⟨text, List.mem_cons_self, firstStores⟩
          | absent | missingValue | existing =>
            cases firstStores
            refine .inr ⟨rfl, fun text member => ?_⟩
            rcases List.mem_cons.mp member with same | restIn
            · cases same
            · exact untouched sub chosen text restIn
        · rintro rfl
          exact apart here.1
      · rename_i skipped
        rw [List.filter_cons_of_neg skipped] at all
        obtain ⟨tail, restStores, rfl⟩ := Option.map_eq_some_iff.mp stores
        refine .cons (.inr ⟨rfl, ?_⟩) (ih (limit + 1) restDistinct restStores all)
        exact untouched ((List.take_sublist _ _).trans List.filter_sublist)
          (mem_candidateOutcomes all).1

def loggedChange (jobId : Nat) (target : String) (entry : Entity × CandidateOutcome) :
    Option HarmonizationChangeRecord :=
  match entry.2 with
  | .write text =>
    some
      { logId := jobId
        recordId := entry.1.id
        field := target
        oldValue := (attributeText platform entry.1 target).getD none
        newValue := text }
  | _ => none

theorem loggedChange_write (jobId : Nat) (target : String) (entity : Entity) (text : String) :
    loggedChange platform jobId target (entity, .write text) =
      some ⟨jobId, entity.id, target, (attributeText platform entity target).getD none, text⟩ := rfl

theorem loggedChange_eq_some {jobId : Nat}
    (logged : loggedChange platform jobId target entry = some change) :
    entry.2 = .write change.newValue ∧ change.logId = jobId ∧ change.recordId = entry.1.id ∧
      change.field = target ∧ change.oldValue = (attributeText platform entry.1 target).getD none := by
  obtain ⟨entity, outcome⟩ := entry
  unfold loggedChange at logged
  cases outcome with
  | write text =>
    cases logged
    exact ⟨rfl, rfl, rfl, rfl, rfl⟩
  | absent | missingValue | existing => cases logged

theorem attributeText_data {entity : Entity} {name : String} (data : isDataColumn name) :
    attributeText platform entity name = some (entity.cell name) := by
  have noId : name ≠ "id" := by
    rintro rfl
    exact absurd data.1 (by decide)
  have noOrg : name ≠ "org_id" := by
    rintro rfl
    exact absurd data.1 (by decide)
  unfold attributeText
  rw [if_neg noId, if_neg noOrg, if_pos data.1]

theorem forall₂_zipWith {Row Next : Entity → Entity → Prop} {change : Entity → Entity → Entity}
    (rows : List.Forall₂ Row before after)
    (moves : ∀ old stored, Row old stored → Next old (change old stored)) :
    List.Forall₂ Next before (List.zipWith change before after) := by
  induction rows with
  | nil => exact .nil
  | cons here _ ih => exact .cons (moves _ _ here) ih

theorem RowWritten.stamped {old stored : Entity} (now : String)
    (row : RowWritten value changes old stored) :
    RowWritten value changes old (stamp now stored) :=
  { id := row.id
    orgId := row.orgId
    written := fun change member here data =>
      (stamp_cell now stored data).trans (row.written change member here data)
    kept := fun name data others => (stamp_cell now stored data).trans (row.kept name data others) }

/-- What a served apply has done, with the outcome of each candidate. -/
structure AppliedRule (db : GovernanceDb) (user : User) (ruleId : Nat) (payload : ApplyPayload)
    (scope : Option Int) (rule : FieldCorrespondenceRule) (target : String)
    (outcomes : List (Entity × CandidateOutcome)) (next : GovernanceDb) : Prop where
  applicable : applicableRule platform db user ruleId = .ok (scope, rule, target)
  decided : candidateOutcomes platform scope rule target payload db.entities = some outcomes
  stored : storeWrites platform db.directory.organizations scope rule target
    payload.overwriteExisting payload.limit db.entities = some next.entities
  logs : ∃ log, log.id = db.nextLogId ∧ log.orgId = scope ∧ next.logs = db.logs ++ [log]
  nextLogId : next.nextLogId = db.nextLogId + 1
  changes : next.changes = db.changes ++ outcomes.filterMap (loggedChange platform db.nextLogId target)

variable {payload : ApplyPayload} {ruleId : Nat}

theorem apply_served {db : GovernanceDb} {outcome : Outcome × GovernanceDb}
    (served : applyFieldCorrespondenceRule platform db user ruleId payload commits = .ok outcome) :
    outcome.2 = db ∨ payload.dryRun = false ∧ ∃ scope rule target outcomes,
      AppliedRule platform db user ruleId payload scope rule target outcomes outcome.2 := by
  unfold applyFieldCorrespondenceRule at served
  split at served
  · cases served
  split at served
  · cases served
  rename_i scope rule target applicable
  split at served
  · cases served
  rename_i outcomes decided
  dsimp only at served
  split at served
  · cases served
    exact .inl rfl
  · rename_i wet
    split at served
    · cases served
    split at served
    · cases served
    rename_i entities stored
    split at served
    · cases served
      exact .inr ⟨Bool.not_eq_true _ ▸ wet, scope, rule, target, outcomes,
        { applicable := applicable
          decided := decided
          stored := stored
          logs := ⟨_, rfl, rfl, rfl⟩
          nextLogId := rfl
          changes := rfl }⟩
    · cases served

theorem applicableRule_found {db : GovernanceDb}
    (applicable : applicableRule platform db user ruleId = .ok (scope, rule, target)) :
    db.rules.get? ruleId = some rule ∧ rule.canonicalTarget = some target := by
  unfold applicableRule at applicable
  split at applicable
  · cases applicable
  split at applicable
  · cases applicable
  rename_i found
  split at applicable
  · cases applicable
  split at applicable
  · cases applicable
  split at applicable
  · cases applicable
  rename_i named
  split at applicable
  · cases applicable
  cases applicable
  exact ⟨found, named⟩

theorem orgId_of_isCandidate {sourceField : String} {entity : Entity}
    (candidate : isCandidate platform scope sourceField entity = true) :
    entity.orgId = scope.map OrgValue.id := by
  unfold isCandidate at candidate
  have organized := (Bool.and_eq_true _ _ ▸ candidate).2
  cases scope with
  | none => exact Option.isNone_iff_eq_none.mp organized
  | some orgId => exact beq_iff_eq.mp organized

section Applied

variable {db : GovernanceDb} {user : User} {ruleId : Nat} {payload : ApplyPayload}
  {scope : Option Int} {rule : FieldCorrespondenceRule} {target : String}
  {outcomes : List (Entity × CandidateOutcome)} {next : GovernanceDb}

section

variable (applied : AppliedRule platform db user ruleId payload scope rule target outcomes next)

include applied

theorem AppliedRule.entities_eq :
    outcomes.map Prod.fst =
      (db.entities.filter (isCandidate platform scope rule.sourceField)).take payload.limit :=
  (mem_candidateOutcomes applied.decided).1

theorem AppliedRule.entity_mem (member : entry ∈ outcomes) :
    entry.1 ∈ db.entities ∧ entry.1.orgId = scope.map OrgValue.id := by
  have chosen : entry.1 ∈ outcomes.map Prod.fst := List.mem_map_of_mem member
  rw [applied.entities_eq] at chosen
  obtain ⟨present, candidate⟩ := List.mem_filter.mp (List.take_subset _ _ chosen)
  exact ⟨present, orgId_of_isCandidate platform candidate⟩

theorem AppliedRule.mem_new
    (member : change ∈ outcomes.filterMap (loggedChange platform db.nextLogId target)) :
    change.logId = db.nextLogId ∧ change.field = target ∧
      ∃ entity ∈ db.entities, entity.id = change.recordId ∧ entity.orgId = scope.map OrgValue.id ∧
        (entity, .write change.newValue) ∈ outcomes ∧
          change.oldValue = (attributeText platform entity target).getD none := by
  obtain ⟨⟨entity, outcome⟩, entryIn, logged⟩ := List.mem_filterMap.mp member
  obtain ⟨wrote, job, row, field, old⟩ := loggedChange_eq_some platform logged
  obtain ⟨present, organized⟩ := applied.entity_mem platform entryIn
  change outcome = _ at wrote
  exact ⟨job, field, entity, present, row.symm, organized, wrote ▸ entryIn, old⟩

theorem AppliedRule.rows (primaryKey : (db.entities.map Entity.id).Nodup) (noId : target ≠ "id")
    (noOrg : target ≠ "org_id") :
    List.Forall₂ (RowWritten (fun change => some change.newValue)
      (outcomes.filterMap (loggedChange platform db.nextLogId target))) db.entities next.entities := by
  have follows := storeWrites_follows platform payload.limit (List.Nodup.of_map _ primaryKey)
    applied.stored applied.decided
  refine ((List.forall₂_and_left _ _).mpr ⟨fun _ member => member, follows⟩).imp fun old stored here => ?_
  obtain ⟨oldIn, row⟩ := here
  -- A change of the row is the one that the loop has decided for it.
  have ofRow : ∀ change ∈ outcomes.filterMap (loggedChange platform db.nextLogId target),
      change.recordId = old.id → change.field = target ∧ (old, .write change.newValue) ∈ outcomes := by
    intro change member same
    obtain ⟨_, field, entity, present, sameRow, _, decided, _⟩ := applied.mem_new platform member
    have one : entity = old :=
      List.inj_on_of_nodup_map primaryKey present oldIn (sameRow.trans same)
    exact ⟨field, one ▸ decided⟩
  rcases row with ⟨text, decided, stores⟩ | ⟨rfl, unwritten⟩
  · obtain ⟨sameId, sameOrg, cells⟩ := storeAttribute_spec platform noId noOrg stores
    refine ⟨sameId, sameOrg, fun change member same data => ?_, fun name data others => ?_⟩
    · obtain ⟨field, other⟩ := ofRow change member same
      have each := (mem_candidateOutcomes applied.decided).2
      have one : CandidateOutcome.write text = .write change.newValue :=
        Option.some.inj ((each _ decided).symm.trans (each _ other))
      rw [cells change.field data.1, if_pos field]
      exact congrArg some (CandidateOutcome.write.inj one)
    · have logged := List.mem_filterMap.mpr ⟨_, decided,
        loggedChange_write platform db.nextLogId target old text⟩
      rw [cells name data.1, if_neg (others _ logged rfl).symm]
  · exact ⟨rfl, rfl, fun change member same _ => absurd (ofRow change member same).2 (unwritten _),
      fun _ _ _ => rfl⟩

theorem AppliedRule.stamped_rows (primaryKey : (db.entities.map Entity.id).Nodup)
    (noId : target ≠ "id") (noOrg : target ≠ "org_id") (now : String) :
    List.Forall₂ (RowWritten (fun change => some change.newValue)
      (outcomes.filterMap (loggedChange platform db.nextLogId target))) db.entities
      (stampWritten now db next).entities := by
  refine forall₂_zipWith (applied.rows platform primaryKey noId noOrg) fun old stored row => ?_
  split
  · exact row.stamped now
  · exact row

end

end Applied

variable {next : GovernanceDb}

theorem Sound.applied_journal (sound : Sound start db)
    (applied : AppliedRule platform db.governance user ruleId payload scope rule target outcomes next)
    (noId : target ≠ "id") (noOrg : target ≠ "org_id") (now : String) :
    Applied db.governance.nextLogId
      ((dataChanges (outcomes.filterMap (loggedChange platform db.governance.nextLogId target))).map
        toWrite)
      (journal db) (journal { db with governance := stampWritten now db.governance next }) := by
  have rows := applied.stamped_rows platform sound.primaryKey noId noOrg now
  have values := values_written sound.primaryKey rows
  have ofNew : ∀ write ∈ (dataChanges (outcomes.filterMap
      (loggedChange platform db.governance.nextLogId target))).map toWrite,
      ∃ change ∈ outcomes.filterMap (loggedChange platform db.governance.nextLogId target),
        isDataColumn change.field ∧ toWrite change = write := by
    intro write member
    obtain ⟨change, here, rfl⟩ := List.mem_map.mp member
    obtain ⟨present, data⟩ := List.mem_filter.mp here
    exact ⟨change, present, of_decide_eq_true data, rfl⟩
  refine
    { writes := ?_
      undone := rfl
      later := ?_
      fresh := ?_
      mine := ?_
      found := ?_
      left := ?_
      once := ?_
      others := ?_ }
  · change (dataChanges next.changes).map toWrite = _
    rw [applied.changes, dataChanges, List.filter_append, List.map_append]
    rfl
  · intro write member
    obtain ⟨change, present, _, rfl⟩ := (mem_writes_iff db write).mp member
    obtain ⟨log, logIn, same⟩ := sound.logged change present
    have here : change.logId < db.governance.nextLogId := same ▸ sound.numbered log logIn
    exact here
  · exact decide_eq_false fun member => Nat.lt_irrefl _ (sound.reverted _ member)
  · intro write member
    obtain ⟨change, present, _, rfl⟩ := ofNew write member
    exact (applied.mem_new platform present).1
  · intro write member
    obtain ⟨change, present, data, rfl⟩ := ofNew write member
    obtain ⟨_, field, entity, entityIn, sameRow, _, _, old⟩ := applied.mem_new platform present
    have here := valueAt_of_mem sound.primaryKey entityIn change.field
    change change.oldValue = dataValue db.governance.entities (change.recordId, change.field)
    rw [dataValue, if_pos data, ← sameRow, here, old, ← field, attributeText_data platform data]
    rfl
  · intro write member
    obtain ⟨change, present, data, rfl⟩ := ofNew write member
    obtain ⟨_, _, entity, entityIn, sameRow, _⟩ := applied.mem_new platform present
    exact values.1 change present data ⟨entity, entityIn, sameRow⟩
  · have ids : (outcomes.map fun entry => entry.1.id).Nodup := by
      have chosen := (congrArg (List.map Entity.id) (applied.entities_eq platform))
      rw [List.map_map] at chosen
      change (outcomes.map (Entity.id ∘ Prod.fst)).Nodup
      rw [chosen]
      exact sound.primaryKey.sublist (((List.take_sublist _ _).trans List.filter_sublist).map _)
    refine List.pairwise_map.mpr (List.Pairwise.sublist List.filter_sublist ?_)
    refine List.pairwise_filterMap.mpr ((List.pairwise_map.mp ids).imp ?_)
    intro first second apart one firstLogged other secondLogged same
    have firstRow := (loggedChange_eq_some platform firstLogged).2.2.1
    have secondRow := (loggedChange_eq_some platform secondLogged).2.2.1
    exact apart (firstRow.symm.trans ((congrArg Prod.fst same).trans secondRow))
  · intro cell others
    refine values.2 cell fun change present data => ?_
    exact others (toWrite change)
      (List.mem_map_of_mem (List.mem_filter.mpr ⟨present, decide_eq_true data⟩))

theorem Sound.apply (sound : Sound start db)
    (applied : AppliedRule platform db.governance user ruleId payload scope rule target outcomes next)
    (noId : target ≠ "id") (noOrg : target ≠ "org_id") (now : String) :
    Sound start { db with governance := stampWritten now db.governance next } := by
  have rows := applied.stamped_rows platform sound.primaryKey noId noOrg now
  obtain ⟨log, logId, logOrg, logs⟩ := applied.logs
  have ofLogs : ∀ other ∈ next.logs, other ∈ db.governance.logs ∨ other = log := by
    intro other member
    rw [logs] at member
    exact (List.mem_append.mp member).imp id List.mem_singleton.mp
  have ofChanges : ∀ change ∈ next.changes, change ∈ db.governance.changes ∨ change ∈
      outcomes.filterMap (loggedChange platform db.governance.nextLogId target) := by
    intro change member
    rw [applied.changes] at member
    exact List.mem_append.mp member
  have oldLog : ∀ change ∈ db.governance.changes, change.logId < db.governance.nextLogId := by
    intro change member
    obtain ⟨other, otherIn, same⟩ := sound.logged change member
    exact same ▸ sound.numbered other otherIn
  refine
    { standing := sound.standing.applied (sound.applied_journal platform applied noId noOrg now)
      rows := sameRows_trans sound.rows (rows.imp fun _ _ row => ⟨row.id, row.orgId⟩)
      primaryKey := ?_
      numbered := ?_
      reverted := ?_
      logged := ?_
      fields := ?_
      placed := ?_ }
  · change ((stampWritten now db.governance next).entities.map Entity.id).Nodup
    rw [ids_eq (fun _ _ row => row.id) rows]
    exact sound.primaryKey
  · intro other member
    change other.id < next.nextLogId
    rw [applied.nextLogId]
    rcases ofLogs other member with old | rfl
    · exact Nat.lt_succ_of_lt (sound.numbered other old)
    · exact logId ▸ Nat.lt_succ_self _
  · intro jobId member
    change jobId < next.nextLogId
    rw [applied.nextLogId]
    exact Nat.lt_succ_of_lt (sound.reverted jobId member)
  · intro change member
    change ∃ other ∈ next.logs, other.id = change.logId
    rw [logs]
    rcases ofChanges change member with old | new
    · obtain ⟨other, otherIn, same⟩ := sound.logged change old
      exact ⟨other, List.mem_append_left _ otherIn, same⟩
    · exact ⟨log, List.mem_append_right _ (List.mem_singleton_self log),
        logId.trans (applied.mem_new platform new).1.symm⟩
  · intro change member
    rcases ofChanges change member with old | new
    · exact sound.fields change old
    · rw [(applied.mem_new platform new).2.1]
      exact ⟨noId, noOrg⟩
  · intro change member
    rcases ofChanges change member with old | new
    · obtain ⟨entity, present, same, organized⟩ := sound.placed change old
      obtain ⟨stored, storedIn, row⟩ := exists_of_mem rows present
      refine ⟨stored, storedIn, row.id.trans same, fun other otherIn job => ?_⟩
      rcases ofLogs other otherIn with oldLogIn | rfl
      · exact row.orgId.trans (organized other oldLogIn job)
      · exact absurd (job.symm.trans logId) (ne_of_lt (oldLog change old))
    · obtain ⟨job, _, entity, present, same, organized, _⟩ := applied.mem_new platform new
      obtain ⟨stored, storedIn, row⟩ := exists_of_mem rows present
      refine ⟨stored, storedIn, row.id.trans same, fun other otherIn otherJob => ?_⟩
      rcases ofLogs other otherIn with oldLogIn | rfl
      · exact absurd (otherJob.trans job) (ne_of_lt (sound.numbered other oldLogIn))
      · rw [row.orgId, organized, logOrg]

/-! ## Runs -/

theorem respond_rules {db : GovernanceDb} {request : GovernanceRequest}
    {outcome : Outcome × GovernanceDb} (served : respond platform db request = .ok outcome)
    (other : ∀ user ruleId payload commits, request ≠ .apply user ruleId payload commits) :
    ∃ rules, outcome.2 = { db with rules := rules } := by
  cases request with
  | create user payload commits =>
    change createFieldCorrespondenceRule platform db user payload commits = _ at served
    unfold createFieldCorrespondenceRule at served
    split at served
    · cases served
    split at served
    · cases served
    dsimp only at served
    split at served
    · cases served
    split at served
    · cases served
      exact ⟨_, rfl⟩
    · cases served
  | seed user commits =>
    change seedPreventiveFieldCorrespondenceRules platform db user commits = _ at served
    unfold seedPreventiveFieldCorrespondenceRules at served
    split at served
    · cases served
    split at served
    · cases served
    split at served
    · cases served
      exact ⟨_, rfl⟩
    · cases served
  | apply user ruleId payload commits => exact absurd rfl (other user ruleId payload commits)

theorem stampWritten_rules (now : String) (db : GovernanceDb) (rules : RuleTable) :
    stampWritten now db { db with rules := rules } = { db with rules := rules } := by
  unfold stampWritten
  dsimp only
  rw [List.drop_length]
  simp only [List.any_nil, Bool.false_eq_true, if_false]
  have same : List.zipWith (fun _ stored : Entity => stored) db.entities db.entities =
      db.entities := by
    induction db.entities with
    | nil => rfl
    | cons head rest ih => rw [List.zipWith_cons_cons, ih]
  rw [same]

theorem Sound.rules (sound : Sound start db) (now : String) {rules : RuleTable}
    (same : next = { db.governance with rules := rules }) :
    Sound start { db with governance := stampWritten now db.governance next } := by
  rw [same, stampWritten_rules]
  exact
    { standing := sound.standing
      rows := sound.rows
      primaryKey := sound.primaryKey
      numbered := sound.numbered
      reverted := sound.reverted
      logged := sound.logged
      fields := sound.fields
      placed := sound.placed }

theorem Sound.step (sound : Sound start db) (request : JobRequest) (orderly : Orderly db request) :
    Sound start (stepJob platform db request) := by
  unfold stepJob
  split
  · exact sound
  · rename_i outcome served
    cases request with
    | rollback now user jobId commits => exact sound.rollback platform served orderly
    | undo user logId commits => exact sound.undo platform served orderly
    | govern now inner =>
      change (match respond platform db.governance inner with
        | .error error => .error error
        | .ok (done, next) =>
            .ok (.governed done, { db with governance := stampWritten now db.governance next })) =
          Except.ok outcome at served
      split at served
      · cases served
      rename_i done next answered
      cases served
      cases inner with
      | create user payload commits =>
        obtain ⟨rules, same⟩ := respond_rules platform answered fun _ _ _ _ => by simp
        exact sound.rules now same
      | seed user commits =>
        obtain ⟨rules, same⟩ := respond_rules platform answered fun _ _ _ _ => by simp
        exact sound.rules now same
      | apply user ruleId payload commits =>
        rcases apply_served platform answered with same | ⟨wet, scope, rule, target, outcomes, applied⟩
        · exact Sound.rules sound now same
        · obtain ⟨found, named⟩ := applicableRule_found platform applied.applicable
          have apart := orderly wet rule found
          rw [named] at apart
          refine sound.apply platform applied ?_ ?_ now
          · rintro rfl
            exact apart List.mem_cons_self
          · rintro rfl
            exact apart (List.mem_cons_of_mem _ List.mem_cons_self)

/-- In every run of jobs and rollbacks where each job is rolled back as the latest writer
of its fields, all is restored once all is rolled back, and no other job loses what it
wrote. -/
theorem restores_of_orderly (start : JobsDb) (requests : List JobRequest) (first : NoJobs start)
    (orderly : EveryStep (stepJob platform) Orderly start requests) :
    EveryState (stepJob platform) (fun db => Restores start db ∧ KeepsWrites db) start requests := by
  have every : EveryState (stepJob platform) (Sound start) start requests :=
    everyState_of_guard (fun _ request sound guard => sound.step platform request guard) start
      requests (sound_of_noJobs first) orderly
  exact everyState_mono (fun _ sound => ⟨sound.restores first.primaryKey, sound.keepsWrites⟩) start
    requests every

instance decidableLatestWriter (db : JobsDb) (jobId : Nat) : Decidable (LatestWriter db jobId) :=
  inferInstanceAs (Decidable (∀ change ∈ db.governance.changes, change.logId = jobId →
    ∀ other ∈ db.governance.changes, other.recordId = change.recordId → other.field = change.field →
      other.logId ∉ db.reverted → other.logId ≤ jobId))

instance decidableOrderly (db : JobsDb) : ∀ request, Decidable (Orderly db request)
  | .govern _ (.apply _ ruleId payload _) =>
    inferInstanceAs (Decidable (payload.dryRun = false → ∀ rule ∈ db.governance.rules.get? ruleId,
      rule.canonicalTarget ∉ [some "id", some "org_id"]))
  | .govern _ (.create _ _ _) => inferInstanceAs (Decidable True)
  | .govern _ (.seed _ _) => inferInstanceAs (Decidable True)
  | .rollback _ _ jobId _ => inferInstanceAs (Decidable (LatestWriter db jobId))
  | .undo _ logId _ => inferInstanceAs (Decidable (LatestWriter db logId))

/-! ### Two jobs on one field -/

def recordText : String := "\x7b\"ID\": \"A\", \"UT\": \"B\"\x7d"

/-- A platform that reads the one record; `LIKE` with a pattern between two `%`. -/
def recordPlatform : Platform where
  python :=
    { loads := fun text =>
        if text = recordText then some (.object [("ID", .text "A"), ("UT", .text "B")]) else none
      shown := fun _ => ""
      casefold := String.toLower }
  enforcesForeignKeys := true
  readInteger := String.toInt?
  like := fun text pattern =>
    text.toList.tails.any (pattern.toList.drop 1).dropLast.isPrefixOf
  classAttribute := fun _ => none

def oneRecord : JobsDb where
  governance :=
    { directory := ⟨[], []⟩
      rules := SerialTable.empty ruleSchema
      entities :=
        [{ id := 1
           orgId := none
           cell := fun name => if name = "normalized_json" then some recordText else none }]
      logs := []
      nextLogId := 1
      changes := [] }
  reverted := []

theorem oneRecord_noJobs : NoJobs oneRecord := ⟨rfl, rfl, rfl, by decide⟩

def rootUser : User := ⟨7, .superAdmin, none⟩

/-- Two rules to `canonical_id` are created and applied. -/
def twoJobs : List JobRequest :=
  [.govern "t1" (.create rootUser ⟨none, "ID", some "canonical_id", none, none, 1, []⟩ true),
    .govern "t2" (.create rootUser ⟨none, "UT", some "canonical_id", none, none, 1, []⟩ true),
    .govern "t3" (.apply rootUser 1 ⟨false, true, 100⟩ true),
    .govern "t4" (.apply rootUser 2 ⟨false, true, 100⟩ true)]

def lastInFirstOut : List JobRequest :=
  twoJobs ++ [.rollback "t5" rootUser 2 true, .undo rootUser 1 true]

def firstInFirstOut : List JobRequest :=
  twoJobs ++ [.rollback "t5" rootUser 1 true, .rollback "t6" rootUser 2 true]

theorem restores_lastInFirstOut :
    EveryState (stepJob recordPlatform) (fun db => Restores oneRecord db ∧ KeepsWrites db) oneRecord
      lastInFirstOut :=
  restores_of_orderly recordPlatform oneRecord lastInFirstOut oneRecord_noJobs (by decide)

/-- The first job is rolled back before the second: in the end the field holds what the
first job wrote. -/
theorem firstInFirstOut_loses :
    ¬ EveryState (stepJob recordPlatform) (fun db => Restores oneRecord db ∧ KeepsWrites db) oneRecord
      firstInFirstOut := by
  intro every
  have last := ((everyState_iff_front oneRecord firstInFirstOut).mp every firstInFirstOut []
    (List.append_nil _).symm).1
  have all : ∀ log ∈ (runEvents (stepJob recordPlatform) oneRecord firstInFirstOut).governance.logs,
      log.id ∈ (runEvents (stepJob recordPlatform) oneRecord firstInFirstOut).reverted := by
    decide
  have held : (runEvents (stepJob recordPlatform) oneRecord firstInFirstOut).governance.entities.map
      (fun entity => entity.cell "canonical_id") = [some "A"] := by
    decide
  have restored := (last all).imp fun _ _ same => same.fields "canonical_id" (by decide)
  generalize (runEvents (stepJob recordPlatform) oneRecord firstInFirstOut).governance.entities =
    entities at held restored
  cases restored with
  | cons same _ =>
    obtain ⟨first, _⟩ := List.cons.inj held
    exact absurd (same.symm.trans first) (by decide)

end Ukip.Governance.Rollback
