import Ukip.Core.Clock
import Ukip.Governance.FieldCorrespondence

/-!
# Store pulls and their review queue

The pull of `routers/stores.py` compares what the store sends with the mapping, queues an
item for each change of a field that has none pending, and writes the new values to the
mapping.  An observer keeps the newest value that the store has sent for each field.
-/

namespace Ukip.Stores.Sync

open Foundation.EventRun Core.Clock Tenancy.Access
open Governance.FieldCorrespondence (mayGovern roleRefused unprocessable)

/-! ## Rows -/

inductive RemoteField where
  | name
  | price
  | stock
  | sku
  | status
  deriving DecidableEq

def remoteFields : List RemoteField := [.name, .price, .stock, .sku, .status]

/-- What an adapter returns; `rawData` is the dump of a record that is not empty. -/
structure RemoteEntity where
  remoteId : String
  canonicalUrl : String
  value : RemoteField → Option String
  rawData : Option String

structure StoreConnection where
  id : Nat
  orgId : Option Int
  isActive : Bool
  lastSyncAt : Option Time
  deriving DecidableEq

/-- `remote` is `remote_name`, `remote_price`, `remote_stock`, `remote_sku` and
`remote_status`. -/
structure StoreSyncMapping where
  id : Nat
  storeId : Nat
  remoteEntityId : String
  canonicalUrl : String
  remote : RemoteField → Option String
  remoteDataJson : Option String
  lastSyncedAt : Option Time
  createdAt : Time

inductive QueueField where
  | newEntity
  | remote (field : RemoteField)
  deriving DecidableEq

inductive QueueStatus where
  | pending
  | approved
  | rejected
  deriving DecidableEq

structure SyncQueueItem where
  id : Nat
  storeId : Nat
  mappingId : Nat
  entityName : Option String
  canonicalUrl : String
  field : QueueField
  localValue : Option String
  remoteValue : Option String
  status : QueueStatus
  createdAt : Time
  resolvedAt : Option Time

structure SyncDb where
  directory : Directory
  stores : List StoreConnection
  mappings : List StoreSyncMapping
  nextMappingId : Nat
  queue : List SyncQueueItem
  nextItemId : Nat

/-! ## Requests -/

/-- `fetched` is `none` where the adapter raises. -/
inductive SyncRequest where
  | pull (now : Time) (user : User) (storeId : Nat) (fetched : Option (List RemoteEntity))
  | approve (now : Time) (user : User) (itemId : Nat)
  | reject (now : Time) (user : User) (itemId : Nat)
  | bulkApprove (now : Time) (user : User) (storeId : Nat)
  | bulkReject (now : Time) (user : User) (storeId : Nat)

inductive SyncOutcome where
  | pulled (newMappings newQueueItems skipped totalFetched : Nat)
  | resolved (itemId : Nat) (status : QueueStatus)
  | resolvedAll (count : Nat)

def storeNotFound : HttpError where
  statusCode := 404
  detail := "Store not found"

def storeConnectionNotFound : HttpError where
  statusCode := 404
  detail := "Store connection not found"

def storeInactive : HttpError where
  statusCode := 400
  detail := "Store connection is inactive"

def fetchFailed : HttpError where
  statusCode := 502
  detail := "Failed to fetch from store"

def queueItemNotFound : HttpError where
  statusCode := 404
  detail := "Queue item not found"

def statusText : QueueStatus → String
  | .pending => "pending"
  | .approved => "approved"
  | .rejected => "rejected"

def alreadyResolved (status : QueueStatus) : HttpError where
  statusCode := 409
  detail := "Item is already " ++ statusText status

def requestStores (db : SyncDb) (user : User) (pathId : Nat) : Except HttpError (Option Int) :=
  if !mayGovern user.role then .error (roleRefused user.role)
  else if pathId = 0 then .error unprocessable
  else requestScope db.directory user

def scopedStore (db : SyncDb) (scope : Option Int) (storeId : Nat) : Option StoreConnection :=
  db.stores.find? fun store => inScope scope store.orgId && store.id == storeId

/-! ## Pull -/

/-- The session of a pull: the rows that its queries see, and the items that it has added
and not flushed, for `autoflush` is off. -/
structure Pulling where
  mappings : List StoreSyncMapping
  nextMappingId : Nat
  queue : List SyncQueueItem
  added : List SyncQueueItem
  nextItemId : Nat
  newMappings : Nat
  newQueueItems : Nat
  skipped : Nat

def Pulling.addItem (state : Pulling) (make : Nat → SyncQueueItem) : Pulling :=
  { state with
    added := state.added ++ [make state.nextItemId]
    nextItemId := state.nextItemId + 1
    newQueueItems := state.newQueueItems + 1 }

def filled (value : Option String) : Option String := value.filter fun text => text ≠ ""

def isOf (storeId : Nat) (canonicalUrl : String) (mapping : StoreSyncMapping) : Bool :=
  mapping.storeId == storeId && mapping.canonicalUrl == canonicalUrl

def changedFields (existing : StoreSyncMapping) (remote : RemoteEntity) : List RemoteField :=
  remoteFields.filter fun field =>
    decide (existing.remote field ≠ remote.value field) && (filled (remote.value field)).isSome

def alreadyPending (queue : List SyncQueueItem) (mappingId : Nat) (field : RemoteField) : Bool :=
  queue.any fun item =>
    item.mappingId == mappingId && item.field == .remote field && item.status == .pending

def newMapping (storeId : Nat) (now : Time) (remote : RemoteEntity) (id : Nat) :
    StoreSyncMapping where
  id := id
  storeId := storeId
  remoteEntityId := remote.remoteId
  canonicalUrl := remote.canonicalUrl
  remote := remote.value
  remoteDataJson := remote.rawData
  lastSyncedAt := none
  createdAt := now

def newEntityItem (storeId : Nat) (now : Time) (remote : RemoteEntity) (mappingId id : Nat) :
    SyncQueueItem where
  id := id
  storeId := storeId
  mappingId := mappingId
  entityName := remote.value .name
  canonicalUrl := remote.canonicalUrl
  field := .newEntity
  localValue := none
  remoteValue := remote.value .name
  status := .pending
  createdAt := now
  resolvedAt := none

def changeItem (storeId : Nat) (now : Time) (existing : StoreSyncMapping) (remote : RemoteEntity)
    (field : RemoteField) (id : Nat) : SyncQueueItem where
  id := id
  storeId := storeId
  mappingId := existing.id
  entityName := remote.value .name
  canonicalUrl := remote.canonicalUrl
  field := .remote field
  localValue := existing.remote field
  remoteValue := remote.value field
  status := .pending
  createdAt := now
  resolvedAt := none

def refreshed (now : Time) (remote : RemoteEntity) (existing : StoreSyncMapping) :
    StoreSyncMapping :=
  { existing with
    remote := fun field =>
      match filled (remote.value field) with
      | some text => some text
      | none => existing.remote field
    remoteDataJson := remote.rawData.or existing.remoteDataJson
    lastSyncedAt := some now }

def queueChanges (storeId : Nat) (now : Time) (existing : StoreSyncMapping)
    (remote : RemoteEntity) : List RemoteField → Pulling → Pulling
  | [], state => state
  | field :: rest, state =>
    queueChanges storeId now existing remote rest
      (if alreadyPending state.queue existing.id field then state
      else state.addItem (changeItem storeId now existing remote field))

def pullRemote (storeId : Nat) (now : Time) (state : Pulling) (remote : RemoteEntity) : Pulling :=
  if remote.canonicalUrl = "" then { state with skipped := state.skipped + 1 }
  else
    match state.mappings.find? (isOf storeId remote.canonicalUrl) with
    | none =>
      -- The flush of the mapping writes the items that were added before it.
      let flushed :=
        { state with
          mappings := state.mappings ++ [newMapping storeId now remote state.nextMappingId]
          nextMappingId := state.nextMappingId + 1
          queue := state.queue ++ state.added
          added := []
          newMappings := state.newMappings + 1 }
      flushed.addItem (newEntityItem storeId now remote state.nextMappingId)
    | some existing =>
      let queued := queueChanges storeId now existing remote (changedFields existing remote) state
      { queued with
        mappings := queued.mappings.map fun mapping =>
          if mapping.id = existing.id then refreshed now remote mapping else mapping }

def beginPull (db : SyncDb) : Pulling where
  mappings := db.mappings
  nextMappingId := db.nextMappingId
  queue := db.queue
  added := []
  nextItemId := db.nextItemId
  newMappings := 0
  newQueueItems := 0
  skipped := 0

def commitPull (db : SyncDb) (storeId : Nat) (now : Time) (state : Pulling) : SyncDb :=
  { db with
    stores := db.stores.map fun store =>
      if store.id = storeId then { store with lastSyncAt := some now } else store
    mappings := state.mappings
    nextMappingId := state.nextMappingId
    queue := state.queue ++ state.added
    nextItemId := state.nextItemId }

def pullableStore (db : SyncDb) (user : User) (storeId : Nat) : Except HttpError StoreConnection :=
  match requestStores db user storeId with
  | .error error => .error error
  | .ok scope =>
    match scopedStore db scope storeId with
    | none => .error storeNotFound
    | some store => if store.isActive then .ok store else .error storeInactive

def pullEntitiesFromStore (db : SyncDb) (now : Time) (user : User) (storeId : Nat)
    (fetched : Option (List RemoteEntity)) : Except HttpError (SyncOutcome × SyncDb) :=
  match pullableStore db user storeId with
  | .error error => .error error
  | .ok _ =>
    match fetched with
    | none => .error fetchFailed
    | some remotes =>
      let state := remotes.foldl (pullRemote storeId now) (beginPull db)
      .ok (.pulled state.newMappings state.newQueueItems state.skipped remotes.length,
        commitPull db storeId now state)

/-! ## Review -/

def resolve (now : Time) (status : QueueStatus) (item : SyncQueueItem) : SyncQueueItem :=
  { item with status := status, resolvedAt := some now }

/-- `approve_queue_item` and `reject_queue_item` -/
def resolveQueueItem (db : SyncDb) (now : Time) (user : User) (itemId : Nat)
    (status : QueueStatus) : Except HttpError (SyncOutcome × SyncDb) :=
  match requestStores db user itemId with
  | .error error => .error error
  | .ok scope =>
    match db.queue.find? fun item => item.id == itemId with
    | none => .error queueItemNotFound
    | some item =>
      match scopedStore db scope item.storeId with
      | none => .error queueItemNotFound
      | some _ =>
        if item.status ≠ .pending then .error (alreadyResolved item.status)
        else
          .ok (.resolved itemId status,
            { db with
              queue := db.queue.map fun other =>
                if other.id = itemId then resolve now status other else other })

/-- `bulk_approve_queue` and `bulk_reject_queue` -/
def resolveQueue (db : SyncDb) (now : Time) (user : User) (storeId : Nat)
    (status : QueueStatus) : Except HttpError (SyncOutcome × SyncDb) :=
  match requestStores db user storeId with
  | .error error => .error error
  | .ok scope =>
    match scopedStore db scope storeId with
    | none => .error storeConnectionNotFound
    | some _ =>
      let addressed := fun (item : SyncQueueItem) =>
        item.storeId == storeId && item.status == .pending
      .ok (.resolvedAll (db.queue.countP addressed),
        { db with
          queue := db.queue.map fun item =>
            if addressed item then resolve now status item else item })

def respond (db : SyncDb) : SyncRequest → Except HttpError (SyncOutcome × SyncDb)
  | .pull now user storeId fetched => pullEntitiesFromStore db now user storeId fetched
  | .approve now user itemId => resolveQueueItem db now user itemId .approved
  | .reject now user itemId => resolveQueueItem db now user itemId .rejected
  | .bulkApprove now user storeId => resolveQueue db now user storeId .approved
  | .bulkReject now user storeId => resolveQueue db now user storeId .rejected

/-! ## What has been seen -/

/-- For each known remote of a store, the newest truthy value of each field. -/
abbrev Seen := Nat → String → Option (RemoteField → Option String)

structure Watched where
  db : SyncDb
  seen : Seen

def observe (storeId : Nat) (seen : Seen) (remote : RemoteEntity) : Seen :=
  if remote.canonicalUrl = "" then seen
  else fun store url =>
    if store = storeId ∧ url = remote.canonicalUrl then
      some fun field => (filled (remote.value field)).or ((seen store url).bind fun newest => newest field)
    else seen store url

def observedBy (seen : Seen) : SyncRequest → Seen
  | .pull _ _ storeId (some remotes) => remotes.foldl (observe storeId) seen
  | _ => seen

def step (watched : Watched) (request : SyncRequest) : Watched :=
  match respond watched.db request with
  | .error _ => watched
  | .ok outcome => { db := outcome.2, seen := observedBy watched.seen request }

def newsOf (storeId : Nat) (seen : Seen) (remote : RemoteEntity) : List (RemoteField × String) :=
  if remote.canonicalUrl = "" then []
  else
    match seen storeId remote.canonicalUrl with
    | none => []
    | some newest => remoteFields.filterMap fun field =>
      (filled (remote.value field)).bind fun text =>
        if newest field = some text then none else some (field, text)

def pullNews (storeId : Nat) : Seen → List RemoteEntity → List (String × RemoteField × String)
  | _, [] => []
  | seen, remote :: rest =>
    (newsOf storeId seen remote).map (fun news => (remote.canonicalUrl, news)) ++
      pullNews storeId (observe storeId seen remote) rest

/-! ## What is to hold -/

/-- The pending items of a mapping's field carry the newest value seen for it. -/
def CarriesNewest (mappings : List StoreSyncMapping) (items : List SyncQueueItem)
    (seen : Seen) : Prop :=
  ∀ item ∈ items, item.status = .pending → ∀ field, item.field = .remote field →
    ∀ mapping ∈ mappings, mapping.id = item.mappingId →
      ∃ newest, seen mapping.storeId mapping.canonicalUrl = some newest ∧
        item.remoteValue = newest field

/-- The new value waits for its review. -/
def IsQueued (mappings : List StoreSyncMapping) (items : List SyncQueueItem) (storeId : Nat)
    (news : String × RemoteField × String) : Prop :=
  ∃ item ∈ items, item.status = .pending ∧ item.field = .remote news.2.1 ∧
    item.remoteValue = some news.2.2 ∧ ∃ mapping ∈ mappings, mapping.id = item.mappingId ∧
      mapping.storeId = storeId ∧ mapping.canonicalUrl = news.1

/-- After a pull, the pending items carry the newest values, and everything new that it has
observed waits for its review. -/
def Reviewed (watched : Watched) (request : SyncRequest) : Prop :=
  match request with
  | .pull _ user storeId (some remotes) =>
    ∀ store, pullableStore watched.db user storeId = .ok store →
      CarriesNewest (step watched request).db.mappings (step watched request).db.queue
          (step watched request).seen ∧
        ∀ news ∈ pullNews storeId watched.seen remotes,
          IsQueued (step watched request).db.mappings (step watched request).db.queue storeId news
  | _ => True

/-- A pull observes at most one new value for a field, and none while an item for the field
is pending. -/
def Unhurried (watched : Watched) (request : SyncRequest) : Prop :=
  match request with
  | .pull _ user storeId (some remotes) =>
    ∀ store, pullableStore watched.db user storeId = .ok store →
      ((pullNews storeId watched.seen remotes).map fun news => (news.1, news.2.1)).Nodup ∧
        ∀ news ∈ pullNews storeId watched.seen remotes, ∀ mapping ∈ watched.db.mappings,
          mapping.storeId = storeId → mapping.canonicalUrl = news.1 →
            alreadyPending watched.db.queue mapping.id news.2.1 = false
  | _ => True

/-! ## The invariant -/

/-- The mappings hold what has been seen, one for each remote. -/
structure Tracked (mappings : List StoreSyncMapping) (nextMappingId : Nat)
    (items : List SyncQueueItem) (seen : Seen) : Prop where
  ids : ∀ first ∈ mappings, ∀ second ∈ mappings, first.id = second.id → first = second
  urls : ∀ first ∈ mappings, ∀ second ∈ mappings, first.storeId = second.storeId →
    first.canonicalUrl = second.canonicalUrl → first = second
  numbered : ∀ mapping ∈ mappings, mapping.id < nextMappingId
  known : ∀ item ∈ items, item.mappingId < nextMappingId
  seen : ∀ storeId url, seen storeId url =
    (mappings.find? (isOf storeId url)).map fun mapping field => filled (mapping.remote field)

structure InStep (watched : Watched) : Prop where
  tracked : Tracked watched.db.mappings watched.db.nextMappingId watched.db.queue watched.seen
  carries : CarriesNewest watched.db.mappings watched.db.queue watched.seen

theorem isOf_iff (storeId : Nat) (url : String) (mapping : StoreSyncMapping) :
    isOf storeId url mapping = true ↔ mapping.storeId = storeId ∧ mapping.canonicalUrl = url := by
  rw [isOf, Bool.and_eq_true, beq_iff_eq, beq_iff_eq]

theorem filled_eq_some_iff (value : Option String) (text : String) :
    filled value = some text ↔ value = some text ∧ text ≠ "" := by
  unfold filled
  rw [Option.filter_eq_some_iff, decide_eq_true_iff]

variable {seen : Seen} {mappings : List StoreSyncMapping} {mapping : StoreSyncMapping}
  {nextMappingId : Nat}

theorem Tracked.find_eq {items : List SyncQueueItem}
    (tracked : Tracked mappings nextMappingId items seen) (member : mapping ∈ mappings) :
    mappings.find? (isOf mapping.storeId mapping.canonicalUrl) = some mapping := by
  cases found : mappings.find? (isOf mapping.storeId mapping.canonicalUrl) with
  | none =>
    have missed := List.find?_eq_none.mp found mapping member
    exact absurd ((isOf_iff _ _ mapping).mpr ⟨rfl, rfl⟩) missed
  | some other =>
    obtain ⟨store, url⟩ := (isOf_iff _ _ other).mp (List.find?_some found)
    rw [tracked.urls other (List.mem_of_find?_eq_some found) mapping member store url]

theorem Tracked.seen_of_mem {items : List SyncQueueItem}
    (tracked : Tracked mappings nextMappingId items seen) (member : mapping ∈ mappings) :
    seen mapping.storeId mapping.canonicalUrl = some fun field => filled (mapping.remote field) := by
  rw [tracked.seen, tracked.find_eq member]
  rfl

theorem filled_refreshed (now : Time) (remote : RemoteEntity) (existing : StoreSyncMapping)
    (field : RemoteField) :
    filled ((refreshed now remote existing).remote field) =
      (filled (remote.value field)).or (filled (existing.remote field)) := by
  unfold refreshed
  dsimp only
  cases value : filled (remote.value field) with
  | none => rfl
  | some text => exact (filled_eq_some_iff _ text).mpr ⟨rfl, ((filled_eq_some_iff _ _).mp value).2⟩

theorem Tracked.refresh {items more : List SyncQueueItem}
    (tracked : Tracked mappings nextMappingId items seen) {storeId : Nat} (now : Time)
    {remote : RemoteEntity} (named : remote.canonicalUrl ≠ "") {existing : StoreSyncMapping}
    (found : mappings.find? (isOf storeId remote.canonicalUrl) = some existing)
    (itemsKnown : ∀ item ∈ more, item ∈ items ∨ item.mappingId = existing.id) :
    Tracked
      (mappings.map fun mapping =>
        if mapping.id = existing.id then refreshed now remote mapping else mapping)
      nextMappingId more (observe storeId seen remote) := by
  have present := List.mem_of_find?_eq_some found
  obtain ⟨ofStore, ofUrl⟩ := (isOf_iff _ _ existing).mp (List.find?_some found)
  let move : StoreSyncMapping → StoreSyncMapping := fun mapping =>
    if mapping.id = existing.id then refreshed now remote mapping else mapping
  have moveId : ∀ mapping, (move mapping).id = mapping.id := fun mapping => by
    simp only [move]
    split <;> rfl
  have moveStore : ∀ mapping, (move mapping).storeId = mapping.storeId := fun mapping => by
    simp only [move]
    split <;> rfl
  have moveUrl : ∀ mapping, (move mapping).canonicalUrl = mapping.canonicalUrl := fun mapping => by
    simp only [move]
    split <;> rfl
  refine ⟨?_, ?_, ?_, ?_, fun store url => ?_⟩
  · intro first firstIn second secondIn same
    obtain ⟨firstOld, firstPresent, rfl⟩ := List.mem_map.mp firstIn
    obtain ⟨secondOld, secondPresent, rfl⟩ := List.mem_map.mp secondIn
    have one := tracked.ids firstOld firstPresent secondOld secondPresent
      ((moveId firstOld).symm.trans (same.trans (moveId secondOld)))
    rw [one]
  · intro first firstIn second secondIn sameStore sameUrl
    obtain ⟨firstOld, firstPresent, rfl⟩ := List.mem_map.mp firstIn
    obtain ⟨secondOld, secondPresent, rfl⟩ := List.mem_map.mp secondIn
    have one := tracked.urls firstOld firstPresent secondOld secondPresent
      ((moveStore firstOld).symm.trans (sameStore.trans (moveStore secondOld)))
      ((moveUrl firstOld).symm.trans (sameUrl.trans (moveUrl secondOld)))
    rw [one]
  · intro mapping member
    obtain ⟨old, oldPresent, rfl⟩ := List.mem_map.mp member
    exact (moveId old).symm ▸ tracked.numbered old oldPresent
  · intro item member
    rcases itemsKnown item member with old | new
    · exact tracked.known item old
    · exact new ▸ tracked.numbered existing present
  · have sameFind : (mappings.map move).find? (isOf store url) =
        (mappings.find? (isOf store url)).map move := by
      rw [List.find?_map]
      congr 2
      funext mapping
      simp only [Function.comp_apply, isOf, moveStore, moveUrl]
    change observe storeId seen remote store url =
      ((mappings.map move).find? (isOf store url)).map _
    rw [sameFind, observe, if_neg named]
    by_cases here : store = storeId ∧ url = remote.canonicalUrl
    · obtain ⟨rfl, rfl⟩ := here
      rw [if_pos ⟨rfl, rfl⟩, tracked.seen, found]
      simp only [Option.map_some, Option.bind_some, move, if_true]
      congr 1
      funext field
      exact (filled_refreshed now remote existing field).symm
    · rw [if_neg here, tracked.seen]
      cases elsewhere : mappings.find? (isOf store url) with
      | none => rfl
      | some other =>
        have otherPresent := List.mem_of_find?_eq_some elsewhere
        obtain ⟨otherStore, otherUrl⟩ := (isOf_iff _ _ other).mp (List.find?_some elsewhere)
        have apart : other.id ≠ existing.id := by
          intro same
          have one := tracked.ids other otherPresent existing present same
          exact here ⟨otherStore.symm.trans (one ▸ ofStore), otherUrl.symm.trans (one ▸ ofUrl)⟩
        simp only [Option.map_some, move, if_neg apart]

theorem Tracked.create {items more : List SyncQueueItem}
    (tracked : Tracked mappings nextMappingId items seen) {storeId : Nat} (now : Time)
    {remote : RemoteEntity} (named : remote.canonicalUrl ≠ "")
    (missing : mappings.find? (isOf storeId remote.canonicalUrl) = none)
    (itemsKnown : ∀ item ∈ more, item ∈ items ∨ item.mappingId = nextMappingId) :
    Tracked (mappings ++ [newMapping storeId now remote nextMappingId]) (nextMappingId + 1) more
      (observe storeId seen remote) := by
  have fresh : ∀ mapping ∈ mappings,
      ¬ (mapping.storeId = storeId ∧ mapping.canonicalUrl = remote.canonicalUrl) :=
    fun mapping member same =>
      List.find?_eq_none.mp missing mapping member ((isOf_iff _ _ mapping).mpr same)
  have cases' : ∀ mapping ∈ mappings ++ [newMapping storeId now remote nextMappingId],
      mapping ∈ mappings ∨ mapping = newMapping storeId now remote nextMappingId := fun mapping member =>
    (List.mem_append.mp member).imp id List.mem_singleton.mp
  refine ⟨?_, ?_, ?_, ?_, fun store url => ?_⟩
  · intro first firstIn second secondIn same
    rcases cases' first firstIn with firstOld | rfl <;> rcases cases' second secondIn with secondOld | rfl
    · exact tracked.ids first firstOld second secondOld same
    · exact absurd same (ne_of_lt (tracked.numbered first firstOld))
    · exact absurd same.symm (ne_of_lt (tracked.numbered second secondOld))
    · rfl
  · intro first firstIn second secondIn sameStore sameUrl
    rcases cases' first firstIn with firstOld | rfl <;> rcases cases' second secondIn with secondOld | rfl
    · exact tracked.urls first firstOld second secondOld sameStore sameUrl
    · exact absurd ⟨sameStore, sameUrl⟩ (fresh first firstOld)
    · exact absurd ⟨sameStore.symm, sameUrl.symm⟩ (fresh second secondOld)
    · rfl
  · intro mapping member
    rcases cases' mapping member with old | rfl
    · exact Nat.lt_succ_of_lt (tracked.numbered mapping old)
    · exact Nat.lt_succ_self nextMappingId
  · intro item member
    rcases itemsKnown item member with old | new
    · exact Nat.lt_succ_of_lt (tracked.known item old)
    · exact new ▸ Nat.lt_succ_self nextMappingId
  · rw [observe, if_neg named, List.find?_append]
    by_cases here : store = storeId ∧ url = remote.canonicalUrl
    · obtain ⟨rfl, rfl⟩ := here
      have itself : isOf store remote.canonicalUrl (newMapping store now remote nextMappingId) = true :=
        (isOf_iff _ _ _).mpr ⟨rfl, rfl⟩
      rw [if_pos ⟨rfl, rfl⟩, tracked.seen, missing, List.find?_cons, itself]
      simp only [Option.map_none, Option.bind_none, Option.or_none, Option.none_or, Option.map_some]
      rfl
    · have other : isOf store url (newMapping storeId now remote nextMappingId) = false := by
        rw [Bool.eq_false_iff]
        intro same
        obtain ⟨ofStore, ofUrl⟩ := (isOf_iff _ _ _).mp same
        exact here ⟨ofStore.symm, ofUrl.symm⟩
      rw [if_neg here, tracked.seen, List.find?_cons, other, List.find?_nil, Option.or_none]

/-! ## One remote -/

def Pulling.items (state : Pulling) : List SyncQueueItem := state.queue ++ state.added

/-- What `queueChanges` adds. -/
structure ChangesQueued (existing : StoreSyncMapping) (remote : RemoteEntity)
    (fields : List RemoteField) (state queued : Pulling) (new : List SyncQueueItem) : Prop where
  mappings : queued.mappings = state.mappings
  nextMappingId : queued.nextMappingId = state.nextMappingId
  queue : queued.queue = state.queue
  added : queued.added = state.added ++ new
  sound : ∀ item ∈ new, item.status = .pending ∧ item.mappingId = existing.id ∧
    ∃ field ∈ fields, item.field = .remote field ∧ item.remoteValue = remote.value field
  complete : ∀ field ∈ fields, alreadyPending state.queue existing.id field = false →
    ∃ item ∈ new, item.field = .remote field ∧ item.remoteValue = remote.value field

theorem queueChanges_spec (storeId : Nat) (now : Time) (existing : StoreSyncMapping)
    (remote : RemoteEntity) (fields : List RemoteField) (state : Pulling) :
    ∃ new, ChangesQueued existing remote fields state
      (queueChanges storeId now existing remote fields state) new := by
  induction fields generalizing state with
  | nil =>
    refine ⟨[], rfl, rfl, rfl, (List.append_nil _).symm, ?_, ?_⟩
    · intro item member
      cases member
    · intro field member
      cases member
  | cons field rest ih =>
    unfold queueChanges
    cases waits : alreadyPending state.queue existing.id field with
    | true =>
      obtain ⟨new, queued⟩ := ih state
      refine ⟨new, queued.mappings, queued.nextMappingId, queued.queue, queued.added,
        fun item member => ?_, fun other member free => ?_⟩
      · obtain ⟨pending, ofMapping, changed, changedIn, same⟩ := queued.sound item member
        exact ⟨pending, ofMapping, changed, List.mem_cons_of_mem field changedIn, same⟩
      · rcases List.mem_cons.mp member with rfl | later
        · rw [waits] at free
          cases free
        · exact queued.complete other later free
    | false =>
      let item := changeItem storeId now existing remote field state.nextItemId
      obtain ⟨new, queued⟩ := ih (state.addItem (changeItem storeId now existing remote field))
      refine ⟨item :: new, queued.mappings, queued.nextMappingId, queued.queue, ?_,
        fun other member => ?_, fun other member free => ?_⟩
      · refine queued.added.trans ?_
        change (state.added ++ [item]) ++ new = _
        rw [List.append_assoc, List.singleton_append]
      · rcases List.mem_cons.mp member with rfl | later
        · exact ⟨rfl, rfl, field, List.mem_cons_self, rfl, rfl⟩
        · obtain ⟨pending, ofMapping, changed, changedIn, same⟩ := queued.sound other later
          exact ⟨pending, ofMapping, changed, List.mem_cons_of_mem field changedIn, same⟩
      · rcases List.mem_cons.mp member with rfl | later
        · exact ⟨item, List.mem_cons_self, rfl, rfl⟩
        · obtain ⟨found, foundIn, same⟩ := queued.complete other later free
          exact ⟨found, List.mem_cons_of_mem item foundIn, same⟩

inductive RemotePulled (storeId : Nat) (now : Time) (remote : RemoteEntity)
    (state after : Pulling) : Prop where
  | skipped (unnamed : remote.canonicalUrl = "") (mappings : after.mappings = state.mappings)
      (nextMappingId : after.nextMappingId = state.nextMappingId) (items : after.items = state.items)
  | created (named : remote.canonicalUrl ≠ "")
      (missing : state.mappings.find? (isOf storeId remote.canonicalUrl) = none)
      (mappings : after.mappings =
        state.mappings ++ [newMapping storeId now remote state.nextMappingId])
      (nextMappingId : after.nextMappingId = state.nextMappingId + 1)
      (items : ∃ id, after.items =
        state.items ++ [newEntityItem storeId now remote state.nextMappingId id])
  | compared (named : remote.canonicalUrl ≠ "") (existing : StoreSyncMapping)
      (new : List SyncQueueItem) (queued : Pulling)
      (found : state.mappings.find? (isOf storeId remote.canonicalUrl) = some existing)
      (changes : ChangesQueued existing remote (changedFields existing remote) state queued new)
      (mappings : after.mappings = state.mappings.map fun mapping =>
        if mapping.id = existing.id then refreshed now remote mapping else mapping)
      (nextMappingId : after.nextMappingId = state.nextMappingId)
      (items : after.items = state.items ++ new)

theorem pullRemote_spec (storeId : Nat) (now : Time) (remote : RemoteEntity) (state : Pulling) :
    RemotePulled storeId now remote state (pullRemote storeId now state remote) := by
  unfold pullRemote
  split
  · rename_i unnamed
    exact .skipped unnamed rfl rfl rfl
  · rename_i named
    split
    · rename_i missing
      refine .created named missing rfl rfl ⟨state.nextItemId, ?_⟩
      change (state.queue ++ state.added) ++ ([] ++ _) = _
      rw [List.nil_append]
      rfl
    · rename_i existing found
      obtain ⟨new, changes⟩ := queueChanges_spec storeId now existing remote
        (changedFields existing remote) state
      refine .compared named existing new _ found changes ?_ changes.nextMappingId ?_
      · dsimp only
        rw [changes.mappings]
      · change _ ++ _ = (state.queue ++ state.added) ++ new
        rw [List.append_assoc]
        dsimp only
        rw [changes.queue, changes.added]

variable {storeId : Nat} {now : Time} {remote : RemoteEntity} {state after : Pulling} {seen : Seen}

theorem RemotePulled.items_kept (pulled : RemotePulled storeId now remote state after)
    {item : SyncQueueItem} (member : item ∈ state.items) : item ∈ after.items := by
  cases pulled with
  | skipped _ _ _ items => exact items ▸ member
  | created _ _ _ _ items =>
    obtain ⟨id, items⟩ := items
    exact items ▸ List.mem_append_left _ member
  | compared _ _ _ _ _ _ _ _ items => exact items ▸ List.mem_append_left _ member

theorem RemotePulled.mapping_kept (pulled : RemotePulled storeId now remote state after)
    (member : mapping ∈ state.mappings) :
    ∃ kept ∈ after.mappings, kept.id = mapping.id ∧ kept.storeId = mapping.storeId ∧
      kept.canonicalUrl = mapping.canonicalUrl := by
  cases pulled with
  | skipped _ mappings => exact ⟨mapping, mappings ▸ member, rfl, rfl, rfl⟩
  | created _ _ mappings => exact ⟨mapping, mappings ▸ List.mem_append_left _ member, rfl, rfl, rfl⟩
  | compared _ existing _ _ _ _ mappings =>
    refine ⟨_, mappings ▸ List.mem_map_of_mem member, ?_, ?_, ?_⟩ <;> (split <;> rfl)

variable {news : String × RemoteField × String}

theorem RemotePulled.isQueued_kept (pulled : RemotePulled storeId now remote state after)
    (queued : IsQueued state.mappings state.items storeId news) :
    IsQueued after.mappings after.items storeId news := by
  obtain ⟨item, member, pending, field, value, mapping, present, ofItem, ofStore, ofUrl⟩ := queued
  obtain ⟨kept, keptIn, sameId, sameStore, sameUrl⟩ := pulled.mapping_kept present
  exact ⟨item, pulled.items_kept member, pending, field, value, kept, keptIn, sameId.trans ofItem,
    sameStore.trans ofStore, sameUrl.trans ofUrl⟩

theorem RemotePulled.tracked (pulled : RemotePulled storeId now remote state after)
    (before : Tracked state.mappings state.nextMappingId state.items seen) :
    Tracked after.mappings after.nextMappingId after.items (observe storeId seen remote) := by
  cases pulled with
  | skipped unnamed mappings nextMappingId items =>
    rw [mappings, nextMappingId, items, observe, if_pos unnamed]
    exact before
  | created named missing mappings nextMappingId items =>
    obtain ⟨id, items⟩ := items
    rw [mappings, nextMappingId, items]
    refine before.create now named missing fun item member => ?_
    rcases List.mem_append.mp member with old | new
    · exact .inl old
    · rw [List.mem_singleton.mp new]
      exact .inr rfl
  | compared named existing new queued found changes mappings nextMappingId items =>
    rw [mappings, nextMappingId, items]
    refine before.refresh now named found fun item member => ?_
    exact (List.mem_append.mp member).imp id fun here => (changes.sound item here).2.1

/-! ## News -/

theorem mem_remoteFields (field : RemoteField) : field ∈ remoteFields := by
  cases field <;> decide

theorem mem_changedFields_iff (existing : StoreSyncMapping) (remote : RemoteEntity)
    (field : RemoteField) :
    field ∈ changedFields existing remote ↔
      ∃ text, filled (remote.value field) = some text ∧ filled (existing.remote field) ≠ some text := by
  unfold changedFields
  rw [List.mem_filter, Bool.and_eq_true, decide_eq_true_iff, Option.isSome_iff_exists]
  constructor
  · rintro ⟨_, changed, text, value⟩
    refine ⟨text, value, fun same => changed ?_⟩
    rw [((filled_eq_some_iff _ text).mp same).1, ((filled_eq_some_iff _ text).mp value).1]
  · rintro ⟨text, value, other⟩
    refine ⟨mem_remoteFields field, fun same => other ?_, text, value⟩
    rw [same]
    exact value

theorem newsOf_unseen (unseen : seen storeId remote.canonicalUrl = none) :
    newsOf storeId seen remote = [] := by
  unfold newsOf
  rw [unseen]
  split <;> rfl

theorem mem_newsOf_iff (named : remote.canonicalUrl ≠ "") {newest : RemoteField → Option String}
    (known : seen storeId remote.canonicalUrl = some newest) (field : RemoteField) (text : String) :
    (field, text) ∈ newsOf storeId seen remote ↔
      filled (remote.value field) = some text ∧ newest field ≠ some text := by
  unfold newsOf
  rw [if_neg named, known]
  dsimp only
  rw [List.mem_filterMap]
  constructor
  · rintro ⟨other, _, here⟩
    obtain ⟨value, filledIs, news⟩ := Option.bind_eq_some_iff.mp here
    split at news
    · cases news
    rename_i new
    cases news
    exact ⟨filledIs, new⟩
  · rintro ⟨value, new⟩
    refine ⟨field, mem_remoteFields field, ?_⟩
    rw [value, Option.bind_some, if_neg new]

/-- A pull may go on: what it will observe is new for fields that have no pending item, one
value for each. -/
def Clear (storeId : Nat) (mappings : List StoreSyncMapping) (items : List SyncQueueItem)
    (seen : Seen) (remotes : List RemoteEntity) : Prop :=
  ((pullNews storeId seen remotes).map fun news => (news.1, news.2.1)).Nodup ∧
    ∀ news ∈ pullNews storeId seen remotes, ∀ mapping ∈ mappings, mapping.storeId = storeId →
      mapping.canonicalUrl = news.1 → alreadyPending items mapping.id news.2.1 = false

theorem alreadyPending_eq_false_iff (items : List SyncQueueItem) (mappingId : Nat)
    (field : RemoteField) :
    alreadyPending items mappingId field = false ↔
      ∀ item ∈ items, item.mappingId = mappingId → item.field = .remote field →
        item.status ≠ .pending := by
  unfold alreadyPending
  rw [List.any_eq_false]
  simp only [Bool.and_eq_true, beq_iff_eq, ne_eq]
  constructor
  · intro none item member ofMapping ofField pending
    exact none item member ⟨⟨ofMapping, ofField⟩, pending⟩
  · rintro none item member ⟨⟨ofMapping, ofField⟩, pending⟩
    exact none item member ofMapping ofField pending

variable {rest : List RemoteEntity}

theorem RemotePulled.carriesNewest (pulled : RemotePulled storeId now remote state after)
    (before : Tracked state.mappings state.nextMappingId state.items seen)
    (carries : CarriesNewest state.mappings state.items seen)
    (clear : Clear storeId state.mappings state.items seen (remote :: rest)) :
    CarriesNewest after.mappings after.items (observe storeId seen remote) := by
  cases pulled with
  | skipped unnamed mappings nextMappingId items =>
    rw [mappings, items, observe, if_pos unnamed]
    exact carries
  | created named missing mappings nextMappingId items =>
    obtain ⟨id, items⟩ := items
    rw [mappings, items]
    intro item member pending field ofField mapping present ofItem
    rcases List.mem_append.mp member with old | new
    · rcases List.mem_append.mp present with oldMapping | newMapping
      · obtain ⟨newest, known, value⟩ := carries item old pending field ofField mapping oldMapping ofItem
        refine ⟨newest, ?_, value⟩
        rw [observe, if_neg named, if_neg, known]
        exact fun same => List.find?_eq_none.mp missing mapping oldMapping ((isOf_iff _ _ _).mpr same)
      · rw [List.mem_singleton.mp newMapping] at ofItem
        exact absurd ofItem.symm (ne_of_lt (before.known item old))
    · rw [List.mem_singleton.mp new] at ofField
      cases ofField
  | compared named existing new queued found changes mappings nextMappingId items =>
    have existingIn := List.mem_of_find?_eq_some found
    obtain ⟨ofStore, ofUrl⟩ := (isOf_iff _ _ existing).mp (List.find?_some found)
    have known := before.seen_of_mem existingIn
    rw [ofStore, ofUrl] at known
    have observed : observe storeId seen remote storeId remote.canonicalUrl =
        some fun field => (filled (remote.value field)).or (filled (existing.remote field)) := by
      rw [observe, if_neg named, if_pos ⟨rfl, rfl⟩, known]
      rfl
    rw [mappings, items]
    intro item member pending field ofField mapping present ofItem
    obtain ⟨old, oldIn, rfl⟩ := List.mem_map.mp present
    by_cases here : old.id = existing.id
    · have one := before.ids old oldIn existing existingIn here
      subst one
      rw [if_pos rfl] at ofItem ⊢
      refine ⟨_, (congrArg₂ _ ofStore ofUrl).trans observed, ?_⟩
      have ofExisting : old.id = item.mappingId := ofItem
      rcases List.mem_append.mp member with oldItem | newItem
      · obtain ⟨newest, seenBefore, value⟩ :=
          carries item oldItem pending field ofField old oldIn ofExisting
        rw [ofStore, ofUrl, known] at seenBefore
        cases seenBefore
        cases remoteValue : filled (remote.value field) with
        | none => exact value
        | some text =>
          by_cases same : filled (old.remote field) = some text
          · rw [value]
            exact same
          · -- The field has changed, and its item was pending.
            have news := (mem_newsOf_iff named known field text).mpr ⟨remoteValue, same⟩
            have free := clear.2 (remote.canonicalUrl, field, text)
              (List.mem_append_left _ (List.mem_map_of_mem news)) old oldIn ofStore ofUrl
            exact absurd pending ((alreadyPending_eq_false_iff _ _ _).mp free item oldItem
              ofExisting.symm ofField)
      · obtain ⟨_, _, changed, changedIn, sameField, value⟩ := changes.sound item newItem
        have one : changed = field := QueueField.remote.inj (sameField.symm.trans ofField)
        subst one
        obtain ⟨text, filledIs, _⟩ := (mem_changedFields_iff _ _ _).mp changedIn
        rw [value, filledIs, ((filled_eq_some_iff _ text).mp filledIs).1]
        rfl
    · rw [if_neg here] at ofItem ⊢
      rcases List.mem_append.mp member with oldItem | newItem
      · obtain ⟨newest, seenBefore, value⟩ := carries item oldItem pending field ofField old oldIn ofItem
        refine ⟨newest, ?_, value⟩
        rw [observe, if_neg named, if_neg, seenBefore]
        rintro ⟨sameStore, sameUrl⟩
        exact here (congrArg StoreSyncMapping.id (before.urls old oldIn existing existingIn
          (sameStore.trans ofStore.symm) (sameUrl.trans ofUrl.symm)))
      · exact absurd (ofItem.trans (changes.sound item newItem).2.1) here

theorem RemotePulled.isQueued (pulled : RemotePulled storeId now remote state after)
    (before : Tracked state.mappings state.nextMappingId state.items seen)
    (clear : Clear storeId state.mappings state.items seen (remote :: rest)) :
    ∀ news ∈ newsOf storeId seen remote,
      IsQueued after.mappings after.items storeId (remote.canonicalUrl, news) := by
  rintro ⟨field, text⟩ member
  cases pulled with
  | skipped unnamed =>
    rw [newsOf, if_pos unnamed] at member
    cases member
  | created named missing =>
    rw [newsOf_unseen (by rw [before.seen, missing]; rfl)] at member
    cases member
  | compared named existing new queued found changes mappings nextMappingId items =>
    have existingIn := List.mem_of_find?_eq_some found
    obtain ⟨ofStore, ofUrl⟩ := (isOf_iff _ _ existing).mp (List.find?_some found)
    have known := before.seen_of_mem existingIn
    rw [ofStore, ofUrl] at known
    obtain ⟨filledIs, other⟩ := (mem_newsOf_iff named known field text).mp member
    have free := clear.2 (remote.canonicalUrl, field, text)
      (List.mem_append_left _ (List.mem_map_of_mem member)) existing existingIn ofStore ofUrl
    have stored : alreadyPending state.queue existing.id field = false :=
      (alreadyPending_eq_false_iff _ _ _).mpr fun item here =>
        (alreadyPending_eq_false_iff _ _ _).mp free item (List.mem_append_left _ here)
    obtain ⟨item, itemIn, ofField, value⟩ := changes.complete field
      ((mem_changedFields_iff _ _ _).mpr ⟨text, filledIs, other⟩) stored
    obtain ⟨pending, ofMapping, _⟩ := changes.sound item itemIn
    refine ⟨item, items ▸ List.mem_append_right _ itemIn, pending, ofField, ?_, _,
      mappings ▸ List.mem_map_of_mem existingIn, ?_⟩
    · rw [value]
      exact ((filled_eq_some_iff _ text).mp filledIs).1
    · rw [if_pos rfl]
      exact ⟨ofMapping.symm, ofStore, ofUrl⟩

theorem RemotePulled.clear (pulled : RemotePulled storeId now remote state after)
    (before : Tracked state.mappings state.nextMappingId state.items seen)
    (clear : Clear storeId state.mappings state.items seen (remote :: rest)) :
    Clear storeId after.mappings after.items (observe storeId seen remote) rest := by
  obtain ⟨nodup, free⟩ := clear
  rw [pullNews, List.map_append] at nodup
  obtain ⟨_, restNodup, apart⟩ := List.nodup_append.mp nodup
  have later : ∀ news ∈ pullNews storeId (observe storeId seen remote) rest,
      news ∈ pullNews storeId seen (remote :: rest) := fun news member =>
    List.mem_append_right _ member
  refine ⟨restNodup, fun news member mapping present ofStore ofUrl => ?_⟩
  rw [alreadyPending_eq_false_iff]
  cases pulled with
  | skipped unnamed mappings nextMappingId items =>
    rw [mappings] at present
    rw [items]
    exact (alreadyPending_eq_false_iff _ _ _).mp
      (free news (later news member) mapping present ofStore ofUrl)
  | created named missing mappings nextMappingId items =>
    obtain ⟨id, items⟩ := items
    rw [mappings] at present
    rw [items]
    intro item itemIn ofMapping ofField
    rcases List.mem_append.mp itemIn with oldItem | newItem
    · rcases List.mem_append.mp present with oldMapping | newMapping
      · exact (alreadyPending_eq_false_iff _ _ _).mp
          (free news (later news member) mapping oldMapping ofStore ofUrl) item oldItem ofMapping ofField
      · rw [List.mem_singleton.mp newMapping] at ofMapping
        exact absurd ofMapping (ne_of_lt (before.known item oldItem))
    · rw [List.mem_singleton.mp newItem] at ofField
      cases ofField
  | compared named existing new queued found changes mappings nextMappingId items =>
    have existingIn := List.mem_of_find?_eq_some found
    obtain ⟨existingStore, existingUrl⟩ := (isOf_iff _ _ existing).mp (List.find?_some found)
    have known := before.seen_of_mem existingIn
    rw [existingStore, existingUrl] at known
    rw [mappings] at present
    rw [items]
    obtain ⟨old, oldIn, rfl⟩ := List.mem_map.mp present
    have sameId : ∀ kept : StoreSyncMapping,
        (if kept.id = existing.id then refreshed now remote kept else kept).id = kept.id :=
      fun kept => by split <;> rfl
    have oldStore : old.storeId = storeId := by
      rw [← ofStore]
      split <;> rfl
    have oldUrl : old.canonicalUrl = news.1 := by
      rw [← ofUrl]
      split <;> rfl
    rw [sameId old]
    intro item itemIn ofMapping ofField
    rcases List.mem_append.mp itemIn with oldItem | newItem
    · exact (alreadyPending_eq_false_iff _ _ _).mp
        (free news (later news member) old oldIn oldStore oldUrl) item oldItem ofMapping ofField
    · -- The field of the news has just changed: it would be news twice.
      obtain ⟨_, ofExisting, changed, changedIn, sameField, _⟩ := changes.sound item newItem
      have one := before.ids old oldIn existing existingIn (ofMapping.symm.trans ofExisting)
      have isField : changed = news.2.1 := QueueField.remote.inj (sameField.symm.trans ofField)
      obtain ⟨text, filledIs, other⟩ := (mem_changedFields_iff _ _ _).mp changedIn
      have first := (mem_newsOf_iff named known changed text).mpr ⟨filledIs, other⟩
      have sameUrl : remote.canonicalUrl = news.1 := existingUrl.symm.trans (one ▸ oldUrl)
      refine absurd (Prod.ext sameUrl isField) (apart (remote.canonicalUrl, changed) ?_
        (news.1, news.2.1) (List.mem_map_of_mem member))
      rw [List.map_map]
      exact List.mem_map_of_mem (f := fun news : RemoteField × String => (remote.canonicalUrl, news.1)) first

/-! ## The loop -/

variable {state : Pulling}

theorem pulled_tracked (storeId : Nat) (now : Time) (remotes : List RemoteEntity)
    (before : Tracked state.mappings state.nextMappingId state.items seen) :
    Tracked (remotes.foldl (pullRemote storeId now) state).mappings
      (remotes.foldl (pullRemote storeId now) state).nextMappingId
      (remotes.foldl (pullRemote storeId now) state).items (remotes.foldl (observe storeId) seen) := by
  induction remotes generalizing state seen with
  | nil => exact before
  | cons remote rest ih => exact ih ((pullRemote_spec storeId now remote state).tracked before)

theorem pulled_items_kept (storeId : Nat) (now : Time) (remotes : List RemoteEntity)
    {item : SyncQueueItem} (member : item ∈ state.items) :
    item ∈ (remotes.foldl (pullRemote storeId now) state).items := by
  induction remotes generalizing state with
  | nil => exact member
  | cons remote rest ih => exact ih ((pullRemote_spec storeId now remote state).items_kept member)

theorem pulled_mapping_kept (storeId : Nat) (now : Time) (remotes : List RemoteEntity)
    (member : mapping ∈ state.mappings) :
    ∃ kept ∈ (remotes.foldl (pullRemote storeId now) state).mappings, kept.id = mapping.id ∧
      kept.storeId = mapping.storeId ∧ kept.canonicalUrl = mapping.canonicalUrl := by
  induction remotes generalizing state mapping with
  | nil => exact ⟨mapping, member, rfl, rfl, rfl⟩
  | cons remote rest ih =>
    obtain ⟨next, present, sameId, sameStore, sameUrl⟩ :=
      (pullRemote_spec storeId now remote state).mapping_kept member
    obtain ⟨kept, keptIn, keptId, keptStore, keptUrl⟩ := ih present
    exact ⟨kept, keptIn, keptId.trans sameId, keptStore.trans sameStore, keptUrl.trans sameUrl⟩

theorem pulled_isQueued_kept (storeId : Nat) (now : Time) (remotes : List RemoteEntity)
    (queued : IsQueued state.mappings state.items storeId news) :
    IsQueued (remotes.foldl (pullRemote storeId now) state).mappings
      (remotes.foldl (pullRemote storeId now) state).items storeId news := by
  induction remotes generalizing state with
  | nil => exact queued
  | cons remote rest ih => exact ih ((pullRemote_spec storeId now remote state).isQueued_kept queued)

theorem pulled_reviewed (storeId : Nat) (now : Time) (remotes : List RemoteEntity)
    (before : Tracked state.mappings state.nextMappingId state.items seen)
    (carries : CarriesNewest state.mappings state.items seen)
    (clear : Clear storeId state.mappings state.items seen remotes) :
    CarriesNewest (remotes.foldl (pullRemote storeId now) state).mappings
        (remotes.foldl (pullRemote storeId now) state).items (remotes.foldl (observe storeId) seen) ∧
      ∀ news ∈ pullNews storeId seen remotes,
        IsQueued (remotes.foldl (pullRemote storeId now) state).mappings
          (remotes.foldl (pullRemote storeId now) state).items storeId news := by
  induction remotes generalizing state seen with
  | nil =>
    refine ⟨carries, fun news member => ?_⟩
    cases member
  | cons remote rest ih =>
    have pulled := pullRemote_spec storeId now remote state
    have later := ih (pulled.tracked before) (pulled.carriesNewest before carries clear)
      (pulled.clear before clear)
    refine ⟨later.1, fun news member => ?_⟩
    rcases List.mem_append.mp member with here | restNews
    · obtain ⟨own, ownIn, rfl⟩ := List.mem_map.mp here
      exact pulled_isQueued_kept storeId now rest (pulled.isQueued before clear own ownIn)
    · exact later.2 news restNews

/-! ## A pull that is not clear -/

def newestOf (seen : Seen) (storeId : Nat) (url : String) (field : RemoteField) : Option String :=
  (seen storeId url).bind fun newest => newest field

theorem newestOf_observe (named : remote.canonicalUrl ≠ "") (field : RemoteField) :
    newestOf (observe storeId seen remote) storeId remote.canonicalUrl field =
      (filled (remote.value field)).or (newestOf seen storeId remote.canonicalUrl field) := by
  unfold newestOf
  rw [observe, if_neg named, if_pos ⟨rfl, rfl⟩]
  rfl

theorem newestOf_observe_other {url : String} (field : RemoteField)
    (other : remote.canonicalUrl = "" ∨ url ≠ remote.canonicalUrl) :
    newestOf (observe storeId seen remote) storeId url field = newestOf seen storeId url field := by
  have same : observe storeId seen remote storeId url = seen storeId url := by
    by_cases named : remote.canonicalUrl = ""
    · rw [observe, if_pos named]
    · rw [observe, if_neg named]
      exact if_neg fun here => (other.resolve_left named) here.2
  rw [newestOf, same, newestOf]

theorem mem_newsOf_of_newest (named : remote.canonicalUrl ≠ "") {field : RemoteField}
    {value : String} (newest : newestOf seen storeId remote.canonicalUrl field = some value)
    (text : String) :
    (field, text) ∈ newsOf storeId seen remote ↔
      filled (remote.value field) = some text ∧ value ≠ text := by
  obtain ⟨known, isKnown, here⟩ := Option.bind_eq_some_iff.mp newest
  rw [mem_newsOf_iff named isKnown, here]
  simp

theorem no_news_of_newest (remotes : List RemoteEntity) {url : String} {field : RemoteField}
    {value : String} (newest : newestOf seen storeId url field = some value)
    (all : ∀ text, (url, field, text) ∈ pullNews storeId seen remotes → text = value)
    (text : String) : (url, field, text) ∉ pullNews storeId seen remotes := by
  induction remotes generalizing seen with
  | nil => exact List.not_mem_nil
  | cons remote rest ih =>
    have headNone : ∀ other, (url, field, other) ∉
        (newsOf storeId seen remote).map fun news => (remote.canonicalUrl, news) := by
      intro other member
      obtain ⟨news, newsIn, same⟩ := List.mem_map.mp member
      obtain ⟨sameUrl, rfl⟩ := Prod.mk.inj same
      have one := all other (List.mem_append_left _ member)
      subst sameUrl one
      by_cases named : remote.canonicalUrl = ""
      · rw [newsOf, if_pos named] at newsIn
        cases newsIn
      · exact ((mem_newsOf_of_newest named newest other).mp newsIn).2 rfl
    have next : newestOf (observe storeId seen remote) storeId url field = some value := by
      by_cases here : remote.canonicalUrl = "" ∨ url ≠ remote.canonicalUrl
      · rw [newestOf_observe_other field here, newest]
      · obtain ⟨named, sameUrl⟩ := not_or.mp here
        have same := not_not.mp sameUrl
        subst same
        rw [newestOf_observe named, newest]
        cases filledIs : filled (remote.value field) with
        | none => rfl
        | some other =>
          by_cases repeats : value = other
          · rw [repeats]
            rfl
          · exact absurd (List.mem_map_of_mem
              ((mem_newsOf_of_newest named newest other).mpr ⟨filledIs, repeats⟩)) (headNone other)
    intro member
    rcases List.mem_append.mp member with here | later
    · exact headNone text here
    · exact ih next (fun other otherIn => all other (List.mem_append_right _ otherIn)) later

theorem newsOf_fields_nodup (storeId : Nat) (seen : Seen) (remote : RemoteEntity) :
    ((newsOf storeId seen remote).map Prod.fst).Nodup := by
  unfold newsOf
  split
  · exact List.nodup_nil
  · split
    · exact List.nodup_nil
    · rename_i newest _
      have distinct : remoteFields.Nodup := by decide
      refine List.pairwise_map.mpr (List.pairwise_filterMap.mpr (distinct.imp ?_))
      intro first second apart one firstNews other secondNews same
      obtain ⟨_, _, firstIs⟩ := Option.bind_eq_some_iff.mp firstNews
      obtain ⟨_, _, secondIs⟩ := Option.bind_eq_some_iff.mp secondNews
      split at firstIs
      · cases firstIs
      split at secondIs
      · cases secondIs
      cases firstIs
      cases secondIs
      exact apart same

theorem pullNews_nodup (remotes : List RemoteEntity) (value : String → RemoteField → Option String)
    (all : ∀ news ∈ pullNews storeId seen remotes, value news.1 news.2.1 = some news.2.2) :
    ((pullNews storeId seen remotes).map fun news => (news.1, news.2.1)).Nodup := by
  induction remotes generalizing seen with
  | nil => exact List.nodup_nil
  | cons remote rest ih =>
    rw [pullNews, List.map_append, List.map_map]
    refine List.nodup_append.mpr ⟨?_, ih fun news member => all news (List.mem_append_right _ member), ?_⟩
    · have fields := newsOf_fields_nodup storeId seen remote
      refine List.pairwise_map.mpr ((List.pairwise_map.mp fields).imp fun apart same => ?_)
      exact apart (Prod.mk.inj same).2
    · intro first firstIn second secondIn same
      obtain ⟨⟨field, text⟩, newsIn, rfl⟩ := List.mem_map.mp firstIn
      obtain ⟨⟨url, otherField, other⟩, laterIn, rfl⟩ := List.mem_map.mp secondIn
      obtain ⟨sameUrl, sameField⟩ := Prod.mk.inj same
      change remote.canonicalUrl = url at sameUrl
      change field = otherField at sameField
      subst sameUrl sameField
      by_cases named : remote.canonicalUrl = ""
      · rw [newsOf, if_pos named] at newsIn
        cases newsIn
      · have here := all (remote.canonicalUrl, field, text)
          (List.mem_append_left _ (List.mem_map_of_mem newsIn))
        have newest : newestOf (observe storeId seen remote) storeId remote.canonicalUrl field =
            some text := by
          rw [newestOf_observe named]
          cases known : seen storeId remote.canonicalUrl with
          | none =>
            rw [newsOf_unseen known] at newsIn
            cases newsIn
          | some newest =>
            rw [((mem_newsOf_iff named known field text).mp newsIn).1]
            rfl
        refine no_news_of_newest rest newest (fun text' member => ?_) other laterIn
        have there := all (remote.canonicalUrl, field, text') (List.mem_append_right _ member)
        exact Option.some.inj (there.symm.trans here)

theorem clear_of_reviewed (storeId : Nat) (now : Time) (remotes : List RemoteEntity)
    (carries : CarriesNewest state.mappings state.items seen)
    (after : CarriesNewest (remotes.foldl (pullRemote storeId now) state).mappings
      (remotes.foldl (pullRemote storeId now) state).items (remotes.foldl (observe storeId) seen))
    (queued : ∀ news ∈ pullNews storeId seen remotes,
      IsQueued (remotes.foldl (pullRemote storeId now) state).mappings
        (remotes.foldl (pullRemote storeId now) state).items storeId news) :
    Clear storeId state.mappings state.items seen remotes := by
  -- All news of a field have the value that is the newest in the end.
  have last : ∀ news ∈ pullNews storeId seen remotes,
      newestOf (remotes.foldl (observe storeId) seen) storeId news.1 news.2.1 = some news.2.2 := by
    intro news member
    obtain ⟨item, itemIn, pending, ofField, value, mapping, present, ofItem, ofStore, ofUrl⟩ :=
      queued news member
    obtain ⟨newest, known, carried⟩ := after item itemIn pending news.2.1 ofField mapping present ofItem
    rw [ofStore, ofUrl] at known
    rw [newestOf, known, Option.bind_some, ← carried, value]
  refine ⟨pullNews_nodup remotes _ last, fun news member mapping present ofStore ofUrl => ?_⟩
  rw [alreadyPending_eq_false_iff]
  intro item itemIn ofMapping ofField pending
  obtain ⟨newest, known, carried⟩ := carries item itemIn pending news.2.1 ofField mapping present
    ofMapping.symm
  obtain ⟨kept, keptIn, keptId, keptStore, keptUrl⟩ := pulled_mapping_kept storeId now remotes present
  obtain ⟨newestAfter, knownAfter, carriedAfter⟩ := after item
    (pulled_items_kept storeId now remotes itemIn) pending news.2.1 ofField kept keptIn
    (keptId.trans ofMapping.symm)
  rw [keptStore, keptUrl, ofStore, ofUrl] at knownAfter
  have same := last news member
  rw [newestOf, knownAfter, Option.bind_some, ← carriedAfter, carried] at same
  rw [ofStore, ofUrl] at known
  have first : newestOf seen storeId news.1 news.2.1 = some news.2.2 := by
    rw [newestOf, known]
    exact same
  refine no_news_of_newest remotes first (fun text textIn => ?_) news.2.2 member
  have there := last (news.1, news.2.1, text) textIn
  exact Option.some.inj (there.symm.trans (last news member))

/-! ## Runs -/

theorem beginPull_items (db : SyncDb) : (beginPull db).items = db.queue := List.append_nil db.queue

variable {watched : Watched} {user : User}

theorem step_pull {store : StoreConnection}
    (pullable : pullableStore watched.db user storeId = .ok store) (remotes : List RemoteEntity) :
    step watched (.pull now user storeId (some remotes)) =
      { db := commitPull watched.db storeId now
          (remotes.foldl (pullRemote storeId now) (beginPull watched.db))
        seen := remotes.foldl (observe storeId) watched.seen } := by
  simp only [step, respond, pullEntitiesFromStore, pullable, observedBy]

theorem reviewed_iff_unhurried (watched : Watched) (request : SyncRequest) (inStep : InStep watched) :
    Reviewed watched request ↔ Unhurried watched request := by
  cases request with
  | pull now user storeId fetched =>
    cases fetched with
    | none => exact Iff.rfl
    | some remotes =>
      refine forall_congr' fun store => forall_congr' fun pullable => ?_
      rw [step_pull pullable]
      have tracked : Tracked (beginPull watched.db).mappings (beginPull watched.db).nextMappingId
          (beginPull watched.db).items watched.seen := beginPull_items watched.db ▸ inStep.tracked
      have carries : CarriesNewest (beginPull watched.db).mappings (beginPull watched.db).items
          watched.seen := beginPull_items watched.db ▸ inStep.carries
      have clear : Clear storeId watched.db.mappings watched.db.queue watched.seen remotes ↔
          Clear storeId (beginPull watched.db).mappings (beginPull watched.db).items watched.seen
            remotes := by
        rw [beginPull_items]
        exact Iff.rfl
      constructor
      · rintro ⟨after, queued⟩
        exact clear.mpr (clear_of_reviewed storeId now remotes carries after queued)
      · intro unhurried
        exact pulled_reviewed storeId now remotes tracked carries (clear.mp unhurried)
  | approve now user itemId => exact Iff.rfl
  | reject now user itemId => exact Iff.rfl
  | bulkApprove now user storeId => exact Iff.rfl
  | bulkReject now user storeId => exact Iff.rfl

variable {status : QueueStatus}

theorem InStep.resolved (inStep : InStep watched) (now : Time) (closes : status ≠ .pending)
    (chosen : SyncQueueItem → Prop) [DecidablePred chosen] :
    InStep
      { watched with
        db := { watched.db with
          queue := watched.db.queue.map fun item =>
            if chosen item then resolve now status item else item } } := by
  refine ⟨⟨inStep.tracked.ids, inStep.tracked.urls, inStep.tracked.numbered, ?_, inStep.tracked.seen⟩, ?_⟩
  · intro item member
    obtain ⟨old, oldIn, rfl⟩ := List.mem_map.mp member
    split
    · exact inStep.tracked.known old oldIn
    · exact inStep.tracked.known old oldIn
  · intro item member pending field ofField mapping present ofItem
    obtain ⟨old, oldIn, rfl⟩ := List.mem_map.mp member
    by_cases here : chosen old
    · rw [if_pos here] at pending
      exact absurd pending closes
    · rw [if_neg here] at pending ofField ofItem ⊢
      exact inStep.carries old oldIn pending field ofField mapping present ofItem

variable {outcome : SyncOutcome × SyncDb}

theorem resolveQueueItem_served {db : SyncDb} {now : Time} {itemId : Nat}
    (served : resolveQueueItem db now user itemId status = .ok outcome) :
    outcome.2 =
      { db with
        queue := db.queue.map fun other =>
          if other.id = itemId then resolve now status other else other } := by
  unfold resolveQueueItem at served
  split at served
  · cases served
  split at served
  · cases served
  split at served
  · cases served
  split at served
  · cases served
  cases served
  rfl

theorem resolveQueue_served {db : SyncDb} {now : Time} {storeId : Nat}
    (served : resolveQueue db now user storeId status = .ok outcome) :
    outcome.2 =
      { db with
        queue := db.queue.map fun item =>
          if (item.storeId == storeId && item.status == .pending) = true then resolve now status item
          else item } := by
  unfold resolveQueue at served
  split at served
  · cases served
  split at served
  · cases served
  cases served
  rfl

theorem InStep.step (inStep : InStep watched) (request : SyncRequest)
    (unhurried : Unhurried watched request) : InStep (step watched request) := by
  unfold Sync.step
  split
  · exact inStep
  · rename_i outcome answer
    cases request with
    | approve now user itemId =>
      rw [resolveQueueItem_served answer]
      exact inStep.resolved now QueueStatus.noConfusion _
    | reject now user itemId =>
      rw [resolveQueueItem_served answer]
      exact inStep.resolved now QueueStatus.noConfusion _
    | bulkApprove now user storeId =>
      rw [resolveQueue_served answer]
      exact inStep.resolved now QueueStatus.noConfusion _
    | bulkReject now user storeId =>
      rw [resolveQueue_served answer]
      exact inStep.resolved now QueueStatus.noConfusion _
    | pull now user storeId fetched =>
      simp only [respond, pullEntitiesFromStore] at answer
      split at answer
      · cases answer
      rename_i store pullable
      split at answer
      · cases answer
      rename_i remotes
      have reviewed := (reviewed_iff_unhurried watched _ inStep).mpr unhurried store pullable
      rw [step_pull pullable] at reviewed
      cases answer
      refine ⟨?_, reviewed.1⟩
      exact pulled_tracked storeId now remotes (beginPull_items watched.db ▸ inStep.tracked)

/-- In every run of pulls and reviews, each pull is reviewed exactly when none observes a
new value for a field whose item is pending, or two new values for one field. -/
theorem reviewed_everyStep_iff (start : Watched) (requests : List SyncRequest)
    (initial : InStep start) :
    EveryStep step Reviewed start requests ↔ EveryStep step Unhurried start requests :=
  everyStep_iff_everyStep (fun _ request inStep guard => inStep.step request guard)
    (fun watched request inStep => reviewed_iff_unhurried watched request inStep) start requests initial

/-- The mappings refine what has been seen. -/
def Watched.Mirrors (watched : Watched) : Prop :=
  Tracked watched.db.mappings watched.db.nextMappingId watched.db.queue watched.seen

theorem Watched.Mirrors.step (mirrors : watched.Mirrors) (request : SyncRequest) :
    (step watched request).Mirrors := by
  have resolved : ∀ (now : Time) (status : QueueStatus) (chosen : SyncQueueItem → Prop)
      [DecidablePred chosen], ∀ item ∈ watched.db.queue.map (fun item =>
        if chosen item then resolve now status item else item),
      item.mappingId < watched.db.nextMappingId := by
    intro now status chosen _ item member
    obtain ⟨old, oldIn, rfl⟩ := List.mem_map.mp member
    split <;> exact mirrors.known old oldIn
  unfold Sync.step
  split
  · exact mirrors
  · rename_i outcome answer
    unfold Watched.Mirrors
    cases request with
    | approve now user itemId | reject now user itemId =>
      rw [resolveQueueItem_served answer]
      exact { mirrors with known := resolved now _ _ }
    | bulkApprove now user storeId | bulkReject now user storeId =>
      rw [resolveQueue_served answer]
      exact { mirrors with known := resolved now _ _ }
    | pull now user storeId fetched =>
      simp only [respond, pullEntitiesFromStore] at answer
      split at answer
      · cases answer
      split at answer
      · cases answer
      rename_i remotes
      cases answer
      exact pulled_tracked storeId now remotes (beginPull_items watched.db ▸ mirrors)

/-- Whether or not its items are reviewed in time, a mapping holds the newest value that each
field of its remote has had, and a remote has one mapping. -/
theorem mirrors_everyState (start : Watched) (requests : List SyncRequest)
    (initial : start.Mirrors) : EveryState step Watched.Mirrors start requests :=
  (everyState_iff_front start requests).mpr fun before _ _ =>
    runEvents_of_invariant (fun _ request mirrors => mirrors.step request) start before initial

/-! ### A change that is not queued -/

def managerUser : User := ⟨7, .superAdmin, none⟩

def oneStore : Watched where
  db :=
    { directory := ⟨[], []⟩
      stores := [⟨1, none, true, none⟩]
      mappings := []
      nextMappingId := 1
      queue := []
      nextItemId := 1 }
  seen := fun _ _ => none

theorem oneStore_inStep : InStep oneStore := by
  refine ⟨⟨?_, ?_, ?_, ?_, fun _ _ => rfl⟩, ?_⟩
  all_goals
    intro row member
    cases member

def priced (price : String) : RemoteEntity where
  remoteId := "r1"
  canonicalUrl := "https://shop.example/lamp"
  value := fun field => if field = .name then some "Lamp" else if field = .price then some price else none
  rawData := none

def pullPrice (now : Time) (price : String) : SyncRequest :=
  .pull now managerUser 1 (some [priced price])

def pricesReviewed : List SyncRequest :=
  [pullPrice 1 "10", pullPrice 2 "12", .approve 3 managerUser 2, pullPrice 4 "15"]

def pricesUnreviewed : List SyncRequest := [pullPrice 1 "10", pullPrice 2 "12", pullPrice 3 "15"]

theorem reviewed_prices :
    EveryStep step Reviewed oneStore pricesReviewed ↔ EveryStep step Unhurried oneStore pricesReviewed :=
  reviewed_everyStep_iff oneStore pricesReviewed oneStore_inStep

/-- The price changes twice before its item is reviewed: the item keeps the first change. -/
theorem second_change_not_queued : ¬ EveryStep step Reviewed oneStore pricesUnreviewed := by
  intro every
  let before := runEvents step oneStore [pullPrice 1 "10", pullPrice 2 "12"]
  have last : Reviewed before (pullPrice 3 "15") := every.2.2.1
  have carries := (last ⟨1, none, true, some 2⟩ (by decide)).1
  have waiting : ((step before (pullPrice 3 "15")).db.queue.any fun item =>
      item.status == .pending && item.field == .remote .price && item.remoteValue == some "12" &&
        item.mappingId == 1) = true := by
    decide
  have stored : ((step before (pullPrice 3 "15")).db.mappings.any fun mapping =>
      mapping.id == 1 && mapping.storeId == 1 &&
        mapping.canonicalUrl == "https://shop.example/lamp") = true := by
    decide
  have newest : newestOf (step before (pullPrice 3 "15")).seen 1 "https://shop.example/lamp" .price =
      some "15" := by
    decide
  obtain ⟨item, itemIn, itemIs⟩ := List.any_eq_true.mp waiting
  obtain ⟨mapping, mappingIn, mappingIs⟩ := List.any_eq_true.mp stored
  simp only [Bool.and_eq_true, beq_iff_eq] at itemIs mappingIs
  obtain ⟨⟨⟨pending, ofField⟩, value⟩, ofMapping⟩ := itemIs
  obtain ⟨⟨ofId, ofStore⟩, ofUrl⟩ := mappingIs
  obtain ⟨known, isKnown, carried⟩ := carries item itemIn pending .price ofField mapping mappingIn
    (ofId.trans ofMapping.symm)
  rw [ofStore, ofUrl] at isKnown
  rw [newestOf, isKnown, Option.bind_some, ← carried, value] at newest
  exact absurd newest (by decide)

theorem mirrors_prices : EveryState step Watched.Mirrors oneStore pricesUnreviewed :=
  mirrors_everyState oneStore pricesUnreviewed oneStore_inStep.tracked

end Ukip.Stores.Sync
