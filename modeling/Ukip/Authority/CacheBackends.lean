import Ukip.Authority.ResolverCache
import Ukip.Foundation.FallibleLoop
import Ukip.Foundation.ObjectHeap

/-!
# The two backends of the cache

`cache/inprocess_backend.py` and `cache/redis_backend.py` under `authority/cache.py`, and
`resolve_all` as it works on the candidate objects that the cache gives it.  One backend keeps
the objects, the other keeps what the serializer made of them.  A text in Redis is the JSON
value that it stands for.
-/

namespace Ukip.Authority.CacheBackends

open Foundation.FallibleLoop (mapM_map_of_forall)
open Foundation.LeaderGroups Foundation.ObjectHeap Foundation.Tally
open Authority.ResolverCache (Key keyOf sources)

variable {Score : Type}

inductive Wire (Score : Type) where
  | null
  | text (value : String)
  | number (value : Score)
  | integer (value : Int)
  | array (items : List (Wire Score))
  | object (entries : List (String × Wire Score))

namespace Wire

def text? : Wire Score → Option String
  | text value => some value
  | _ => none

def number? : Wire Score → Option Score
  | number value => some value
  | _ => none

def texts? : Wire Score → Option (List String)
  | array items => items.mapM text?
  | _ => none

def optionalText? : Wire Score → Option (Option String)
  | null => some none
  | text value => some (some value)
  | _ => none

def optionalInteger? : Wire Score → Option (Option Int)
  | null => some none
  | integer value => some (some value)
  | _ => none

def numbers? : Wire Score → Option (List (String × Score))
  | object entries => entries.mapM fun entry => (number? entry.2).map fun value => (entry.1, value)
  | _ => none

def ofOptionalText : Option String → Wire Score
  | none => null
  | some value => text value

def ofOptionalInteger : Option Int → Wire Score
  | none => null
  | some value => integer value

end Wire

/-- `asdict(c)` -/
def asdict (c : AuthorityCandidate Score) : List (String × Wire Score) :=
  [("authority_source", .text c.authoritySource), ("authority_id", .text c.authorityId),
    ("canonical_label", .text c.canonicalLabel), ("aliases", .array (c.aliases.map .text)),
    ("description", .ofOptionalText c.description), ("confidence", .number c.confidence),
    ("uri", .ofOptionalText c.uri),
    ("score_breakdown", .object (c.scoreBreakdown.map fun entry => (entry.1, .number entry.2))),
    ("evidence", .array (c.evidence.map .text)), ("resolution_status", .text c.resolutionStatus),
    ("merged_sources", .array (c.mergedSources.map .text)),
    ("hierarchy_distance", .ofOptionalInteger c.hierarchyDistance)]

/-- `AuthorityCandidate(**c)`, for a dictionary with every field. -/
def ofDict (entries : List (String × Wire Score)) : Option (AuthorityCandidate Score) := do
  let authoritySource ← (entries.lookup "authority_source").bind Wire.text?
  let authorityId ← (entries.lookup "authority_id").bind Wire.text?
  let canonicalLabel ← (entries.lookup "canonical_label").bind Wire.text?
  let aliases ← (entries.lookup "aliases").bind Wire.texts?
  let description ← (entries.lookup "description").bind Wire.optionalText?
  let confidence ← (entries.lookup "confidence").bind Wire.number?
  let uri ← (entries.lookup "uri").bind Wire.optionalText?
  let scoreBreakdown ← (entries.lookup "score_breakdown").bind Wire.numbers?
  let evidence ← (entries.lookup "evidence").bind Wire.texts?
  let resolutionStatus ← (entries.lookup "resolution_status").bind Wire.text?
  let mergedSources ← (entries.lookup "merged_sources").bind Wire.texts?
  let hierarchyDistance ← (entries.lookup "hierarchy_distance").bind Wire.optionalInteger?
  some
    { authoritySource := authoritySource
      authorityId := authorityId
      canonicalLabel := canonicalLabel
      aliases := aliases
      description := description
      confidence := confidence
      uri := uri
      scoreBreakdown := scoreBreakdown
      evidence := evidence
      resolutionStatus := resolutionStatus
      mergedSources := mergedSources
      hierarchyDistance := hierarchyDistance }

def serializeCandidates (candidates : List (AuthorityCandidate Score)) : Wire Score :=
  .array (candidates.map fun c => .object (asdict c))

def candidateOf : Wire Score → Option (AuthorityCandidate Score)
  | .object entries => ofDict entries
  | _ => none

/-- `_deserialize_candidates`; `none` where it raises. -/
def deserializeCandidates : Wire Score → Option (List (AuthorityCandidate Score))
  | .array items => items.mapM candidateOf
  | _ => none

theorem ofDict_asdict (c : AuthorityCandidate Score) : ofDict (asdict c) = some c := by
  have texts : ∀ items : List String, (Wire.array (items.map .text) : Wire Score).texts? = some items :=
    fun items => mapM_map_of_forall items fun _ _ => rfl
  have numbers : (Wire.object (c.scoreBreakdown.map fun entry => (entry.1, .number entry.2)) :
      Wire Score).numbers? = some c.scoreBreakdown :=
    mapM_map_of_forall c.scoreBreakdown fun _ _ => rfl
  have optionalText : ∀ value, (Wire.ofOptionalText value : Wire Score).optionalText? = some value :=
    fun value => by cases value <;> rfl
  have optionalInteger : ∀ value,
      (Wire.ofOptionalInteger value : Wire Score).optionalInteger? = some value :=
    fun value => by cases value <;> rfl
  simp [ofDict, asdict, List.lookup, Wire.text?, Wire.number?, texts, numbers, optionalText,
    optionalInteger]

theorem deserialize_serialize (candidates : List (AuthorityCandidate Score)) :
    deserializeCandidates (serializeCandidates candidates) = some candidates :=
  mapM_map_of_forall candidates fun c _ => ofDict_asdict c

inductive Backend where
  | inProcess
  | redis

/-- What stands under a key: the objects at their addresses, or a JSON value. -/
inductive Stored (Score : Type) where
  | live (addresses : List Nat)
  | json (value : Wire Score)

structure State (Score : Type) where
  heap : Heap (AuthorityCandidate Score)
  cache : List (Key × Stored Score)
  /-- The objects that each call has returned. -/
  results : List (List Nat)

/-- A call of `resolve_all`. -/
structure Call (Score : Type) where
  value : String
  entityType : String
  /-- `compute_score` with the value and the context of the call: of the source, the id, the
  label and the description of a candidate. -/
  computeScore : String → String → String → Option String → Scored Score
  /-- What the resolver of each source returns if it is asked. -/
  answer : String → List (AuthorityCandidate Score)
  /-- The order of `as_completed`. -/
  completed : List String
  complete : completed.Perm sources

inductive Event (Score : Type) where
  | resolveAll (call : Call Score)
  /-- The caller gives an object of an earlier result new values. -/
  | mutate (result position : Nat) (value : AuthorityCandidate Score)

def Call.scored (call : Call Score) (c : AuthorityCandidate Score) : AuthorityCandidate Score :=
  applyScore (fun c => call.computeScore c.authoritySource c.authorityId c.canonicalLabel
    c.description) c

def Call.key (unicode : Unicode) (call : Call Score) (source : String) : Key :=
  keyOf unicode source call.value call.entityType

namespace State

def start (heap : Heap (AuthorityCandidate Score)) : State Score where
  heap := heap
  cache := []
  results := []

/-- The miss of `get_or_load`: the loaded objects, kept or serialized. -/
def loadAndSet (backend : Backend) (state : State Score) (key : Key)
    (loaded : List (AuthorityCandidate Score)) : State Score × List Nat :=
  let (heap, addresses) := state.heap.alloc loaded
  let stored : Stored Score :=
    match backend with
    | .inProcess => .live addresses
    | .redis => .json (serializeCandidates loaded)
  ({ state with heap := heap, cache := (key, stored) :: state.cache }, addresses)

/-- `get_or_load`; the addresses of the candidates that it gives. -/
def getOrLoad (backend : Backend) (state : State Score) (key : Key)
    (loaded : List (AuthorityCandidate Score)) : State Score × List Nat :=
  match state.cache.lookup key with
  | some (.live addresses) => (state, addresses)
  | some (.json value) =>
    match deserializeCandidates value with
    | some copies =>
      let (heap, addresses) := state.heap.alloc copies
      ({ state with heap := heap }, addresses)
    | none => state.loadAndSet backend key loaded
  | none => state.loadAndSet backend key loaded

/-- `raw.extend(future.result())` for each future. -/
def gather (backend : Backend) (unicode : Unicode) (call : Call Score) :
    State Score → List String → State Score × List Nat
  | state, [] => (state, [])
  | state, source :: rest =>
    let (loaded, addresses) :=
      state.getOrLoad backend (call.key unicode source) (call.answer source)
    let (gathered, others) := gather backend unicode call loaded rest
    (gathered, addresses ++ others)

end State

section Resolution

variable [LinearOrder Score] (unicode : Unicode) (fuzz : Fuzz)

abbrev Object (Score : Type) := Nat × AuthorityCandidate Score

/-- `best.merged_sources = other_refs` on the object that stands for a group. -/
def mergeObjects (group : Object Score × List (Object Score)) : Object Score :=
  if group.2.isEmpty then group.1
  else
    let (best, others) := firstMax (fun object => priority object.2) group.1 group.2
    (best.1, { best.2 with mergedSources := others.map fun object => reference object.2 })

/-- `_deduplicate`, on objects. -/
def deduplicateObjects (objects : List (Object Score)) : List (Object Score) :=
  if objects.length ≤ 1 then objects
  else (groups (fun a b => similar unicode fuzz a.2 b.2) objects).map mergeObjects

/-- The objects that `resolve_all` returns, of those that it gathered. -/
def shownObjects (call : Call Score) (objects : List (Object Score)) : List (Object Score) :=
  (sortedBy (fun a b => decide (b.2.confidence ≤ a.2.confidence))
    (deduplicateObjects unicode fuzz
      (objects.map fun object => (object.1, call.scored object.2)))).take maxResults

/-- `resolve_all`: the state after it, and the candidates that it returns. -/
def State.resolveAll (backend : Backend) (state : State Score) (call : Call Score) :
    State Score × List (AuthorityCandidate Score) :=
  let (gathered, addresses) := state.gather backend unicode call call.completed
  let objects := gathered.heap.read addresses
  let scored := objects.map fun object => (object.1, call.scored object.2)
  let merged := deduplicateObjects unicode fuzz scored
  let shown := shownObjects unicode fuzz call objects
  ({ gathered with
      heap := (gathered.heap.write scored).write merged
      results := gathered.results ++ [shown.map Prod.fst] },
    shown.map Prod.snd)

def State.returned? (state : State Score) (result position : Nat) : Option Nat :=
  state.results[result]? >>= fun addresses => addresses[position]?

def State.mutate (state : State Score) (result position : Nat) (value : AuthorityCandidate Score) :
    State Score :=
  match state.returned? result position with
  | some address => { state with heap := state.heap.write [(address, value)] }
  | none => state

def State.step (backend : Backend) (state : State Score) : Event Score → State Score
  | .resolveAll call => (state.resolveAll unicode fuzz backend call).1
  | .mutate result position value => state.mutate result position value

def State.answers (backend : Backend) : State Score → List (Event Score) →
    List (List (AuthorityCandidate Score))
  | _, [] => []
  | state, .resolveAll call :: rest =>
    let (after, answer) := state.resolveAll unicode fuzz backend call
    answer :: answers backend after rest
  | state, .mutate result position value :: rest =>
    answers backend (state.mutate result position value) rest

end Resolution

end Ukip.Authority.CacheBackends
