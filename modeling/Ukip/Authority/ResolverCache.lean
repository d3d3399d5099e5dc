import Ukip.Authority.Resolver
import Ukip.Breaker.CircuitBreaker

/-!
# The cache of the authority sources

`authority/cache.py`, `authority/resilience.py` and the calls that `resolve_all` of
`authority/resolver.py` makes of them.  A call looks its key up; on a miss it passes the
circuit breaker of the source, tries the source, records the outcome and stores the list.
Each of these is one step, and the steps of all calls come in any order.

`origin`, `returned` and `served` are an observer's notes; the code keeps none of them.
-/

namespace Ukip.Authority.ResolverCache

open Breaker (CircuitBreaker CircuitState)

/-- `make_key((source, normalize_name(value), entity_type))` -/
structure Key where
  source : String
  value : String
  entityType : String
  deriving DecidableEq

def keyOf (unicode : Unicode) (source value entityType : String) : Key where
  source := source
  value := normalizeName unicode value
  entityType := entityType

/-- `_RESOLVERS` -/
def sources : List String := ["wikidata", "viaf", "orcid", "dbpedia", "openalex"]

def maxAttempts : Nat := 2

/-- One `resolve` of a source's resolver: its answer, the list so far after a failure that the
resolver catches and logs, or an exception. -/
inductive Exchange (Score : Type) where
  | answered (candidates : List (AuthorityCandidate Score))
  | caught (soFar : List (AuthorityCandidate Score))
  | raised

inductive Origin where
  | answered
  | failed
  | circuitOpen
  deriving DecidableEq

structure Entry (Score : Type) where
  candidates : List (AuthorityCandidate Score)
  origin : Origin
  deriving DecidableEq

inductive Stage (Score : Type) where
  | queued
  | missed
  | trying (attempt : Nat)
  | returned (entry : Entry Score)
  | raised
  | loaded (entry : Entry Score)

/-- `cache.get_or_load` for one source of one `resolve_all`. -/
structure Load (Score : Type) where
  call : Nat
  key : Key
  stage : Stage Score

def Load.name {Score : Type} (load : Load Score) : Nat × String := (load.call, load.key.source)

structure State (Score : Type) where
  now : Int
  breakers : String → CircuitBreaker
  cache : Key → Option (Entry Score)
  loads : List (Load Score)
  /-- What the sources have answered. -/
  returned : List (Key × List (AuthorityCandidate Score))
  /-- What hits of the cache have given. -/
  served : List (Entry Score)

inductive Event (Score : Type) where
  | wait (elapsed : Nat)
  | resolveAll (call : Nat) (value entityType : String)
  | lookUp (call : Nat) (source : String)
  | admission (call : Nat) (source : String)
  | exchange (call : Nat) (source : String) (outcome : Exchange Score)
  | record (call : Nat) (source : String)
  | store (call : Nat) (source : String)
  /-- The end of the time to live, an eviction, or `clear`. -/
  | drop (key : Key)

variable {Score : Type}

namespace State

def start (now : Int) (breakers : String → CircuitBreaker) : State Score where
  now := now
  breakers := breakers
  cache := fun _ => none
  loads := []
  returned := []
  served := []

def load? (state : State Score) (call : Nat) (source : String) : Option (Load Score) :=
  state.loads.find? fun load => load.name = (call, source)

def advance (state : State Score) (load : Load Score) (stage : Stage Score) : State Score :=
  { state with
    loads := state.loads.map fun other =>
      if other.name = load.name then { load with stage := stage } else other }

def finish (state : State Score) (load : Load Score) : State Score :=
  { state with loads := state.loads.filter fun other => other.name ≠ load.name }

def setBreaker (state : State Score) (source : String) (breaker : CircuitBreaker) : State Score :=
  { state with breakers := Function.update state.breakers source breaker }

/-- The five calls that `resolve_all` submits. -/
def submit (unicode : Unicode) (state : State Score) (call : Nat) (value entityType : String) :
    State Score :=
  { state with
    loads := state.loads ++ sources.map fun source =>
      { call := call, key := keyOf unicode source value entityType, stage := .queued } }

/-- `get`: a hit gives the stored list. -/
def lookUp (state : State Score) (load : Load Score) : State Score :=
  match state.cache load.key with
  | some entry =>
    let hit := state.finish load
    { hit with served := state.served ++ [entry] }
  | none => state.advance load .missed

/-- `breaker.call` up to the call; `CircuitOpenError` becomes `[]`. -/
def admission (state : State Score) (load : Load Score) : State Score :=
  match (state.breakers load.key.source).admission state.now with
  | (breaker, .error _) =>
    (state.setBreaker load.key.source breaker).advance load
      (.loaded { candidates := [], origin := .circuitOpen })
  | (breaker, .ok _) =>
    (state.setBreaker load.key.source breaker).advance load (.trying 1)

/-- The loop body of `_resolve_with_retry`. -/
def exchange (state : State Score) (load : Load Score) (attempt : Nat) :
    Exchange Score → State Score
  | .answered candidates =>
    let answered := state.advance load (.returned { candidates := candidates, origin := .answered })
    { answered with returned := state.returned ++ [(load.key, candidates)] }
  | .caught soFar => state.advance load (.returned { candidates := soFar, origin := .failed })
  | .raised =>
    if attempt < maxAttempts then state.advance load (.trying (attempt + 1))
    else state.advance load .raised

/-- `breaker.call` after the call; any other exception becomes `[]`. -/
def record (state : State Score) (load : Load Score) : State Score :=
  let breaker := state.breakers load.key.source
  match load.stage with
  | .returned entry =>
    (state.setBreaker load.key.source breaker.recordSuccess).advance load (.loaded entry)
  | .raised =>
    (state.setBreaker load.key.source (breaker.recordFailure state.now)).advance load
      (.loaded { candidates := [], origin := .failed })
  | _ => state

/-- `set`, whatever list there is. -/
def store (state : State Score) (load : Load Score) (entry : Entry Score) : State Score :=
  let stored := state.finish load
  { stored with cache := Function.update state.cache load.key (some entry) }

def step (unicode : Unicode) (state : State Score) : Event Score → State Score
  | .wait elapsed => { state with now := state.now + elapsed }
  | .resolveAll call value entityType =>
    if state.loads.any fun load => load.call = call then state
    else state.submit unicode call value entityType
  | .lookUp call source =>
    match state.load? call source with
    | some load =>
      match load.stage with
      | .queued => state.lookUp load
      | _ => state
    | none => state
  | .admission call source =>
    match state.load? call source with
    | some load =>
      match load.stage with
      | .missed => state.admission load
      | _ => state
    | none => state
  | .exchange call source outcome =>
    match state.load? call source with
    | some load =>
      match load.stage with
      | .trying attempt => state.exchange load attempt outcome
      | _ => state
    | none => state
  | .record call source =>
    match state.load? call source with
    | some load => state.record load
    | none => state
  | .store call source =>
    match state.load? call source with
    | some load =>
      match load.stage with
      | .loaded entry => state.store load entry
      | _ => state
    | none => state
  | .drop key => { state with cache := Function.update state.cache key none }

end State

end Ukip.Authority.ResolverCache
