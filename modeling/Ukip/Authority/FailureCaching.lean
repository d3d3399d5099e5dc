import Ukip.Authority.OrderIndependence
import Ukip.Authority.ResolverCache

/-!
# Failures in the cache

The list that stands for a failure is stored like any other.  What the cache holds is what
the sources answered exactly as long as no call that misses the cache meets a failure.
-/

namespace Ukip.Authority.ResolverCache

open Foundation.EventRun
open Breaker (CircuitBreaker CircuitState)

variable {Score : Type}

def Entry.failing (entry : Entry Score) : Bool := entry.origin ≠ .answered

def Stage.entry? : Stage Score → Option (Entry Score)
  | .returned entry => some entry
  | .loaded entry => some entry
  | _ => none

def Stage.failing : Stage Score → Bool
  | .returned entry => entry.failing
  | .loaded entry => entry.failing
  | .raised => true
  | _ => false

namespace State

/-- What is cached is what the source returned for the key, and no failure is served. -/
structure Sound (state : State Score) : Prop where
  cached : ∀ key entry, state.cache key = some entry →
    entry.failing = false ∧ (key, entry.candidates) ∈ state.returned
  served : ∀ entry ∈ state.served, entry.failing = false

/-- The event meets a failure: the circuit is open, the resolver catches a failure of its
source, or the last attempt raises. -/
def meetsFailure (state : State Score) : Event Score → Bool
  | .admission call source =>
    match state.load? call source with
    | some load =>
      match load.stage with
      | .missed =>
        decide (((state.breakers load.key.source).currentState state.now).state = .opened)
      | _ => false
    | none => false
  | .exchange call source outcome =>
    match state.load? call source with
    | some load =>
      match load.stage, outcome with
      | .trying _, .answered _ => false
      | .trying _, .caught _ => true
      | .trying attempt, .raised => decide (maxAttempts ≤ attempt)
      | _, _ => false
    | none => false
  | _ => false

inductive Moves (state after : State Score) (event : Event Score) : Prop
  | stays (calm : state.meetsFailure event = false) (loads : after.loads = state.loads)
      (cache : after.cache = state.cache) (returned : after.returned = state.returned)
      (served : after.served = state.served)
  | submits (call : Nat) (queued : List (Load Score)) (calm : state.meetsFailure event = false)
      (fresh : ∀ load ∈ state.loads, load.call ≠ call)
      (isNew : ∀ load ∈ queued, load.call = call ∧ load.stage = .queued)
      (distinct : (queued.map Load.name).Nodup)
      (loads : after.loads = state.loads ++ queued) (cache : after.cache = state.cache)
      (returned : after.returned = state.returned) (served : after.served = state.served)
  | hits (load : Load Score) (entry : Entry Score) (calm : state.meetsFailure event = false)
      (member : load ∈ state.loads) (waiting : load.stage = .queued)
      (found : state.cache load.key = some entry) (loads : after.loads = (state.finish load).loads)
      (cache : after.cache = state.cache) (returned : after.returned = state.returned)
      (served : after.served = state.served ++ [entry])
  | advances (load : Load Score) (stage : Stage Score) (member : load ∈ state.loads)
      (fails : stage.failing = (load.stage.failing || state.meetsFailure event))
      (noted : ∀ entry, stage.entry? = some entry → entry.failing = false →
        load.stage.entry? = some entry ∨ (load.key, entry.candidates) ∈ after.returned)
      (loads : after.loads = (state.advance load stage).loads) (cache : after.cache = state.cache)
      (grows : ∀ answer ∈ state.returned, answer ∈ after.returned)
      (served : after.served = state.served)
  | stores (load : Load Score) (entry : Entry Score) (calm : state.meetsFailure event = false)
      (member : load ∈ state.loads) (has : load.stage = .loaded entry)
      (loads : after.loads = (state.finish load).loads)
      (cache : after.cache = Function.update state.cache load.key (some entry))
      (returned : after.returned = state.returned) (served : after.served = state.served)
  | drops (key : Key) (calm : state.meetsFailure event = false) (loads : after.loads = state.loads)
      (cache : after.cache = Function.update state.cache key none)
      (returned : after.returned = state.returned) (served : after.served = state.served)

variable {state : State Score} {load : Load Score} {source : String} {call : Nat}

theorem mem_of_load? (found : state.load? call source = some load) : load ∈ state.loads :=
  List.mem_of_find?_eq_some found

theorem moves_admission (state : State Score) (found : state.load? call source = some load)
    (missed : load.stage = .missed) :
    Moves state (state.admission load) (.admission call source) := by
  have meets : state.meetsFailure (.admission call source) =
      decide (((state.breakers load.key.source).currentState state.now).state = .opened) := by
    simp only [meetsFailure, found, missed]
  unfold admission CircuitBreaker.admission
  cases circuit : ((state.breakers load.key.source).currentState state.now).state with
  | opened =>
    simp only [circuit]
    refine .advances load (.loaded { candidates := [], origin := .circuitOpen })
      (mem_of_load? found) ?_ ?_ rfl rfl (fun _ member => member) rfl
    · simp [meets, circuit, missed, Stage.failing, Entry.failing]
    · rintro entry ⟨⟩ answered
      cases answered
  | halfOpen | closed =>
    simp only [circuit]
    refine .advances load (.trying 1) (mem_of_load? found) ?_ ?_ rfl rfl (fun _ member => member) rfl
    · simp [meets, circuit, missed, Stage.failing]
    · rintro entry ⟨⟩

theorem moves_exchange (state : State Score) {call attempt : Nat}
    (found : state.load? call source = some load) (trying : load.stage = .trying attempt)
    (outcome : Exchange Score) :
    Moves state (state.exchange load attempt outcome) (.exchange call source outcome) := by
  have member := mem_of_load? found
  cases outcome with
  | answered candidates =>
    refine .advances load (.returned { candidates := candidates, origin := .answered }) member
      ?_ ?_ rfl rfl (fun _ old => List.mem_append_left _ old) rfl
    · simp [meetsFailure, found, trying, Stage.failing, Entry.failing]
    · rintro entry ⟨⟩ _
      exact .inr (List.mem_append_right _ List.mem_cons_self)
  | caught soFar =>
    refine .advances load (.returned { candidates := soFar, origin := .failed }) member
      ?_ ?_ rfl rfl (fun _ old => old) rfl
    · simp [meetsFailure, found, trying, Stage.failing, Entry.failing]
    · rintro entry ⟨⟩ answered
      cases answered
  | raised =>
    unfold exchange
    dsimp only
    split
    · next again =>
        refine .advances load (.trying (attempt + 1)) member ?_ ?_ rfl rfl (fun _ old => old) rfl
        · simp [meetsFailure, found, trying, Stage.failing, again]
        · rintro entry ⟨⟩
    · next last =>
        refine .advances load .raised member ?_ ?_ rfl rfl (fun _ old => old) rfl
        · simp [meetsFailure, found, trying, Stage.failing, Nat.le_of_not_lt last]
        · rintro entry ⟨⟩

theorem moves_record (state : State Score) (found : state.load? call source = some load) :
    Moves state (state.record load) (.record call source) := by
  have member := mem_of_load? found
  have calm : state.meetsFailure (.record call source) = false := rfl
  unfold record
  dsimp only
  cases stage : load.stage with
  | returned entry =>
    refine .advances load (.loaded entry) member ?_ ?_ rfl rfl (fun _ old => old) rfl
    · simp [calm, stage, Stage.failing]
    · intro other same _
      exact .inl (by rw [stage]; exact same)
  | raised =>
    refine .advances load (.loaded { candidates := [], origin := .failed }) member
      ?_ ?_ rfl rfl (fun _ old => old) rfl
    · simp [stage, Stage.failing, Entry.failing]
    · rintro entry ⟨⟩ answered
      cases answered
  | queued => exact .stays calm rfl rfl rfl rfl
  | missed => exact .stays calm rfl rfl rfl rfl
  | trying attempt => exact .stays calm rfl rfl rfl rfl
  | loaded entry => exact .stays calm rfl rfl rfl rfl

theorem moves_lookUp (state : State Score) (found : state.load? call source = some load)
    (queued : load.stage = .queued) : Moves state (state.lookUp load) (.lookUp call source) := by
  have member := mem_of_load? found
  unfold lookUp
  cases cached : state.cache load.key with
  | some entry => exact .hits load entry rfl member queued cached rfl rfl rfl rfl
  | none =>
    refine .advances load .missed member ?_ ?_ rfl rfl (fun _ old => old) rfl
    · simp [queued, Stage.failing, meetsFailure]
    · rintro entry ⟨⟩

variable (unicode : Unicode)

theorem moves_submit (state : State Score) (value entityType : String)
    (fresh : ∀ load ∈ state.loads, load.call ≠ call) :
    Moves state (state.submit unicode call value entityType) (.resolveAll call value entityType) := by
  refine .submits call (sources.map fun source =>
    { call := call, key := keyOf unicode source value entityType, stage := .queued }) rfl fresh
    ?_ ?_ rfl rfl rfl rfl
  · intro load member
    obtain ⟨source, _, rfl⟩ := List.mem_map.mp member
    exact ⟨rfl, rfl⟩
  · rw [List.map_map]
    refine List.Nodup.map ?_ (by decide)
    intro first second same
    exact congrArg Prod.snd same

theorem moves_step (state : State Score) (event : Event Score) :
    Moves state (state.step unicode event) event := by
  cases event with
  | wait elapsed => exact .stays rfl rfl rfl rfl rfl
  | drop key => exact .drops key rfl rfl rfl rfl rfl
  | resolveAll call value entityType =>
    unfold step
    dsimp only
    split
    · exact .stays rfl rfl rfl rfl rfl
    · next fresh =>
        refine moves_submit unicode state value entityType fun load member same => fresh ?_
        exact List.any_eq_true.mpr ⟨load, member, by simpa using same⟩
  | lookUp call source =>
    unfold step
    dsimp only
    cases found : state.load? call source with
    | none => exact .stays rfl rfl rfl rfl rfl
    | some load =>
      dsimp only
      cases stage : load.stage with
      | queued => exact moves_lookUp state found stage
      | _ => exact .stays rfl rfl rfl rfl rfl
  | admission call source =>
    unfold step
    dsimp only
    cases found : state.load? call source with
    | none => exact .stays (by simp [meetsFailure, found]) rfl rfl rfl rfl
    | some load =>
      dsimp only
      cases stage : load.stage with
      | missed => exact moves_admission state found stage
      | _ => exact .stays (by simp [meetsFailure, found, stage]) rfl rfl rfl rfl
  | exchange call source outcome =>
    unfold step
    dsimp only
    cases found : state.load? call source with
    | none => exact .stays (by simp [meetsFailure, found]) rfl rfl rfl rfl
    | some load =>
      dsimp only
      cases stage : load.stage with
      | trying attempt => exact moves_exchange state found stage outcome
      | _ => exact .stays (by simp [meetsFailure, found, stage]) rfl rfl rfl rfl
  | record call source =>
    unfold step
    dsimp only
    cases found : state.load? call source with
    | none => exact .stays rfl rfl rfl rfl rfl
    | some load => exact moves_record state found
  | store call source =>
    unfold step
    dsimp only
    cases found : state.load? call source with
    | none => exact .stays rfl rfl rfl rfl rfl
    | some load =>
      dsimp only
      cases stage : load.stage with
      | loaded entry =>
        exact .stores load entry rfl (mem_of_load? found) stage rfl rfl rfl rfl
      | _ => exact .stays rfl rfl rfl rfl rfl

theorem mem_advance {load other : Load Score} {stage : Stage Score}
    (member : other ∈ (state.advance load stage).loads) :
    other = { load with stage := stage } ∨ other ∈ state.loads ∧ other.name ≠ load.name := by
  obtain ⟨old, inOld, rfl⟩ := List.mem_map.mp member
  by_cases same : old.name = load.name
  · exact .inl (if_pos same)
  · rw [if_neg same]
    exact .inr ⟨inOld, same⟩

theorem advanced_mem (stage : Stage Score) (member : load ∈ state.loads) :
    { load with stage := stage } ∈ (state.advance load stage).loads :=
  List.mem_map.mpr ⟨load, member, if_pos rfl⟩

theorem other_mem_advance {load other : Load Score} (stage : Stage Score)
    (member : other ∈ state.loads) (apart : other.name ≠ load.name) :
    other ∈ (state.advance load stage).loads :=
  List.mem_map.mpr ⟨other, member, if_neg apart⟩

theorem names_advance (state : State Score) (load : Load Score) (stage : Stage Score) :
    (state.advance load stage).loads.map Load.name = state.loads.map Load.name := by
  unfold advance
  rw [List.map_map]
  refine List.map_congr_left fun other _ => ?_
  by_cases same : other.name = load.name
  · simp only [Function.comp_apply, same, if_true]
    rfl
  · simp only [Function.comp_apply, same, if_false]

theorem mem_finish {load other : Load Score} :
    other ∈ (state.finish load).loads ↔ other ∈ state.loads ∧ other.name ≠ load.name := by
  simp [finish]

/-- What holds in every run: calls have names of their own, and an answer that a call or the
cache has is one that the source gave. -/
structure Noted (state : State Score) : Prop where
  distinct : (state.loads.map Load.name).Nodup
  loads : ∀ load ∈ state.loads, ∀ entry, load.stage.entry? = some entry →
    entry.failing = false → (load.key, entry.candidates) ∈ state.returned
  cached : ∀ key entry, state.cache key = some entry → entry.failing = false →
    (key, entry.candidates) ∈ state.returned

theorem Noted.eq_of_name (noted : state.Noted) {first second : Load Score}
    (inFirst : first ∈ state.loads) (inSecond : second ∈ state.loads)
    (same : first.name = second.name) : first = second :=
  List.inj_on_of_nodup_map noted.distinct inFirst inSecond same

theorem noted_start (now : Int) (breakers : String → CircuitBreaker) :
    (start now breakers : State Score).Noted where
  distinct := List.nodup_nil
  loads := fun _ member => (by cases member)
  cached := fun _ _ cached => (by cases cached)

theorem noted_step (state : State Score) (event : Event Score) (noted : state.Noted) :
    (state.step unicode event).Noted := by
  have same : ∀ {after : State Score}, after.loads = state.loads →
      (∀ key entry, after.cache key = some entry → state.cache key = some entry) →
      after.returned = state.returned → after.Noted := by
    intro after loads cache returned
    refine ⟨loads ▸ noted.distinct, ?_, ?_⟩
    · rw [loads, returned]
      exact noted.loads
    · rw [returned]
      exact fun key entry cached => noted.cached key entry (cache key entry cached)
  cases moves_step unicode state event with
  | stays _ loads cache returned _ => exact same loads (fun _ _ cached => cache ▸ cached) returned
  | drops key _ loads cache returned _ =>
    refine same loads (fun other entry cached => ?_) returned
    rw [cache] at cached
    by_cases isKey : other = key
    · rw [isKey, Function.update_self] at cached
      cases cached
    · rwa [Function.update_of_ne isKey] at cached
  | submits call queued _ fresh isNew distinct loads cache returned _ =>
    refine ⟨?_, ?_, ?_⟩
    · rw [loads, List.map_append, List.nodup_append]
      refine ⟨noted.distinct, distinct, ?_⟩
      intro name old other new equal
      obtain ⟨load, member, rfl⟩ := List.mem_map.mp old
      obtain ⟨later, laterMember, rfl⟩ := List.mem_map.mp new
      have sameCall : load.call = later.call := congrArg Prod.fst equal
      exact fresh load member (sameCall.trans (isNew later laterMember).1)
    · rw [loads, returned]
      intro load member entry has
      rcases List.mem_append.mp member with old | new
      · exact noted.loads load old entry has
      · rw [(isNew load new).2] at has
        cases has
    · rw [cache, returned]
      exact noted.cached
  | hits load entry _ _ _ _ loads cache returned _ =>
    refine ⟨?_, ?_, ?_⟩
    · rw [loads]
      exact noted.distinct.sublist (List.filter_sublist.map Load.name)
    · rw [loads, returned]
      exact fun other member => noted.loads other (mem_finish.mp member).1
    · rw [cache, returned]
      exact noted.cached
  | advances load stage member _ answered loads cache grows _ =>
    refine ⟨?_, ?_, ?_⟩
    · rw [loads, names_advance]
      exact noted.distinct
    · rw [loads]
      intro other otherMember entry has fine
      rcases mem_advance otherMember with rfl | ⟨old, _⟩
      · rcases answered entry has fine with before | now
        · exact grows _ (noted.loads load member entry before fine)
        · exact now
      · exact grows _ (noted.loads other old entry has fine)
    · rw [cache]
      exact fun key entry cached fine => grows _ (noted.cached key entry cached fine)
  | stores load entry _ member has loads cache returned _ =>
    refine ⟨?_, ?_, ?_⟩
    · rw [loads]
      exact noted.distinct.sublist (List.filter_sublist.map Load.name)
    · rw [loads, returned]
      exact fun other member => noted.loads other (mem_finish.mp member).1
    · rw [cache, returned]
      intro key other cached fine
      by_cases isKey : key = load.key
      · rw [isKey, Function.update_self] at cached
        cases cached
        rw [isKey]
        exact noted.loads load member entry (by rw [has]; rfl) fine
      · rw [Function.update_of_ne isKey] at cached
        exact noted.cached key other cached fine

structure Calm (state : State Score) : Prop where
  noted : state.Noted
  loads : ∀ load ∈ state.loads, load.stage.failing = false
  sound : state.Sound

theorem calm_start (now : Int) (breakers : String → CircuitBreaker) :
    (start now breakers : State Score).Calm where
  noted := noted_start now breakers
  loads := fun _ member => (by cases member)
  sound := ⟨fun _ _ cached => (by cases cached), fun _ served => (by cases served)⟩

theorem calm_step (state : State Score) (event : Event Score) (calm : state.Calm)
    (meets : state.meetsFailure event = false) : (state.step unicode event).Calm := by
  have noted := noted_step unicode state event calm.noted
  have ofCache : (∀ key entry, (state.step unicode event).cache key = some entry →
      entry.failing = false) → (∀ entry ∈ (state.step unicode event).served,
        entry.failing = false) → (state.step unicode event).Sound :=
    fun fine served => ⟨fun key entry cached =>
      ⟨fine key entry cached, noted.cached key entry cached (fine key entry cached)⟩, served⟩
  have cachedFine : ∀ key entry, state.cache key = some entry → entry.failing = false :=
    fun key entry cached => (calm.sound.cached key entry cached).1
  cases moves_step unicode state event with
  | stays _ loads cache _ served =>
    refine ⟨noted, loads ▸ calm.loads, ofCache ?_ ?_⟩
    · rw [cache]
      exact cachedFine
    · rw [served]
      exact calm.sound.served
  | drops key _ loads cache _ served =>
    refine ⟨noted, loads ▸ calm.loads, ofCache ?_ ?_⟩
    · rw [cache]
      intro other entry cached
      by_cases isKey : other = key
      · rw [isKey, Function.update_self] at cached
        cases cached
      · rw [Function.update_of_ne isKey] at cached
        exact cachedFine other entry cached
    · rw [served]
      exact calm.sound.served
  | submits call queued _ _ isNew _ loads cache _ served =>
    refine ⟨noted, ?_, ofCache ?_ ?_⟩
    · rw [loads]
      intro load member
      rcases List.mem_append.mp member with old | new
      · exact calm.loads load old
      · rw [(isNew load new).2]
        rfl
    · rw [cache]
      exact cachedFine
    · rw [served]
      exact calm.sound.served
  | hits load entry _ _ _ found loads cache _ served =>
    refine ⟨noted, ?_, ofCache ?_ ?_⟩
    · rw [loads]
      exact fun other member => calm.loads other (mem_finish.mp member).1
    · rw [cache]
      exact cachedFine
    · rw [served]
      intro other member
      rcases List.mem_append.mp member with old | new
      · exact calm.sound.served other old
      · rw [List.mem_singleton.mp new]
        exact cachedFine load.key entry found
  | advances load stage member fails _ loads cache _ served =>
    refine ⟨noted, ?_, ofCache ?_ ?_⟩
    · rw [loads]
      intro other otherMember
      rcases mem_advance otherMember with rfl | ⟨old, _⟩
      · rw [fails, calm.loads load member, meets]
        rfl
      · exact calm.loads other old
    · rw [cache]
      exact cachedFine
    · rw [served]
      exact calm.sound.served
  | stores load entry _ member has loads cache _ served =>
    refine ⟨noted, ?_, ofCache ?_ ?_⟩
    · rw [loads]
      exact fun other member => calm.loads other (mem_finish.mp member).1
    · rw [cache]
      intro key other cached
      by_cases isKey : key = load.key
      · rw [isKey, Function.update_self] at cached
        cases cached
        have fine := calm.loads load member
        rwa [has] at fine
      · rw [Function.update_of_ne isKey] at cached
        exact cachedFine key other cached
    · rw [served]
      exact calm.sound.served

def Failing (state : State Score) : Prop := ∃ load ∈ state.loads, load.stage.failing = true

theorem failing_of_meetsFailure (state : State Score) (event : Event Score)
    (meets : state.meetsFailure event = true) : (state.step unicode event).Failing := by
  have noisy : state.meetsFailure event ≠ false := by
    rw [meets]
    decide
  cases moves_step unicode state event with
  | advances load stage member fails _ loads _ _ _ =>
    refine ⟨{ load with stage := stage }, ?_, ?_⟩
    · rw [loads]
      exact advanced_mem stage member
    · rw [fails, meets, Bool.or_true]
  | stays calm => exact absurd calm noisy
  | drops _ calm => exact absurd calm noisy
  | submits _ _ calm => exact absurd calm noisy
  | hits _ _ calm => exact absurd calm noisy
  | stores _ _ calm => exact absurd calm noisy

theorem failing_step (state : State Score) (event : Event Score) (noted : state.Noted)
    (failing : state.Failing) :
    (state.step unicode event).Failing ∨ ¬(state.step unicode event).Sound := by
  obtain ⟨load, member, fails⟩ := failing
  cases moves_step unicode state event with
  | stays _ loads _ _ _ => exact .inl ⟨load, loads ▸ member, fails⟩
  | drops key _ loads _ _ _ => exact .inl ⟨load, loads ▸ member, fails⟩
  | submits call queued _ _ _ _ loads _ _ _ =>
    exact .inl ⟨load, by rw [loads]; exact List.mem_append_left _ member, fails⟩
  | hits other entry _ otherMember waiting _ loads _ _ _ =>
    have apart : load.name ≠ other.name := by
      intro same
      rw [noted.eq_of_name member otherMember same, waiting] at fails
      cases fails
    exact .inl ⟨load, by rw [loads]; exact mem_finish.mpr ⟨member, apart⟩, fails⟩
  | advances other stage otherMember moved _ loads _ _ _ =>
    by_cases same : load.name = other.name
    · have isOther := noted.eq_of_name member otherMember same
      refine .inl ⟨{ other with stage := stage }, ?_, ?_⟩
      · rw [loads]
        exact advanced_mem stage otherMember
      · rw [moved, ← isOther, fails, Bool.true_or]
    · exact .inl ⟨load, by rw [loads]; exact other_mem_advance stage member same, fails⟩
  | stores other entry _ otherMember has loads cache _ _ =>
    by_cases same : load.name = other.name
    · right
      intro sound
      have fine := (sound.cached other.key entry (by rw [cache, Function.update_self])).1
      rw [noted.eq_of_name member otherMember same, has] at fails
      have failed : entry.failing = true := fails
      rw [failed] at fine
      cases fine
    · exact .inl ⟨load, by rw [loads]; exact mem_finish.mpr ⟨member, same⟩, fails⟩

theorem not_sound_of_failing (state : State Score) (events : List (Event Score))
    (noted : state.Noted) (failing : state.Failing)
    (complete : (runEvents (step unicode) state events).loads = []) :
    ¬EveryState (step unicode) Sound state events := by
  induction events generalizing state with
  | nil =>
    obtain ⟨load, member, _⟩ := failing
    rw [runEvents] at complete
    rw [complete] at member
    cases member
  | cons event rest ih =>
    rintro ⟨_, later⟩
    rcases failing_step unicode state event noted failing with still | unsound
    · exact ih _ (noted_step unicode state event noted) still complete later
    · cases rest with
      | nil => exact unsound later
      | cons _ _ => exact unsound later.1

theorem calm_of_sound (state : State Score) (events : List (Event Score)) (noted : state.Noted)
    (complete : (runEvents (step unicode) state events).loads = [])
    (sound : EveryState (step unicode) Sound state events) :
    EveryStep (step unicode) (fun state event => state.meetsFailure event = false) state events := by
  induction events generalizing state with
  | nil => trivial
  | cons event rest ih =>
    have next := noted_step unicode state event noted
    refine ⟨?_, ih _ next complete sound.2⟩
    by_contra meets
    have failing := failing_of_meetsFailure unicode state event (Bool.eq_true_of_not_eq_false meets)
    exact not_sound_of_failing unicode _ rest next failing complete sound.2

/-- For every sequence of calls, every interleaving of their steps and every pattern of
failures: while no call meets a failure, the cache holds and serves only what the sources
answered; and where every call comes to its end, it does so only then. -/
theorem failures_not_memoised_iff (unicode : Unicode) (now : Int)
    (breakers : String → CircuitBreaker) (events : List (Event Score)) :
    (EveryStep (step unicode) (fun state event => state.meetsFailure event = false)
        (start now breakers) events →
      EveryState (step unicode) Sound (start now breakers) events) ∧
    ((runEvents (step unicode) (start now breakers) events).loads = [] →
      EveryState (step unicode) Sound (start now breakers) events →
        EveryStep (step unicode) (fun state event => state.meetsFailure event = false)
          (start now breakers) events) := by
  constructor
  · intro calm
    have every := everyState_of_guard (calm_step unicode) (start now breakers) events
      (calm_start now breakers) calm
    exact everyState_mono (fun _ holds => holds.sound) _ _ every
  · exact calm_of_sound unicode (start now breakers) events (noted_start now breakers)

end State

section Outage

/-- `_BREAKERS` -/
def freshBreakers : String → CircuitBreaker := CircuitBreaker.withDefaults

def loadEvents (call : Nat) (source : String) (outcome : Exchange Nat) : List (Event Nat) :=
  [.lookUp call source, .admission call source, .exchange call source outcome, .record call source,
    .store call source]

def allAnswer : List (Event Nat) :=
  .resolveAll 1 "Curie, Marie" "person" ::
    (loadEvents 1 "wikidata" (.answered [sampleCandidate "wikidata" "Q7186" "Marie Curie"]) ++
      loadEvents 1 "viaf" (.answered []) ++ loadEvents 1 "orcid" (.answered []) ++
        loadEvents 1 "dbpedia" (.answered []) ++ loadEvents 1 "openalex" (.answered []))

theorem failures_not_memoised_all_answer :
    EveryState (State.step sampleUnicode) State.Sound (State.start 0 freshBreakers) allAnswer ∧
      EveryStep (State.step sampleUnicode) (fun state event => state.meetsFailure event = false)
        (State.start 0 freshBreakers) allAnswer := by
  have both := State.failures_not_memoised_iff sampleUnicode 0 freshBreakers allAnswer
  have sound := both.1 (by decide +kernel)
  exact ⟨sound, both.2 (by decide +kernel) sound⟩

def timedOut : List (Event Nat) :=
  .resolveAll 1 "Curie, Marie" "person" ::
    (loadEvents 1 "wikidata" (.caught []) ++
      [.wait 86400000000, .resolveAll 2 "curie  marie" "person", .lookUp 2 "wikidata"])

/-- The empty list of the failure is the answer of the next day. -/
theorem timeout_memoised :
    ¬EveryState (State.step sampleUnicode) State.Sound (State.start 0 freshBreakers) timedOut ∧
      (runEvents (State.step sampleUnicode) (State.start 0 freshBreakers) timedOut).served =
        [{ candidates := [], origin := .failed }] := by
  have served : (runEvents (State.step sampleUnicode) (State.start 0 freshBreakers)
      timedOut).served = [{ candidates := [], origin := .failed }] := by
    decide +kernel
  refine ⟨fun sound => ?_, served⟩
  have atEnd := (everyState_iff_front _ _).mp sound timedOut [] (List.append_nil _).symm
  have fine := atEnd.served { candidates := [], origin := .failed } (by
    rw [served]
    exact List.mem_cons_self)
  cases fine

end Outage

end Ukip.Authority.ResolverCache
