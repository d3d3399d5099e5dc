import Ukip.Authority.CacheTransparency
import Ukip.Authority.HierarchicalFallback

/-!
# Sequences of calls under two backends

The backends answer alike as long as what stands in the objects shows in no call: callers
change scored columns only, and a candidate that an earlier call merged is merged again.
-/

namespace Ukip.Authority.CacheBackends

open Foundation.EventRun Foundation.ObjectHeap
open Authority.ResolverCache (Key keyOf sources)

variable {Score : Type} (unicode : Unicode) (fuzz : Fuzz)

/-- An object of the cache keeps, in the mutation of a result, the columns that a call does
not score. -/
def MutationKeeps (state : State Score) : Event Score → Prop
  | .resolveAll _ => True
  | .mutate result position value => ∀ address ∈ state.returned? result position,
      state.holds address = true → Unscored value (state.heap.cells address)

/-- What each step of the two caches side by side needs. -/
def Kept (pair : State Score × State Score) : Event Score → Prop
  | .resolveAll call => AloneAsGiven unicode fuzz (pairsOf unicode call pair.1 pair.2)
  | .mutate result position value => MutationKeeps pair.1 (.mutate result position value)

def stepBoth [LinearOrder Score] (pair : State Score × State Score) (event : Event Score) :
    State Score × State Score :=
  (pair.1.step unicode fuzz .inProcess event, pair.2.step unicode fuzz .redis event)

def Event.isCall : Event Score → Bool
  | .resolveAll _ => true
  | .mutate _ _ _ => false

/-- The same answers with both backends, and the same ones without the mutations. -/
structure Transparent [LinearOrder Score] (heap : Heap (AuthorityCandidate Score))
    (events : List (Event Score)) : Prop where
  backends : (State.start heap).answers unicode fuzz .inProcess events =
    (State.start heap).answers unicode fuzz .redis events
  unmutated : ∀ backend, (State.start heap).answers unicode fuzz backend events =
    (State.start heap).answers unicode fuzz backend (events.filter Event.isCall)

section Decidability

instance (state : State Score) (event : Event Score) : Decidable (MutationKeeps state event) :=
  match event with
  | .resolveAll _ => inferInstanceAs (Decidable True)
  | .mutate result position value =>
    inferInstanceAs (Decidable (∀ address ∈ state.returned? result position,
      state.holds address = true → Unscored value (state.heap.cells address)))

instance (pair : State Score × State Score) (event : Event Score) :
    Decidable (Kept unicode fuzz pair event) :=
  match event with
  | .resolveAll call =>
    inferInstanceAs (Decidable (AloneAsGiven unicode fuzz (pairsOf unicode call pair.1 pair.2)))
  | .mutate result position value =>
    inferInstanceAs (Decidable (MutationKeeps pair.1 (.mutate result position value)))

end Decidability

variable {unicode fuzz}

variable (backend : Backend)

theorem snd_resolveAll [LinearOrder Score] {state : State Score} (placed : state.Placed)
    (call : Call Score) :
    (state.resolveAll unicode fuzz backend call).2 =
      answerOf unicode fuzz call (call.completed.flatMap fun source =>
        state.valuesOf (call.key unicode source) (call.answer source)) := by
  have distinct : call.completed.Nodup := call.complete.nodup_iff.mpr (by decide)
  have gathered := (state.map_cells_gather backend unicode call placed call.completed distinct).1
  rw [← gathered, ← Heap.map_snd_read, ← map_snd_shownObjects]
  rfl

theorem zip_of_map_eq {Item Column : Type} (column : Item → Column) {first second : List Item}
    (same : first.map column = second.map column) :
    (first.zip second).map Prod.fst = first ∧ (first.zip second).map Prod.snd = second ∧
      ∀ pair ∈ first.zip second, column pair.1 = column pair.2 := by
  induction first generalizing second with
  | nil =>
    cases second with
    | nil => exact ⟨rfl, rfl, fun _ member => (by cases member)⟩
    | cons head rest => cases same
  | cons head rest ih =>
    cases second with
    | nil => cases same
    | cons other others =>
      obtain ⟨equal, later⟩ := List.cons.inj same
      obtain ⟨left, right, each⟩ := ih later
      refine ⟨congrArg (head :: ·) left, congrArg (other :: ·) right, ?_⟩
      intro pair member
      rcases List.mem_cons.mp member with rfl | inside
      · exact equal
      · exact each pair inside

variable {live wire : State Score}

theorem snd_resolveAll_eq [LinearOrder Score] (tracks : State.Tracks live wire) (call : Call Score)
    (alone : AloneAsGiven unicode fuzz (pairsOf unicode call live wire)) :
    (live.resolveAll unicode fuzz .inProcess call).2 =
      (wire.resolveAll unicode fuzz .redis call).2 := by
  have sides := fun source => zip_of_map_eq sourceColumns
    (tracks.columns (call.key unicode source) (call.answer source))
  have first : (pairsOf unicode call live wire).map Prod.fst = call.completed.flatMap fun source =>
      live.valuesOf (call.key unicode source) (call.answer source) := by
    rw [pairsOf, List.map_flatMap]
    exact List.flatMap_congr fun source _ => (sides source).1
  have second : (pairsOf unicode call live wire).map Prod.snd = call.completed.flatMap fun source =>
      wire.valuesOf (call.key unicode source) (call.answer source) := by
    rw [pairsOf, List.map_flatMap]
    exact List.flatMap_congr fun source _ => (sides source).2.1
  have columns : ∀ pair ∈ pairsOf unicode call live wire,
      sourceColumns pair.1 = sourceColumns pair.2 := by
    intro pair member
    obtain ⟨source, _, inside⟩ := List.mem_flatMap.mp member
    exact (sides source).2.2 pair inside
  rw [snd_resolveAll .inProcess tracks.placed, snd_resolveAll .redis tracks.placed_wire, ← first,
    ← second]
  exact answerOf_pairs call _ columns alone

theorem tracks_resolveAll [LinearOrder Score] (tracks : State.Tracks live wire) (call : Call Score) :
    State.Tracks (live.resolveAll unicode fuzz .inProcess call).1
      (wire.resolveAll unicode fuzz .redis call).1 := by
  have gathered := State.tracks_gather unicode call tracks call.completed
  refine State.tracks_write gathered _ ?_ (Heap.write_append _ _ _).symm rfl rfl
  have scored : ∀ object ∈ ((live.gather .inProcess unicode call call.completed).1.heap.read
      (live.gather .inProcess unicode call call.completed).2).map
        (fun object => (object.1, call.scored object.2)),
      sourceColumns object.2 =
        sourceColumns ((live.gather .inProcess unicode call call.completed).1.heap.cells object.1) := by
    intro object member
    obtain ⟨old, inRead, rfl⟩ := List.mem_map.mp member
    obtain ⟨address, _, rfl⟩ := List.mem_map.mp inRead
    rfl
  intro object member
  rcases List.mem_append.mp member with inScored | inMerged
  · exact scored object inScored
  · obtain ⟨old, oldMember, sameAddress, columns⟩ :=
      exists_of_mem_deduplicateObjects unicode fuzz inMerged
    rw [columns, sameAddress]
    exact scored old oldMember

theorem holds_of_lookup {cache : List (Key × Stored Score)} {key : Key} {addresses : List Nat}
    (found : cache.lookup key = some (.live addresses)) {address : Nat}
    (member : address ∈ addresses) (heap : Heap (AuthorityCandidate Score))
    (results : List (List Nat)) :
    (State.mk heap cache results).holds address = true := by
  induction cache with
  | nil => cases found
  | cons entry rest ih =>
    rw [State.holds, List.any_cons, Bool.or_eq_true]
    rw [List.lookup_cons] at found
    split at found
    · cases entry with
      | mk other stored =>
        cases found
        exact .inl (by simpa using member)
    · exact .inr (ih found)

theorem cells_write_single (heap : Heap (AuthorityCandidate Score)) (address other : Nat)
    (value : AuthorityCandidate Score) :
    (heap.write [(address, value)]).cells other = if other = address then value else heap.cells other := by
  by_cases here : other = address <;> simp [Heap.write, here]

variable {value : AuthorityCandidate Score} {result position : Nat}

theorem tracks_mutate (tracks : State.Tracks live wire)
    (keeps : MutationKeeps live (.mutate result position value)) :
    State.Tracks (live.mutate result position value) (wire.mutate result position value) := by
  have wireCache : (wire.mutate result position value).cache = wire.cache := by
    unfold State.mutate
    split <;> rfl
  unfold State.mutate at *
  cases returned : live.returned? result position with
  | none => exact ⟨tracks.placed, fun key => by rw [wireCache]; exact tracks.keys key⟩
  | some address =>
    refine ⟨?_, fun key => ?_⟩
    · intro key addresses found other member
      rw [Heap.next_write]
      exact tracks.placed key addresses found other member
    · rw [wireCache]
      refine (tracks.keys key).of_cells fun addresses found other member => ?_
      rw [cells_write_single]
      split
      · next here =>
          have held := holds_of_lookup found member live.heap live.results
          rw [here] at held ⊢
          exact (keeps address returned held).1
      · rfl

theorem answers_resolveAll [LinearOrder Score] (state : State Score) (call : Call Score)
    (rest : List (Event Score)) :
    state.answers unicode fuzz backend (.resolveAll call :: rest) =
      (state.resolveAll unicode fuzz backend call).2 ::
        (state.resolveAll unicode fuzz backend call).1.answers unicode fuzz backend rest := rfl

theorem answers_eq_of_kept [LinearOrder Score] (tracks : State.Tracks live wire)
    (events : List (Event Score))
    (kept : EveryStep (stepBoth unicode fuzz) (Kept unicode fuzz) (live, wire) events) :
    live.answers unicode fuzz .inProcess events = wire.answers unicode fuzz .redis events := by
  induction events generalizing live wire with
  | nil => rfl
  | cons event rest ih =>
    cases event with
    | resolveAll call =>
      have later := ih (tracks_resolveAll tracks call) kept.2
      rw [answers_resolveAll, answers_resolveAll, snd_resolveAll_eq tracks call kept.1, later]
    | mutate result position value => exact ih (tracks_mutate tracks kept.1) kept.2

/-- Two states of one backend that have the same objects, up to scores, in the cache and at
the other addresses. -/
structure Alike (first second : State Score) (others : List Nat) : Prop where
  cache : first.cache = second.cache
  next : first.heap.next = second.heap.next
  cells : ∀ address, first.holds address = true ∨ address ∈ others →
    Unscored (first.heap.cells address) (second.heap.cells address)

variable (state : State Score)

theorem alike_refl : Alike state state [] :=
  ⟨rfl, rfl, fun _ _ => ⟨rfl, rfl⟩⟩

variable {first second : State Score} {others : List Nat}

theorem alike_alloc (alike : Alike first second others) (values : List (AuthorityCandidate Score))
    (address : Nat)
    (known : first.holds address = true ∨ address ∈ others ∨ address ∈ (first.heap.alloc values).2) :
    Unscored ((first.heap.alloc values).1.cells address)
      ((second.heap.alloc values).1.cells address) := by
  have sameAddresses : (first.heap.alloc values).2 = (second.heap.alloc values).2 := by
    simp only [Heap.alloc, alike.next]
  have inNew : ∀ address ∈ (first.heap.alloc values).2,
      (first.heap.alloc values).1.cells address = (second.heap.alloc values).1.cells address := by
    have both := (first.heap.map_cells_alloc values).trans (second.heap.map_cells_alloc values).symm
    rw [← sameAddresses] at both
    exact List.map_inj_left.mp both
  rcases first.heap.cells_alloc_cases second.heap alike.next values address with same | ⟨left, right⟩
  · rw [same]
    exact ⟨rfl, rfl⟩
  · rcases known with held | inOthers | isNew
    · rw [left, right]
      exact alike.cells address (.inl held)
    · rw [left, right]
      exact alike.cells address (.inr inOthers)
    · rw [inNew address isNew]
      exact ⟨rfl, rfl⟩

theorem alike_loadAndSet (alike : Alike first second others) (key : Key)
    (loaded : List (AuthorityCandidate Score)) :
    (first.loadAndSet backend key loaded).2 = (second.loadAndSet backend key loaded).2 ∧
      Alike (first.loadAndSet backend key loaded).1 (second.loadAndSet backend key loaded).1
        (others ++ (first.loadAndSet backend key loaded).2) := by
  have sameAddresses : (first.heap.alloc loaded).2 = (second.heap.alloc loaded).2 := by
    simp only [Heap.alloc, alike.next]
  refine ⟨sameAddresses, ?_, ?_, ?_⟩
  · simp only [State.loadAndSet, alike.cache, sameAddresses]
  · simp only [State.loadAndSet, Heap.next_alloc, alike.next]
  · intro address known
    refine alike_alloc alike loaded address ?_
    rcases known with held | member
    · rw [State.holds, State.loadAndSet, List.any_cons, Bool.or_eq_true] at held
      rcases held with isNew | old
      · cases backend with
        | inProcess => exact .inr (.inr (by simpa using isNew))
        | redis => cases isNew
      · exact .inl old
    · exact .inr (List.mem_append.mp member)

theorem alike_getOrLoad (alike : Alike first second others) (key : Key)
    (loaded : List (AuthorityCandidate Score)) :
    (first.getOrLoad backend key loaded).2 = (second.getOrLoad backend key loaded).2 ∧
      Alike (first.getOrLoad backend key loaded).1 (second.getOrLoad backend key loaded).1
        (others ++ (first.getOrLoad backend key loaded).2) := by
  unfold State.getOrLoad
  rw [← alike.cache]
  cases found : first.cache.lookup key with
  | none => exact alike_loadAndSet backend alike key loaded
  | some stored =>
    cases stored with
    | live addresses =>
      refine ⟨rfl, alike.cache, alike.next, fun address known => ?_⟩
      rcases known with held | member
      · exact alike.cells address (.inl held)
      · rcases List.mem_append.mp member with inOthers | inCache
        · exact alike.cells address (.inr inOthers)
        · exact alike.cells address
            (.inl (holds_of_lookup found inCache first.heap first.results))
    | json value =>
      cases read : deserializeCandidates value with
      | none =>
        simp only [read]
        exact alike_loadAndSet backend alike key loaded
      | some copies =>
        simp only [read]
        refine ⟨?_, rfl, ?_, fun address known => ?_⟩
        · simp only [Heap.alloc, alike.next]
        · simp only [Heap.next_alloc, alike.next]
        · exact alike_alloc alike copies address (known.imp_right List.mem_append.mp)

theorem alike_gather (unicode : Unicode) (call : Call Score) (alike : Alike first second others)
    (names : List String) :
    (first.gather backend unicode call names).2 = (second.gather backend unicode call names).2 ∧
      Alike (first.gather backend unicode call names).1 (second.gather backend unicode call names).1
        (others ++ (first.gather backend unicode call names).2) := by
  induction names generalizing first second others with
  | nil => exact ⟨rfl, by rw [State.gather, List.append_nil]; exact alike⟩
  | cons source rest ih =>
    obtain ⟨addresses, loaded⟩ :=
      alike_getOrLoad backend alike (call.key unicode source) (call.answer source)
    obtain ⟨later, gathered⟩ := ih loaded
    refine ⟨?_, ?_⟩
    · simp only [State.gather, addresses, later]
    · simp only [State.gather]
      rw [← List.append_assoc]
      exact gathered

theorem alike_resolveAll [LinearOrder Score] (call : Call Score) (alike : Alike first second []) :
    (first.resolveAll unicode fuzz backend call).2 = (second.resolveAll unicode fuzz backend call).2 ∧
      Alike (first.resolveAll unicode fuzz backend call).1
        (second.resolveAll unicode fuzz backend call).1 [] := by
  obtain ⟨addresses, gathered⟩ := alike_gather backend unicode call alike call.completed
  have scored : ((first.gather backend unicode call call.completed).1.heap.read
        (first.gather backend unicode call call.completed).2).map
          (fun object => (object.1, call.scored object.2)) =
      ((second.gather backend unicode call call.completed).1.heap.read
        (second.gather backend unicode call call.completed).2).map
          fun object => (object.1, call.scored object.2) := by
    rw [← addresses, Heap.read, Heap.read, List.map_map, List.map_map]
    refine List.map_congr_left fun address member => ?_
    have same := gathered.cells address (.inr (List.mem_append_right _ member))
    exact congrArg (Prod.mk address) (scored_of_unscored call same)
  refine ⟨?_, gathered.cache, ?_, fun address known => ?_⟩
  · simp only [State.resolveAll, shownObjects, scored]
  · simp only [State.resolveAll, Heap.next_write, gathered.next]
  · simp only [State.resolveAll, scored]
    rw [← Heap.write_append, ← Heap.write_append]
    have held : (first.gather backend unicode call call.completed).1.holds address = true :=
      known.resolve_right fun member => (by cases member)
    rcases Heap.cells_write_cases _ _ _ address with same | ⟨left, right⟩
    · rw [same]
      exact ⟨rfl, rfl⟩
    · rw [left, right]
      exact gathered.cells address (.inl held)

theorem alike_mutate (alike : Alike first second [])
    (keeps : MutationKeeps first (.mutate result position value)) :
    Alike (first.mutate result position value) second [] := by
  unfold State.mutate
  cases returned : first.returned? result position with
  | none => exact alike
  | some address =>
    refine ⟨alike.cache, by simpa using alike.next, fun other known => ?_⟩
    have held : first.holds other = true := known.resolve_right fun member => (by cases member)
    have before := alike.cells other (.inl held)
    simp only [cells_write_single]
    split
    · next here =>
        rw [here] at held before
        have kept := keeps address returned held
        rw [here]
        exact ⟨kept.1.trans before.1, kept.2.trans before.2⟩
    · exact before

theorem answers_filter [LinearOrder Score] (alike : Alike first second [])
    (events : List (Event Score))
    (keeps : EveryStep (State.step unicode fuzz backend) MutationKeeps first events) :
    first.answers unicode fuzz backend events =
      second.answers unicode fuzz backend (events.filter Event.isCall) := by
  induction events generalizing first second with
  | nil => rfl
  | cons event rest ih =>
    cases event with
    | resolveAll call =>
      obtain ⟨answer, after⟩ := alike_resolveAll backend call alike
      have isCall : Event.isCall (.resolveAll call) = true := rfl
      rw [List.filter_cons_of_pos isCall, answers_resolveAll, answers_resolveAll, answer,
        ih after keeps.2]
    | mutate result position value =>
      have noCall : ¬Event.isCall (Event.mutate result position value) = true := by
        simp [Event.isCall]
      rw [List.filter_cons_of_neg noCall]
      exact ih (alike_mutate alike keeps.1) keeps.2

theorem holds_getOrLoad_redis (key : Key) (loaded : List (AuthorityCandidate Score)) (address : Nat) :
    (state.getOrLoad .redis key loaded).1.holds address = state.holds address := by
  have missed : (state.loadAndSet .redis key loaded).1.holds address = state.holds address := rfl
  unfold State.getOrLoad
  split
  · rfl
  · split
    · rfl
    · exact missed
  · exact missed

theorem holds_gather_redis (unicode : Unicode) (call : Call Score) (state : State Score)
    (names : List String) (address : Nat) :
    (state.gather .redis unicode call names).1.holds address = state.holds address := by
  induction names generalizing state with
  | nil => rfl
  | cons source rest ih =>
    rw [State.gather]
    exact (ih _).trans (holds_getOrLoad_redis state _ _ address)

theorem holds_step_redis [LinearOrder Score] (event : Event Score) (address : Nat) :
    (state.step unicode fuzz .redis event).holds address = state.holds address := by
  cases event with
  | resolveAll call => exact holds_gather_redis unicode call state call.completed address
  | mutate result position value =>
    rw [State.step, State.mutate]
    split <;> rfl

theorem mutationKeeps_redis [LinearOrder Score] (events : List (Event Score))
    (copies : ∀ address, state.holds address = false) :
    EveryStep (State.step unicode fuzz .redis) MutationKeeps state events := by
  induction events generalizing state with
  | nil => trivial
  | cons event rest ih =>
    refine ⟨?_, ih _ fun address => (holds_step_redis state event address).trans (copies address)⟩
    cases event with
    | resolveAll call => trivial
    | mutate result position value =>
      intro address _ held
      rw [copies address] at held
      cases held

theorem mutationKeeps_of_kept [LinearOrder Score] (pair : State Score × State Score)
    (events : List (Event Score)) (kept : EveryStep (stepBoth unicode fuzz) (Kept unicode fuzz) pair events) :
    EveryStep (State.step unicode fuzz .inProcess) MutationKeeps pair.1 events := by
  induction events generalizing pair with
  | nil => trivial
  | cons event rest ih =>
    refine ⟨?_, ih _ kept.2⟩
    cases event with
    | resolveAll call => trivial
    | mutate result position value => exact kept.1

/-- For every sequence of calls, in any contexts and with any answers of the sources, and
every mutation of results between them: the backends are transparent if mutations keep the
columns that no call scores, and no candidate that an earlier call merged stands alone. -/
theorem transparent_of_kept [LinearOrder Score] (unicode : Unicode) (fuzz : Fuzz)
    (heap : Heap (AuthorityCandidate Score)) (events : List (Event Score))
    (kept : EveryStep (stepBoth unicode fuzz) (Kept unicode fuzz)
      (State.start heap, State.start heap) events) : Transparent unicode fuzz heap events where
  backends := answers_eq_of_kept (State.tracks_start heap) events kept
  unmutated := by
    intro backend
    refine answers_filter backend (alike_refl _) events ?_
    cases backend with
    | inProcess => exact mutationKeeps_of_kept _ events kept
    | redis => exact mutationKeeps_redis _ events fun _ => rfl

section Sample

def emptyHeap : Heap (AuthorityCandidate Nat) where
  cells := fun _ => sampleCandidate "" "" ""
  next := 0

def scoreBySource (added : Nat) (source : String) : String → String → Option String → Scored Nat :=
  fun _ _ _ =>
    { score := 500 + 50 * sourcePriority source + added
      breakdown := [("identifiers", 500)]
      evidence := ["source_quality"]
      resolutionStatus := "probable_match" }

def twoSpellings : String → List (AuthorityCandidate Nat)
  | "viaf" => [sampleCandidate "viaf" "95" "Katharine Martin"]
  | "wikidata" => [sampleCandidate "wikidata" "Q1" "Katherine Martin"]
  | _ => []

def martinCall (added : Nat) : Call Nat where
  value := "Katharine Martin"
  entityType := "person"
  computeScore := scoreBySource added
  answer := twoSpellings
  completed := sources
  complete := List.Perm.refl sources

/-- A caller marks the candidate, and the name is resolved again with another context. -/
def markedMartin : List (Event Nat) :=
  [.resolveAll (martinCall 0),
    .mutate 0 0 { sampleCandidate "viaf" "95" "Katharine Martin" with
      mergedSources := ["wikidata:Q1"], evidence := ["reviewed"], resolutionStatus := "exact_match" },
    .resolveAll (martinCall 120)]

theorem transparent_marked_martin : Transparent sampleUnicode sampleFuzz emptyHeap markedMartin :=
  transparent_of_kept sampleUnicode sampleFuzz emptyHeap markedMartin (by decide +kernel)

def threeSpellings : String → List (AuthorityCandidate Nat)
  | "openalex" => [sampleCandidate "openalex" "A5" "Katherine Martin"]
  | "viaf" => [sampleCandidate "viaf" "95" "Katharine Martin"]
  | "wikidata" => [sampleCandidate "wikidata" "Q1" "Catharine Martin"]
  | _ => []

/-- The candidate of OpenAlex is merged with that of VIAF where it completes first, and
stands alone where Wikidata does. -/
def spellingsCall (completed : List String) (complete : completed.Perm sources) : Call Nat where
  value := "Katharine Martin"
  entityType := "person"
  computeScore := scoreBySource 0
  answer := threeSpellings
  completed := completed
  complete := complete

def otherOrder : List (Event Nat) :=
  [.resolveAll (spellingsCall ["openalex", "viaf", "wikidata", "orcid", "dbpedia"] (by decide)),
    .resolveAll (spellingsCall ["wikidata", "viaf", "openalex", "orcid", "dbpedia"] (by decide))]

def instituteCall : Call Nat where
  value := "Max Planck Institute Berlin"
  entityType := "institution"
  computeScore := scoreBySource 0
  answer
    | "wikidata" => [sampleCandidate "wikidata" "Q158085" "Max Planck Institute"]
    | _ => []
  completed := sources
  complete := List.Perm.refl sources

/-- `apply_hierarchical_fallback` on the result, and the same call again. -/
def markedAncestor : List (Event Nat) :=
  [.resolveAll instituteCall,
    .mutate 0 0 (markAncestor sampleUnicode 350
      (tokenize sampleUnicode "Max Planck Institute Berlin")
      (instituteCall.scored (sampleCandidate "wikidata" "Q158085" "Max Planck Institute"))),
    .resolveAll instituteCall]

/-- Merged sources and the distance of an ancestor are left over from earlier calls. -/
theorem stale_columns_returned :
    ¬Transparent sampleUnicode sampleFuzz emptyHeap otherOrder ∧
      ¬Transparent sampleUnicode sampleFuzz emptyHeap markedAncestor := by
  constructor
  · intro transparent
    have same := transparent.backends
    revert same
    decide +kernel
  · intro transparent
    have same := transparent.unmutated .inProcess
    revert same
    decide +kernel

end Sample

end Ukip.Authority.CacheBackends
