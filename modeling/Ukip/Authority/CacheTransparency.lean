import Ukip.Authority.CacheBackends
import Ukip.Authority.OrderIndependence

/-!
# What the backends give

A copy from Redis has the columns that the source gave; an object of the process has what
the calls and their callers left in it.  The scored columns are written anew by every call,
the others are not, and `merged_sources` only where a group is merged.
-/

namespace Ukip.Authority.CacheBackends

open Foundation.LeaderGroups Foundation.ObjectHeap Foundation.Tally
open Authority.ResolverCache (Key keyOf sources)

variable {Score : Type}

/-- The columns that `resolve_all` never writes. -/
structure SourceColumns where
  authoritySource : String
  authorityId : String
  canonicalLabel : String
  aliases : List String
  description : Option String
  uri : Option String
  hierarchyDistance : Option Int
  deriving DecidableEq

def sourceColumns (c : AuthorityCandidate Score) : SourceColumns where
  authoritySource := c.authoritySource
  authorityId := c.authorityId
  canonicalLabel := c.canonicalLabel
  aliases := c.aliases
  description := c.description
  uri := c.uri
  hierarchyDistance := c.hierarchyDistance

/-- The same in all columns that a call does not score. -/
def Unscored (a b : AuthorityCandidate Score) : Prop :=
  sourceColumns a = sourceColumns b ∧ a.mergedSources = b.mergedSources

instance (a b : AuthorityCandidate Score) : Decidable (Unscored a b) :=
  inferInstanceAs (Decidable (sourceColumns a = sourceColumns b ∧ a.mergedSources = b.mergedSources))

namespace State

def valuesOf (state : State Score) (key : Key) (loaded : List (AuthorityCandidate Score)) :
    List (AuthorityCandidate Score) :=
  match state.cache.lookup key with
  | some (.live addresses) => addresses.map state.heap.cells
  | some (.json value) => (deserializeCandidates value).getD loaded
  | none => loaded

def holds (state : State Score) (address : Nat) : Bool :=
  state.cache.any fun entry =>
    match entry.2 with
    | .live addresses => addresses.contains address
    | .json _ => false

/-- Objects in the cache have been allocated. -/
def Placed (state : State Score) : Prop :=
  ∀ key addresses, state.cache.lookup key = some (.live addresses) →
    ∀ address ∈ addresses, address < state.heap.next

structure Loads (state after : State Score) (key : Key) (addresses : List Nat)
    (values : List (AuthorityCandidate Score)) : Prop where
  values : addresses.map after.heap.cells = values
  allocated : ∀ address ∈ addresses, address < after.heap.next
  old : ∀ address < state.heap.next, after.heap.cells address = state.heap.cells address
  next : state.heap.next ≤ after.heap.next
  others : ∀ other, other ≠ key → after.cache.lookup other = state.cache.lookup other
  placed : after.Placed

theorem lookup_cons_self (key : Key) (stored : Stored Score) (cache : List (Key × Stored Score)) :
    ((key, stored) :: cache).lookup key = some stored := by
  simp

theorem lookup_cons_other {key other : Key} (differ : other ≠ key) (stored : Stored Score)
    (cache : List (Key × Stored Score)) :
    ((key, stored) :: cache).lookup other = cache.lookup other := by
  rw [List.lookup_cons, beq_eq_false_iff_ne.mpr differ]

variable (backend : Backend)

theorem loads_loadAndSet (state : State Score) (placed : state.Placed) (key : Key)
    (loaded : List (AuthorityCandidate Score)) :
    Loads state (state.loadAndSet backend key loaded).1 key
      (state.loadAndSet backend key loaded).2 loaded := by
  have allocated : ∀ address ∈ (state.heap.alloc loaded).2,
      address < (state.heap.alloc loaded).1.next := fun _ member => (state.heap.mem_alloc member).2
  refine
    { values := state.heap.map_cells_alloc loaded
      allocated := allocated
      old := fun _ old => state.heap.cells_alloc_of_lt loaded old
      next := Nat.le_add_right _ _
      others := fun _ differ => lookup_cons_other differ _ _
      placed := ?_ }
  intro other addresses found address member
  by_cases isKey : other = key
  · rw [isKey] at found
    simp only [loadAndSet, lookup_cons_self] at found
    cases backend with
    | inProcess =>
      cases found
      exact allocated address member
    | redis => cases found
  · simp only [loadAndSet, lookup_cons_other isKey] at found
    exact Nat.lt_of_lt_of_le (placed other addresses found address member) (Nat.le_add_right _ _)

theorem loads_getOrLoad (state : State Score) (placed : state.Placed) (key : Key)
    (loaded : List (AuthorityCandidate Score)) :
    Loads state (state.getOrLoad backend key loaded).1 key (state.getOrLoad backend key loaded).2
      (state.valuesOf key loaded) := by
  unfold getOrLoad valuesOf
  cases found : state.cache.lookup key with
  | none => exact loads_loadAndSet backend state placed key loaded
  | some stored =>
    cases stored with
    | live addresses =>
      exact ⟨rfl, placed key addresses found, fun _ _ => rfl, Nat.le_refl _, fun _ _ => rfl, placed⟩
    | json value =>
      cases read : deserializeCandidates value with
      | none =>
        simp only [read, Option.getD_none]
        exact loads_loadAndSet backend state placed key loaded
      | some copies =>
        simp only [read, Option.getD_some]
        refine
          { values := state.heap.map_cells_alloc copies
            allocated := fun _ member => (state.heap.mem_alloc member).2
            old := fun _ old => state.heap.cells_alloc_of_lt copies old
            next := Nat.le_add_right _ _
            others := fun _ _ => rfl
            placed := ?_ }
        intro other addresses cached address member
        exact Nat.lt_of_lt_of_le (placed other addresses cached address member)
          (Nat.le_add_right _ _)

theorem Loads.valuesOf_other {state after : State Score} {key other : Key} {addresses : List Nat}
    {values : List (AuthorityCandidate Score)} (loads : Loads state after key addresses values)
    (placed : state.Placed) (differ : other ≠ key) (loaded : List (AuthorityCandidate Score)) :
    after.valuesOf other loaded = state.valuesOf other loaded := by
  unfold valuesOf
  rw [loads.others other differ]
  cases found : state.cache.lookup other with
  | none => rfl
  | some stored =>
    cases stored with
    | json value => rfl
    | live cached =>
      exact List.map_congr_left fun address member =>
        loads.old address (placed other cached found address member)

theorem key_ne {unicode : Unicode} {call : Call Score} {first second : String}
    (differ : first ≠ second) : call.key unicode first ≠ call.key unicode second :=
  fun same => differ (congrArg Key.source same)

theorem map_cells_gather (unicode : Unicode) (call : Call Score) (state : State Score)
    (placed : state.Placed) (names : List String) (distinct : names.Nodup) :
    ((state.gather backend unicode call names).2.map
        (state.gather backend unicode call names).1.heap.cells =
      names.flatMap fun source => state.valuesOf (call.key unicode source) (call.answer source)) ∧
    (∀ address < state.heap.next,
      (state.gather backend unicode call names).1.heap.cells address = state.heap.cells address) ∧
    (state.gather backend unicode call names).1.Placed := by
  induction names generalizing state with
  | nil => exact ⟨rfl, fun _ _ => rfl, placed⟩
  | cons source rest ih =>
    obtain ⟨apart, restDistinct⟩ := List.nodup_cons.mp distinct
    have loads := loads_getOrLoad backend state placed (call.key unicode source) (call.answer source)
    obtain ⟨values, old, after⟩ := ih _ loads.placed restDistinct
    refine ⟨?_, fun address below => ?_, after⟩
    · rw [gather, List.map_append, values, List.flatMap_cons, ← loads.values]
      congr 1
      · exact List.map_congr_left fun address member => old address (loads.allocated address member)
      · refine List.flatMap_congr fun other member => ?_
        exact loads.valuesOf_other placed
          (key_ne fun same => apart (same ▸ member)) (call.answer other)
    · exact (old address (Nat.lt_of_lt_of_le below loads.next)).trans (loads.old address below)

/-- What two backends have under one key: the objects have the source columns of the copies. -/
def Tracked (heap : Heap (AuthorityCandidate Score)) :
    Option (Stored Score) → Option (Stored Score) → Prop
  | none, none => True
  | some (.live addresses), some (.json value) =>
    ∃ copies, deserializeCandidates value = some copies ∧
      (addresses.map heap.cells).map sourceColumns = copies.map sourceColumns
  | _, _ => False

structure Tracks (live wire : State Score) : Prop where
  placed : live.Placed
  keys : ∀ key, Tracked live.heap (live.cache.lookup key) (wire.cache.lookup key)

theorem tracks_start (heap : Heap (AuthorityCandidate Score)) : Tracks (start heap) (start heap) where
  placed := fun _ _ found => (by cases found)
  keys := fun _ => trivial

variable {live wire : State Score}

theorem Tracks.placed_wire (tracks : Tracks live wire) : wire.Placed := by
  intro key addresses found
  have here := tracks.keys key
  rw [found] at here
  unfold Tracked at here
  split at here
  · next isNone => cases isNone
  · next isJson => cases isJson
  · exact here.elim

theorem Tracks.columns (tracks : Tracks live wire) (key : Key)
    (loaded : List (AuthorityCandidate Score)) :
    (live.valuesOf key loaded).map sourceColumns = (wire.valuesOf key loaded).map sourceColumns := by
  have here := tracks.keys key
  unfold valuesOf
  unfold Tracked at here
  split at here
  · next none_live none_wire => rw [none_live, none_wire]
  · next addresses value isLive isJson =>
      obtain ⟨copies, read, same⟩ := here
      rw [isLive, isJson]
      simpa only [read, Option.getD_some] using same
  · exact here.elim

theorem Tracked.of_cells {heap other : Heap (AuthorityCandidate Score)}
    {found copied : Option (Stored Score)} (tracked : Tracked heap found copied)
    (same : ∀ addresses, found = some (.live addresses) → ∀ address ∈ addresses,
      sourceColumns (other.cells address) = sourceColumns (heap.cells address)) :
    Tracked other found copied := by
  unfold Tracked at tracked
  split at tracked
  · trivial
  · next addresses value =>
      obtain ⟨copies, read, columns⟩ := tracked
      refine ⟨copies, read, ?_⟩
      rw [← columns, List.map_map, List.map_map]
      exact List.map_congr_left fun address member => same addresses rfl address member
  · exact tracked.elim

theorem tracks_getOrLoad (tracks : Tracks live wire) (key : Key)
    (loaded : List (AuthorityCandidate Score)) :
    Tracks (live.getOrLoad .inProcess key loaded).1 (wire.getOrLoad .redis key loaded).1 := by
  have loads := loads_getOrLoad .inProcess live tracks.placed key loaded
  have copies := loads_getOrLoad .redis wire tracks.placed_wire key loaded
  refine ⟨loads.placed, fun other => ?_⟩
  have here := tracks.keys other
  by_cases isKey : other = key
  · subst isKey
    unfold getOrLoad
    unfold Tracked at here
    split at here
    · next none_live none_wire =>
        rw [none_live, none_wire]
        simp only [loadAndSet, lookup_cons_self]
        exact ⟨loaded, deserialize_serialize loaded, by rw [live.heap.map_cells_alloc loaded]⟩
    · next addresses value isLive isJson =>
        obtain ⟨copies, read, columns⟩ := here
        rw [isLive, isJson]
        simp only [read, isLive, isJson]
        exact ⟨copies, read, columns⟩
    · exact here.elim
  · rw [loads.others other isKey, copies.others other isKey]
    refine here.of_cells fun addresses found address member => ?_
    rw [loads.old address (tracks.placed other addresses found address member)]

theorem tracks_gather (unicode : Unicode) (call : Call Score) (tracks : Tracks live wire)
    (names : List String) :
    Tracks (live.gather .inProcess unicode call names).1 (wire.gather .redis unicode call names).1 := by
  induction names generalizing live wire with
  | nil => exact tracks
  | cons source rest ih => exact ih (tracks_getOrLoad tracks _ _)

theorem tracks_write {live wire after wireAfter : State Score} (tracks : Tracks live wire)
    (objects : List (Object Score))
    (respects : ∀ object ∈ objects,
      sourceColumns object.2 = sourceColumns (live.heap.cells object.1))
    (heap : after.heap = live.heap.write objects) (cache : after.cache = live.cache)
    (wireCache : wireAfter.cache = wire.cache) : Tracks after wireAfter := by
  have same := live.heap.write_related (fun a b => sourceColumns a = sourceColumns b) live.heap
    objects (fun _ => rfl) respects
  refine ⟨?_, fun key => ?_⟩
  · intro key addresses found address member
    rw [cache] at found
    rw [heap, Heap.next_write]
    exact tracks.placed key addresses found address member
  · rw [cache, wireCache, heap]
    exact (tracks.keys key).of_cells fun _ _ address _ => same address

end State

section Values

variable (unicode : Unicode) (fuzz : Fuzz) (objects : List (Object Score))

theorem deduplicateObjects_eq :
    deduplicateObjects unicode fuzz objects =
      (groups (fun a b => similar unicode fuzz a.2 b.2) objects).map mergeObjects := by
  rw [deduplicateObjects]
  split
  · next short =>
      match objects with
      | [] => rw [groups_nil, List.map_nil]
      | [only] => simp [groups_cons, followers, remaining, groups_nil, mergeObjects]
      | _ :: _ :: _ => simp at short
  · rfl

theorem snd_mergeObjects (group : Object Score × List (Object Score)) :
    (mergeObjects group).2 = mergeGroup (group.1.2, group.2.map Prod.snd) := by
  have elect : firstMax priority group.1.2 (group.2.map Prod.snd) = _ :=
    firstMax_map Prod.snd (fun _ => rfl) group.1 group.2
  rw [mergeObjects, mergeGroup, elect, List.isEmpty_map]
  split
  · rfl
  · simp only [List.map_map]
    rfl

theorem map_snd_deduplicateObjects :
    (deduplicateObjects unicode fuzz objects).map Prod.snd =
      deduplicate unicode fuzz (objects.map Prod.snd) := by
  have passed : groups (similar unicode fuzz) (objects.map Prod.snd) = _ :=
    groups_map Prod.snd (fun _ _ => rfl) objects
  rw [deduplicateObjects_eq, deduplicate_eq, passed, List.map_map, List.map_map]
  exact List.map_congr_left fun group _ => snd_mergeObjects group

/-- What `resolve_all` returns for the candidates that it gathered. -/
def answerOf [LinearOrder Score] (call : Call Score) (values : List (AuthorityCandidate Score)) :
    List (AuthorityCandidate Score) :=
  (sortedBy (fun a b => decide (b.confidence ≤ a.confidence))
    (deduplicate unicode fuzz (values.map call.scored))).take maxResults

theorem map_snd_shownObjects [LinearOrder Score] (call : Call Score) (objects : List (Object Score)) :
    (shownObjects unicode fuzz call objects).map Prod.snd =
      answerOf unicode fuzz call (objects.map Prod.snd) := by
  have scored : (objects.map Prod.snd).map call.scored =
      (objects.map fun object => (object.1, call.scored object.2)).map Prod.snd := by
    rw [List.map_map, List.map_map]
    rfl
  rw [shownObjects, answerOf, scored, ← map_snd_deduplicateObjects, List.map_take, sortedBy, sortedBy]
  congr 1
  exact List.map_insertionSort _ _ _ _ fun _ _ _ _ => Iff.rfl

theorem exists_of_mem_deduplicateObjects {objects : List (Object Score)} {object : Object Score}
    (member : object ∈ deduplicateObjects unicode fuzz objects) :
    ∃ old ∈ objects, object.1 = old.1 ∧ sourceColumns object.2 = sourceColumns old.2 := by
  rw [deduplicateObjects_eq] at member
  obtain ⟨group, isGroup, rfl⟩ := List.mem_map.mp member
  unfold mergeObjects
  split
  · exact ⟨group.1, mem_of_mem_group isGroup List.mem_cons_self, rfl, rfl⟩
  · have elected := (firstMax_perm (fun object : Object Score => priority object.2) group).mem_iff.mp
      List.mem_cons_self
    exact ⟨_, mem_of_mem_group isGroup elected, rfl, rfl⟩

end Values

section Pairs

variable (unicode : Unicode) (fuzz : Fuzz)

def pairsOf (call : Call Score) (live wire : State Score) :
    List (AuthorityCandidate Score × AuthorityCandidate Score) :=
  call.completed.flatMap fun source =>
    (live.valuesOf (call.key unicode source) (call.answer source)).zip
      (wire.valuesOf (call.key unicode source) (call.answer source))

/-- A candidate that is similar to none of the others has the merged sources that its source
gave. -/
def AloneAsGiven (pairs : List (AuthorityCandidate Score × AuthorityCandidate Score)) : Prop :=
  ∀ group ∈ groups (fun a b => similar unicode fuzz a.1 b.1) pairs, group.2.isEmpty = true →
    group.1.1.mergedSources = group.1.2.mergedSources

instance (pairs : List (AuthorityCandidate Score × AuthorityCandidate Score)) :
    Decidable (AloneAsGiven unicode fuzz pairs) :=
  inferInstanceAs (Decidable (∀ group ∈ groups _ pairs, _))

variable {unicode fuzz} {a b : AuthorityCandidate Score}

theorem scored_merged (call : Call Score) (columns : sourceColumns a = sourceColumns b)
    (merged : List String) :
    { call.scored a with mergedSources := merged } = { call.scored b with mergedSources := merged } := by
  cases a
  cases b
  simp only [sourceColumns, SourceColumns.mk.injEq] at columns
  obtain ⟨rfl, rfl, rfl, rfl, rfl, rfl, rfl⟩ := columns
  rfl

theorem scored_of_unscored (call : Call Score) (same : Unscored a b) :
    call.scored a = call.scored b := by
  have equal := scored_merged call same.1 a.mergedSources
  have right : { call.scored b with mergedSources := a.mergedSources } = call.scored b := by
    rw [same.2]
    rfl
  rw [right] at equal
  exact equal

structure Twin (Score : Type) where
  live : AuthorityCandidate Score
  wire : AuthorityCandidate Score
  columns : sourceColumns live = sourceColumns wire

def Twin.close (unicode : Unicode) (fuzz : Fuzz) (a b : Twin Score) : Bool :=
  similar unicode fuzz a.live b.live

def Twin.priority (twin : Twin Score) : Nat := Authority.priority twin.live

section Side

variable (call : Call Score) (side : Twin Score → AuthorityCandidate Score)
variable (given : ∀ twin, sourceColumns (side twin) = sourceColumns twin.live)

include given

theorem groups_side (twins : List (Twin Score)) :
    groups (similar unicode fuzz) (twins.map fun twin => call.scored (side twin)) =
      (groups (Twin.close unicode fuzz) twins).map fun group =>
        (call.scored (side group.1), group.2.map fun twin => call.scored (side twin)) := by
  refine groups_map _ (fun a b => ?_) twins
  have left : (side a).canonicalLabel = a.live.canonicalLabel :=
    congrArg SourceColumns.canonicalLabel (given a)
  have right : (side b).canonicalLabel = b.live.canonicalLabel :=
    congrArg SourceColumns.canonicalLabel (given b)
  simp only [Twin.close, similar, Call.scored, applyScore, left, right]

theorem mergeGroup_side (group : Twin Score × List (Twin Score)) (several : group.2.isEmpty = false) :
    mergeGroup (call.scored (side group.1), group.2.map fun twin => call.scored (side twin)) =
      { call.scored (firstMax Twin.priority group.1 group.2).1.live with
        mergedSources := (firstMax Twin.priority group.1 group.2).2.map fun twin =>
          reference twin.live } := by
  have elect : firstMax priority (call.scored (side group.1))
      (group.2.map fun twin => call.scored (side twin)) =
      (call.scored (side (firstMax Twin.priority group.1 group.2).1),
        (firstMax Twin.priority group.1 group.2).2.map fun twin => call.scored (side twin)) := by
    refine firstMax_map (fun twin : Twin Score => call.scored (side twin)) (fun twin => ?_) group.1 group.2
    exact congrArg sourcePriority (congrArg SourceColumns.authoritySource (given twin))
  have references : ∀ twin, reference (call.scored (side twin)) = reference twin.live := by
    intro twin
    have source : (side twin).authoritySource = twin.live.authoritySource :=
      congrArg SourceColumns.authoritySource (given twin)
    have identifier : (side twin).authorityId = twin.live.authorityId :=
      congrArg SourceColumns.authorityId (given twin)
    simp only [reference, Call.scored, applyScore, source, identifier]
  rw [mergeGroup, List.isEmpty_map, several, elect]
  simp only [Bool.false_eq_true, if_false, List.map_map, Function.comp_def, references]
  exact scored_merged call (given _) _

end Side

theorem deduplicate_twins (call : Call Score) (twins : List (Twin Score))
    (alone : AloneAsGiven unicode fuzz (twins.map fun twin => (twin.live, twin.wire))) :
    deduplicate unicode fuzz (twins.map fun twin => call.scored twin.live) =
      deduplicate unicode fuzz (twins.map fun twin => call.scored twin.wire) := by
  have paired : groups (fun a b => similar unicode fuzz a.1 b.1)
      (twins.map fun twin => (twin.live, twin.wire)) =
        (groups (Twin.close unicode fuzz) twins).map fun group =>
          ((group.1.live, group.1.wire), group.2.map fun twin => (twin.live, twin.wire)) :=
    groups_map _ (fun _ _ => rfl) twins
  have wireGiven : ∀ twin : Twin Score, sourceColumns twin.wire = sourceColumns twin.live :=
    fun twin => twin.columns.symm
  rw [deduplicate_eq, deduplicate_eq, groups_side call Twin.live (fun _ => rfl) twins,
    groups_side call Twin.wire wireGiven twins, List.map_map, List.map_map]
  refine List.map_congr_left fun group isGroup => ?_
  rw [Function.comp_apply, Function.comp_apply]
  cases single : group.2.isEmpty with
  | false =>
    rw [mergeGroup_side call Twin.live (fun _ => rfl) group single,
      mergeGroup_side call Twin.wire wireGiven group single]
  | true =>
    have inPairs : ((group.1.live, group.1.wire), group.2.map fun twin => (twin.live, twin.wire)) ∈
        groups (fun a b => similar unicode fuzz a.1 b.1)
          (twins.map fun twin => (twin.live, twin.wire)) := by
      rw [paired]
      exact List.mem_map.mpr ⟨group, isGroup, rfl⟩
    have merged := alone _ inPairs (by simpa using single)
    simp only [mergeGroup, List.isEmpty_map, single, if_true]
    exact scored_of_unscored call ⟨group.1.columns, merged⟩

theorem answerOf_pairs [LinearOrder Score] (call : Call Score)
    (pairs : List (AuthorityCandidate Score × AuthorityCandidate Score))
    (columns : ∀ pair ∈ pairs, sourceColumns pair.1 = sourceColumns pair.2)
    (alone : AloneAsGiven unicode fuzz pairs) :
    answerOf unicode fuzz call (pairs.map Prod.fst) =
      answerOf unicode fuzz call (pairs.map Prod.snd) := by
  obtain ⟨twins, rfl⟩ : ∃ twins : List (Twin Score),
      twins.map (fun twin => (twin.live, twin.wire)) = pairs := by
    refine ⟨pairs.attach.map fun pair => ⟨pair.1.1, pair.1.2, columns pair.1 pair.2⟩, ?_⟩
    rw [List.map_map]
    exact List.attach_map_subtype_val pairs
  have same := deduplicate_twins call twins alone
  unfold answerOf
  simp only [List.map_map, Function.comp_def]
  rw [same]

end Pairs

end Ukip.Authority.CacheBackends
