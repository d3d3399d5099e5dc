import Ukip.Coauthorship.Weights

/-!
# Dirty scopes and the recompute pass

At the granularity of commits: enrichment workers commit the rows of an entity together with
the marker of its scope, and the recompute pass reads the edges of a scope, reads the
publications, and commits the statistics and the removal of the marker.
-/

namespace Ukip.Coauthorship.DirtyScopes

open Foundation.EventRun Foundation.LogCount Foundation.Tally Identity Artifacts Weights

structure Reading where
  scope : Scope
  edges : Counter EdgeKey
  publications : Option (List AuthorPublication)

structure World where
  store : Store
  pass : Option Reading

inductive Commit where
  | write (enabled : Bool) (entity : RawEntity)
  | readEdges (scope : Scope)
  | readPublications
  | commitStats
  | rollback

variable (python : Python) (detectors : Detectors)

def advance (world : World) : Commit → World
  | .write enabled entity =>
    { world with store := step python detectors world.store (.write enabled entity) }
  | .readEdges scope =>
    match world.pass with
    | none => { world with pass := some ⟨scope, scopeEdges world.store.edges scope, none⟩ }
    | some _ => world
  | .readPublications =>
    { world with pass := world.pass.map fun reading =>
      { reading with publications := some world.store.publications } }
  | .commitStats =>
    match world.pass with
    | none => world
    | some reading =>
      if reading.edges.isEmpty then
        ⟨replaceStats world.store reading.scope [], none⟩
      else
        match reading.publications with
        | none => world
        | some publications =>
          ⟨replaceStats world.store reading.scope
            (statsOf detectors reading.edges publications reading.scope), none⟩
  | .rollback => { world with pass := none }

def scopeStats (stats : List AuthorStats) (scope : Scope) : List AuthorStats :=
  stats.filter fun row => row.scope = scope

def isDirty (store : Store) (scope : Scope) : Bool :=
  store.dirtyScopes.any fun marker => marker.scope == scope

/-- The statistics of the scope are what a recompute from the committed rows would give. -/
def Current (store : Store) (scope : Scope) : Prop :=
  scopeStats store.stats scope =
    statsOf detectors (scopeEdges store.edges scope) store.publications scope

def Fresh (world : World) : Prop :=
  ∀ scope, isDirty world.store scope = false → Current detectors world.store scope

/-- The entity is of the scope, or a write moves its rows out of it. -/
def Concerns (store : Store) (entity : RawEntity) (scope : Scope) : Prop :=
  scope = scopeOf entity ∨
    (isReassigned store entity = true ∧ scope ∈ priorScopes store.publications entity.id)

/-- The write does not return early. -/
def Resolves (enabled : Bool) (store : Store) (entity : RawEntity) : Prop :=
  ∃ resolved, resolveEntity python enabled store entity = .ok (some resolved)

/-- No write of the scope that a pass has begun to read is committed before the pass. -/
def Undisturbed (world : World) : Commit → Prop
  | .write enabled entity => ∀ reading, world.pass = some reading →
      ¬ (Resolves python enabled world.store entity ∧ Concerns world.store entity reading.scope)
  | _ => True

variable {python detectors} {store : Store} {entity : RawEntity}

structure SameScope (scope : Scope) (before after : Store) : Prop where
  edges : scopeEdges after.edges scope = scopeEdges before.edges scope
  publications : ∀ node, publicationCount after.publications scope node =
    publicationCount before.publications scope node
  stats : scopeStats after.stats scope = scopeStats before.stats scope
  dirty : isDirty after scope = isDirty before scope

variable {scope : Scope} {first second : List AuthorPublication} {edges : Counter EdgeKey}

theorem statsOf_congr
    (same : ∀ node, publicationCount first scope node = publicationCount second scope node) :
    statsOf detectors edges first scope = statsOf detectors edges second scope := by
  unfold statsOf
  simp only [same]

theorem SameScope.current {before after : Store} (same : SameScope scope before after)
    (current : Current detectors before scope) : Current detectors after scope := by
  unfold Current
  rw [same.stats, same.edges, statsOf_congr same.publications]
  exact current

theorem isDirty_markDirty (markers : List CoauthorDirtyScope) (scope other : Scope)
    (reason : String) :
    ((markDirty markers scope reason).any fun marker => marker.scope == other) =
      ((scope == other) || markers.any fun marker => marker.scope == other) := by
  unfold markDirty
  split
  · rename_i marked
    have sameScope : ∀ marker : CoauthorDirtyScope,
        (if marker.scope = scope then { marker with reason := reason } else marker).scope =
          marker.scope := by
      intro marker
      split <;> rfl
    simp only [List.any_map, Function.comp_def, sameScope]
    by_cases here : scope = other
    · subst here
      simpa using marked
    · simp [here]
  · rw [List.any_append, Bool.or_comm]
    simp

theorem isDirty_markAll (scopes : List Scope) (markers : List CoauthorDirtyScope) (other : Scope) :
    ((scopes.foldl (fun markers scope => markDirty markers scope "reassign") markers).any
        fun marker => marker.scope == other) =
      (decide (other ∈ scopes) || markers.any fun marker => marker.scope == other) := by
  induction scopes generalizing markers with
  | nil => simp
  | cons scope rest ih =>
    rw [List.foldl_cons, ih, isDirty_markDirty]
    by_cases here : scope = other
    · simp [here]
    · have off : (scope == other) = false := beq_eq_false_iff_ne.mpr here
      have apart : other ≠ scope := fun same => here same.symm
      simp [off, apart]

theorem publicationCount_append (elsewhere : ∀ row ∈ second, row.scope ≠ scope) (node : Nat) :
    publicationCount (first ++ second) scope node = publicationCount first scope node := by
  unfold publicationCount
  have none : second.countP (fun row => row.scope == scope && row.authorId == node) = 0 := by
    refine List.countP_eq_zero.mpr fun row member both => ?_
    simp only [Bool.and_eq_true, beq_iff_eq] at both
    exact elsewhere row member both.1
  rw [List.countP_append, none, Nat.add_zero]

theorem publicationCount_reassign (notCurrent : scope ≠ scopeOf entity)
    (notPrior : isReassigned store entity = true → scope ∉ priorScopes store.publications entity.id)
    (node : Nat) :
    publicationCount (reassign store entity).publications scope node =
      publicationCount store.publications scope node := by
  by_cases moves : isReassigned store entity = true
  · unfold reassign publicationCount
    rw [if_pos moves, List.countP_map]
    refine List.countP_congr fun row member => ?_
    by_cases own : row.entityId = entity.id
    · have moved : (reassignedRow entity row).scope ≠ scope := by
        rw [(reassignedRow_spec row).2.1 own]
        exact fun same => notCurrent same.symm
      have before : row.scope ≠ scope := fun same =>
        notPrior moves (mem_priorScopes.mpr ⟨row, member, own, same⟩)
      simp [moved, before]
    · simp [(reassignedRow_spec row).2.2 own]
  · rw [reassign_idle (Bool.eq_false_iff.mpr moves)]

theorem reassign_dirty (store : Store) (entity : RawEntity) (scope : Scope) :
    isDirty (reassign store entity) scope =
      ((isReassigned store entity && decide (scope ∈ priorScopes store.publications entity.id)) ||
        isDirty store scope) := by
  unfold isDirty reassign
  split
  · rename_i moves
    rw [isDirty_markAll, moves, Bool.true_and]
  · rename_i stays
    rw [Bool.eq_false_of_not_eq_true stays, Bool.false_and, Bool.false_or]

theorem staged_cases {authorIds : List Nat} {written : Store}
    (staged : stageArtifacts store entity authorIds = .ok written) (scope : Scope) :
    written.publications = (reassign store entity).publications ++
        newPublications (reassign store entity) entity authorIds ∧
      written.stats = (reassign store entity).stats ∧
      (scope ≠ scopeOf entity →
        scopeEdges written.edges scope = scopeEdges (reassign store entity).edges scope) ∧
      isDirty written scope =
        ((scopeOf entity == scope) || isDirty (reassign store entity) scope) := by
  obtain rfl := stageArtifacts_ok staged
  have loop := records_pairs entity.id (scopeOf entity) (combinations authorIds)
    (flushed store entity authorIds)
  refine ⟨loop.publications, loop.stats, loop.elsewhere scope, ?_⟩
  unfold isDirty
  rw [isDirty_markDirty, loop.dirtyScopes]
  rfl

theorem staged_scope {authorIds : List Nat} {written : Store}
    (staged : stageArtifacts store entity authorIds = .ok written) (scope : Scope) :
    SameScope scope store written ∨
      (isDirty written scope = true ∧ Concerns store entity scope) := by
  obtain ⟨publications, stats, edges, dirty⟩ := staged_cases staged scope
  rw [reassign_dirty] at dirty
  by_cases current : scope = scopeOf entity
  · refine .inr ⟨?_, .inl current⟩
    rw [dirty, current]
    simp
  · by_cases leaves : isReassigned store entity = true ∧
        scope ∈ priorScopes store.publications entity.id
    · refine .inr ⟨?_, .inr leaves⟩
      rw [dirty, leaves.1]
      simp [leaves.2]
    · have stays : isReassigned store entity = true →
          scope ∉ priorScopes store.publications entity.id :=
        fun moves prior => leaves ⟨moves, prior⟩
      refine .inl ⟨?_, ?_, ?_, ?_⟩
      · refine (edges current).trans ?_
        unfold reassign
        split <;> rfl
      · intro node
        have added : ∀ row ∈ newPublications (reassign store entity) entity authorIds,
            row.scope ≠ scope := by
          intro row member same
          exact current (same.symm.trans (newPublication_own member).2)
        rw [publications, publicationCount_append added, publicationCount_reassign current stays]
      · have unmoved : (reassign store entity).stats = store.stats := by
          unfold reassign
          split <;> rfl
        rw [stats, unmoved]
      · have off : (scopeOf entity == scope) = false :=
          beq_eq_false_iff_ne.mpr fun same => current same.symm
        have unmarked : (isReassigned store entity &&
            decide (scope ∈ priorScopes store.publications entity.id)) = false := by
          simpa using stays
        rw [dirty, off, unmarked, Bool.false_or, Bool.false_or]

theorem write_scope (enabled : Bool) (store : Store) (entity : RawEntity) (scope : Scope) :
    SameScope scope store (step python detectors store (.write enabled entity)) ∨
      (isDirty (step python detectors store (.write enabled entity)) scope = true ∧
        Resolves python enabled store entity ∧ Concerns store entity scope) := by
  rcases write_outcome detectors enabled store entity with
    ⟨⟨table, same⟩, _⟩ | ⟨authorIds, table, written, resolved, staged, same⟩
  · rw [same]
    exact .inl ⟨rfl, fun _ => rfl, rfl, rfl⟩
  · rw [same]
    rcases staged_scope staged scope with kept | ⟨marked, concerns⟩
    · exact .inl ⟨kept.edges, kept.publications, kept.stats, kept.dirty⟩
    · exact .inr ⟨marked, ⟨_, resolved⟩, concerns⟩

theorem statsOf_scope {publications : List AuthorPublication} {row : AuthorStats}
    (member : row ∈ statsOf detectors edges publications scope) :
    row.scope = scope := by
  unfold statsOf at member
  split at member
  · cases member
  · obtain ⟨node, _, rfl⟩ := List.mem_map.mp member
    rfl

variable {stats : List AuthorStats}

theorem replaceStats_here (own : ∀ row ∈ stats, row.scope = scope) :
    scopeStats (replaceStats store scope stats).stats scope = stats := by
  have old : scopeStats (store.stats.filter fun row => row.scope ≠ scope) scope = [] := by
    refine List.filter_eq_nil_iff.mpr fun row member => ?_
    have other := (List.mem_filter.mp member).2
    simpa using other
  have new : scopeStats stats scope = stats :=
    List.filter_eq_self.mpr fun row member => decide_eq_true (own row member)
  unfold replaceStats scopeStats at *
  rw [List.filter_append, old, new, List.nil_append]

theorem replaceStats_other {scope other : Scope} (apart : other ≠ scope)
    (own : ∀ row ∈ stats, row.scope = scope) :
    SameScope other store (replaceStats store scope stats) := by
  refine ⟨rfl, fun _ => rfl, ?_, ?_⟩
  · have new : scopeStats stats other = [] := by
      refine List.filter_eq_nil_iff.mpr fun row member => ?_
      rw [own row member]
      simpa using fun same => apart same.symm
    unfold replaceStats scopeStats at *
    rw [List.filter_append, new, List.append_nil, List.filter_filter]
    refine List.filter_congr fun row _ => ?_
    by_cases here : row.scope = other
    · simp [here, apart]
    · simp [here]
  · unfold isDirty replaceStats
    rw [List.any_filter]
    refine List.any_congr rfl fun marker => ?_
    by_cases here : marker.scope = other
    · simp [here, apart]
    · simp [here]

/-- The pass has read what is still stored. -/
def Faithful (world : World) (reading : Reading) : Prop :=
  reading.edges = scopeEdges world.store.edges reading.scope ∧
    ∀ publications, reading.publications = some publications → ∀ node,
      publicationCount publications reading.scope node =
        publicationCount world.store.publications reading.scope node

structure Sound (detectors : Detectors) (world : World) : Prop where
  fresh : Fresh detectors world
  faithful : ∀ reading, world.pass = some reading → Faithful world reading

theorem replaceStats_fresh {pass : Option Reading} (fresh : Fresh detectors ⟨store, pass⟩)
    (recomputed : stats = statsOf detectors (scopeEdges store.edges scope) store.publications scope) :
    Fresh detectors ⟨replaceStats store scope stats, none⟩ := by
  have own : ∀ row ∈ stats, row.scope = scope := fun row member =>
    statsOf_scope (recomputed ▸ member)
  intro other clean
  by_cases here : other = scope
  · subst here
    exact (replaceStats_here own).trans recomputed
  · have same : SameScope other store (replaceStats store scope stats) :=
      replaceStats_other here own
    exact same.current (fresh other (same.dirty.symm.trans clean))

theorem advance_sound (world : World) (commit : Commit) (sound : Sound detectors world)
    (undisturbed : Undisturbed python world commit) :
    Sound detectors (advance python detectors world commit) := by
  obtain ⟨store, pass⟩ := world
  cases commit with
  | write enabled entity =>
    have cases : ∀ scope,
        SameScope scope store (step python detectors store (.write enabled entity)) ∨
          (isDirty (step python detectors store (.write enabled entity)) scope = true ∧
            Resolves python enabled store entity ∧ Concerns store entity scope) :=
      write_scope enabled store entity
    refine ⟨fun scope clean => ?_, fun reading running => ?_⟩
    · rcases cases scope with same | ⟨marked, _⟩
      · exact same.current (sound.fresh scope (same.dirty.symm.trans clean))
      · exact absurd (clean.symm.trans marked) Bool.false_ne_true
    · obtain ⟨edges, publications⟩ := sound.faithful reading running
      rcases cases reading.scope with same | ⟨_, concerns⟩
      · exact ⟨edges.trans same.edges.symm, fun read known node =>
          (publications read known node).trans (same.publications node).symm⟩
      · exact absurd concerns (undisturbed reading running)
  | readEdges scope =>
    cases pass with
    | none =>
      refine ⟨sound.fresh, fun reading running => ?_⟩
      obtain rfl := Option.some.inj running
      exact ⟨rfl, nofun⟩
    | some reading => exact sound
  | readPublications =>
    refine ⟨sound.fresh, fun reading running => ?_⟩
    obtain ⟨before, passing, rfl⟩ := Option.map_eq_some_iff.mp running
    refine ⟨(sound.faithful before passing).1, fun read known node => ?_⟩
    obtain rfl := Option.some.inj known
    rfl
  | commitStats =>
    cases pass with
    | none => exact sound
    | some reading =>
      obtain ⟨edges, publications⟩ := sound.faithful reading rfl
      simp only [advance]
      split
      · rename_i empty
        refine ⟨replaceStats_fresh sound.fresh ?_, nofun⟩
        rw [← edges, List.isEmpty_iff.mp empty]
        rfl
      · cases known : reading.publications with
        | none => exact sound
        | some read =>
          refine ⟨replaceStats_fresh sound.fresh ?_, nofun⟩
          rw [← edges]
          exact statsOf_congr (publications read known)
  | rollback => exact ⟨sound.fresh, nofun⟩

/-- As long as no write of a scope is committed between a pass's first read of the scope and
the pass's commit, every scope without a marker has the statistics of its rows. -/
theorem unmarked_scopes_current (python : Python) (detectors : Detectors) (store : Store)
    (commits : List Commit) (fresh : Fresh detectors ⟨store, none⟩)
    (undisturbed : EveryStep (advance python detectors) (Undisturbed python) ⟨store, none⟩ commits) :
    EveryState (advance python detectors) (Fresh detectors) ⟨store, none⟩ commits := by
  have sound : EveryState (advance python detectors) (Sound detectors) ⟨store, none⟩ commits :=
    everyState_of_guard advance_sound ⟨store, none⟩ commits
      ⟨fresh, nofun⟩ undisturbed
  have weaker : ∀ world, Sound detectors world → Fresh detectors world := fun _ kept => kept.fresh
  exact everyState_mono weaker ⟨store, none⟩ commits sound

theorem emptyStore_fresh : Fresh detectors ⟨emptyStore, none⟩ := fun _ _ => rfl

theorem unmarked_scopes_current_onePass :
    EveryState (advance asciiPython plainDetectors) (Fresh plainDetectors) ⟨emptyStore, none⟩
      [.write true (paper none), .readEdges ⟨0, "default"⟩, .readPublications, .commitStats] := by
  refine unmarked_scopes_current asciiPython plainDetectors emptyStore _ emptyStore_fresh ?_
  exact ⟨nofun, trivial, trivial, trivial, trivial⟩

def secondPaper : RawEntity where
  id := 2
  orgId := none
  domain := none
  attributesJson := .parsed (.object
    [("enrichment_authors", .array [.text "Ann Bee", .text "Carl Dee"])])

/-- The second paper is committed after the pass has read the edges.  The pass clears the
marker of that write, and the two authors have no statistics. -/
theorem write_left_out :
    let final := runEvents (advance asciiPython plainDetectors) ⟨emptyStore, none⟩
      [.write true (paper none), .readEdges ⟨0, "default"⟩, .readPublications,
        .write true secondPaper, .commitStats]
    isDirty final.store ⟨0, "default"⟩ = false ∧
      final.store.stats.map AuthorStats.authorId = [1, 2] ∧
      entryOf final.store.edges ⟨3, 4, ⟨0, "default"⟩⟩ = some 1 ∧
      ¬ Fresh plainDetectors final := by
  have clean : isDirty (runEvents (advance asciiPython plainDetectors) ⟨emptyStore, none⟩
      [.write true (paper none), .readEdges ⟨0, "default"⟩, .readPublications,
        .write true secondPaper, .commitStats]).store ⟨0, "default"⟩ = false := by decide
  refine ⟨clean, by decide, by decide, fun fresh => ?_⟩
  have recomputed := congrArg List.length (fresh ⟨0, "default"⟩ clean)
  revert recomputed
  decide

end Ukip.Coauthorship.DirtyScopes
