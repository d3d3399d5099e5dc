import Ukip.Signals.Graph

/-!
# Repeated keyword runs

A run repeats itself when it reads the corpus that it read before.  The nodes that it has
stored are rows of the same table, and the corpus query does not leave them out: over
source entities alone every later run reads them, and their own labels count as support.
-/

namespace Ukip.Signals.Idempotence

open Foundation.Tally (combinations mem_combinations sortedBy_perm)
open Foundation.Upsert Tenancy.Access Keywords Signals.Graph

def snapshot (db : SignalDb) : List SignalEntity × List SignalEdge :=
  (db.entities.rows.filter fun row => row.source == some signalNodeSource, db.relationships)

variable (request : Request) (surroundings : Surroundings)

def repeated (count : Nat) (db : SignalDb) : SignalDb :=
  (materializeKeywordSignals request surroundings)^[count] db

/-- Every repetition leaves the signals as the first run did. -/
def Settled (db : SignalDb) : Prop :=
  ∀ count, snapshot (repeated request surroundings (count + 1) db) =
    snapshot (materializeKeywordSignals request surroundings db)

def isOwnNode (row : SignalEntity) : Bool :=
  row.source == some signalNodeSource && row.orgId == request.orgId

/-- The corpus query gives the same whatever signal nodes the organization has. -/
def CorpusWithoutNodes (rows : List SignalEntity) : Prop :=
  ∀ others : List SignalEntity,
    (others.filter fun row => !isOwnNode request row) =
      (rows.filter fun row => !isOwnNode request row) →
    corpus surroundings.page request others = corpus surroundings.page request rows

def admittedTerms (db : SignalDb) : List Text :=
  upTo request.limit
    (allTerms surroundings.python (corpus surroundings.page request db.entities.rows))

/-- Nothing is stored, or the corpus query does not read what is. -/
def NotFedBack (db : SignalDb) : Prop :=
  request.persist = false ∨ admittedTerms request surroundings db = [] ∨
    CorpusWithoutNodes request surroundings db.entities.rows

theorem length_upTo {First Second : Type} (limit : Int) (first : List First) (second : List Second)
    (same : first.length = second.length) : (upTo limit first).length = (upTo limit second).length := by
  unfold upTo
  split <;> simp only [List.length_take, same]

variable (db : SignalDb)

theorem selected_eq_nil_iff :
    selected request surroundings db = [] ↔ admittedTerms request surroundings db = [] := by
  rw [← List.length_eq_zero_iff, ← List.length_eq_zero_iff]
  unfold selected topSignals admittedTerms
  rw [length_upTo request.limit _ (allTerms surroundings.python
    (corpus surroundings.page request db.entities.rows))]
  rw [signals, (sortedBy_perm _ _).length_eq, List.length_map]

variable (python : Python)

theorem signalNodes_absorbing : (signalNodes python).Absorbing := by
  refine (signalNodes python).absorbing_of ?_ ?_
  · intro write row
    change writeNode write (writeNode write row) = writeNode write row
    unfold writeNode
    cases write.mark <;> rfl
  · intro write other first second equal
    change writeNode write first = writeNode write second at equal
    change writeNode write (writeNode other first) = writeNode write (writeNode other second)
    obtain ⟨orgId, domainId, label, mark⟩ := write
    cases mark <;>
      simp only [writeNode, SignalEntity.mk.injEq, and_true, true_and] at equal ⊢ <;>
      cases other.mark <;> simp [equal]

def writes (actions : List Action) : List NodeWrite :=
  actions.filterMap fun action =>
    match action with
    | .node write => some write
    | .edge .. => none

theorem writes_append (first second : List Action) :
    writes (first ++ second) = writes first ++ writes second := List.filterMap_append

variable (session : Session)

theorem entities_createRelationship (edge : SignalEdge) :
    (createRelationship session edge).entities = session.entities := by
  unfold createRelationship
  split <;> rfl

theorem entities_perform_edge (orgId : Option Int) (source target : EdgeEnd) (relationType : String) :
    (perform python session (.edge orgId source target relationType)).entities =
      session.entities := by
  simp only [perform]
  split
  · exact entities_createRelationship session _
  · rfl

theorem entities_perform_node (write : NodeWrite) :
    (perform python session (.node write)).entities =
      (signalNodes python).upsert session.entities write := by
  simp only [perform]
  split <;> rfl

variable (actions : List Action)

theorem entities_performAll :
    (performAll python session actions).entities =
      (signalNodes python).upsertAll session.entities (writes actions) := by
  induction actions generalizing session with
  | nil => rfl
  | cons action rest ih =>
    rw [performAll, List.foldl_cons]
    refine (ih (perform python session action)).trans ?_
    cases action with
    | node write =>
      rw [entities_perform_node]
      rfl
    | edge orgId source target relationType =>
      rw [entities_perform_edge]
      rfl

theorem find_modifyFirst (key wanted : NodeKey) (write : NodeWrite) (rows : List SignalEntity) :
    (((signalNodes python).modifyFirst key (writeNode write) rows).find?
        fun row => rowKey row = wanted).map (fun row => row.id) =
      (rows.find? fun row => rowKey row = wanted).map fun row => row.id := by
  have sameKey : ∀ row, rowKey (writeNode write row) = rowKey row :=
    (signalNodes python).keyOf_patch write
  have sameId : ∀ row, (writeNode write row).id = row.id := by
    intro row
    unfold writeNode
    cases write.mark <;> rfl
  induction rows with
  | nil => rfl
  | cons row rest ih =>
    rw [Upserts.modifyFirst]
    split
    · rw [List.find?_cons, List.find?_cons, sameKey]
      split
      · exact congrArg some (sameId row)
      · rfl
    · rw [List.find?_cons, List.find?_cons]
      split
      · rfl
      · exact ih

theorem resolve_upsert (store : Store SignalEntity) (write : NodeWrite) (edgeEnd : EdgeEnd)
    (id : Nat) (named : edgeEnd.resolve store = some id) :
    edgeEnd.resolve ((signalNodes python).upsert store write) = some id := by
  cases edgeEnd with
  | entity entityId => exact named
  | node key =>
    simp only [EdgeEnd.resolve] at named ⊢
    unfold Upserts.upsert
    split
    · exact (find_modifyFirst python _ key write store.rows).trans named
    · obtain ⟨row, found, rfl⟩ := Option.map_eq_some_iff.mp named
      rw [List.find?_append, found]
      rfl

theorem resolve_of_holds (store : Store SignalEntity) (key : NodeKey)
    (held : (signalNodes python).holds store key = true) :
    ∃ id, (EdgeEnd.node key).resolve store = some id := by
  obtain ⟨row, member, own⟩ := List.any_eq_true.mp held
  have found : (store.rows.find? fun row => rowKey row = key).isSome = true :=
    List.find?_isSome.mpr ⟨row, member, own⟩
  obtain ⟨first, equal⟩ := Option.isSome_iff_exists.mp found
  exact ⟨first.id, congrArg (Option.map SignalEntity.id) equal⟩

/-- A relationship that a session knows. -/
def Knows (session : Session) (edge : SignalEdge) : Prop :=
  edge.sourceId = edge.targetId ∨ edge ∈ session.flushed ++ session.pending

/-- What an action has left in the session. -/
def IsDone (session : Session) : Action → Prop
  | .node write => (signalNodes python).holds session.entities ((signalNodes python).key write) = true
  | .edge orgId source target relationType =>
    ∃ sourceId targetId, source.resolve session.entities = some sourceId ∧
      target.resolve session.entities = some targetId ∧
      Knows session ⟨orgId, sourceId, targetId, relationType⟩

variable (action : Action)

theorem knows_perform (edge : SignalEdge) (known : Knows session edge) :
    Knows (perform python session action) edge := by
  refine known.imp_right fun member => ?_
  cases action with
  | node write =>
    simp only [perform]
    split
    · exact member
    · rwa [List.append_nil]
  | edge orgId source target relationType =>
    simp only [perform]
    split
    · unfold createRelationship
      split
      · exact member
      · rw [← List.append_assoc]
        exact List.mem_append_left _ member
    · exact member

theorem resolve_perform (edgeEnd : EdgeEnd) (id : Nat)
    (named : edgeEnd.resolve session.entities = some id) :
    edgeEnd.resolve (perform python session action).entities = some id := by
  cases action with
  | node write =>
    rw [entities_perform_node]
    exact resolve_upsert python session.entities write edgeEnd id named
  | edge orgId source target relationType =>
    rw [entities_perform_edge]
    exact named

theorem holds_perform (key : NodeKey)
    (held : (signalNodes python).holds session.entities key = true) :
    (signalNodes python).holds (perform python session action).entities key = true := by
  cases action with
  | node write =>
    rw [entities_perform_node]
    exact ((signalNodes python).holds_upsert session.entities write key).mpr (.inl held)
  | edge orgId source target relationType =>
    rw [entities_perform_edge]
    exact held

theorem isDone_perform (done action : Action) (before : IsDone python session done) :
    IsDone python (perform python session action) done := by
  cases done with
  | node write => exact holds_perform python session action _ before
  | edge orgId source target relationType =>
    obtain ⟨sourceId, targetId, sourceNamed, targetNamed, known⟩ := before
    exact ⟨sourceId, targetId, resolve_perform python session action source sourceId sourceNamed,
      resolve_perform python session action target targetId targetNamed,
      knows_perform python session action _ known⟩

def EndIn (known : List NodeKey) : EdgeEnd → Prop
  | .entity _ => True
  | .node key => key ∈ known

def Placed : List NodeKey → List Action → Prop
  | _, [] => True
  | known, .node write :: rest => Placed ((signalNodes python).key write :: known) rest
  | known, .edge _ source target _ :: rest =>
    EndIn known source ∧ EndIn known target ∧ Placed known rest

theorem EndIn.mono {known more : List NodeKey} (kept : known ⊆ more) (edgeEnd : EdgeEnd)
    (here : EndIn known edgeEnd) : EndIn more edgeEnd := by
  cases edgeEnd with
  | entity id => trivial
  | node key => exact kept here

theorem Placed.mono {known more : List NodeKey} (kept : known ⊆ more) (actions : List Action)
    (placed : Placed python known actions) : Placed python more actions := by
  induction actions generalizing known more with
  | nil => trivial
  | cons action rest ih =>
    cases action with
    | node write => exact ih (List.cons_subset_cons _ kept) placed
    | edge orgId source target relationType =>
      exact ⟨placed.1.mono kept source, placed.2.1.mono kept target, ih kept placed.2.2⟩

def keysOf (actions : List Action) : List NodeKey :=
  (writes actions).map (signalNodes python).key

theorem Placed.append {known : List NodeKey} {first second : List Action}
    (left : Placed python known first)
    (right : Placed python (keysOf python first ++ known) second) :
    Placed python known (first ++ second) := by
  induction first generalizing known with
  | nil => exact right
  | cons action rest ih =>
    cases action with
    | node write =>
      refine ih left (right.mono python ?_ second)
      intro key member
      rcases List.mem_append.mp member with own | old
      · rcases List.mem_cons.mp own with rfl | later
        · exact List.mem_append_right _ List.mem_cons_self
        · exact List.mem_append_left _ later
      · exact List.mem_append_right _ (List.mem_cons_of_mem _ old)
    | edge orgId source target relationType => exact ⟨left.1, left.2.1, ih left.2.2 right⟩

variable (known : List NodeKey)

theorem placed_edges (actions : List Action)
    (edges : ∀ action ∈ actions, ∃ orgId source target relationType,
      action = .edge orgId source target relationType ∧ EndIn known source ∧
        EndIn known target) : Placed python known actions := by
  induction actions with
  | nil => trivial
  | cons action rest ih =>
    obtain ⟨orgId, source, target, relationType, rfl, atSource, atTarget⟩ :=
      edges action List.mem_cons_self
    exact ⟨atSource, atTarget, ih fun later member => edges later (List.mem_cons_of_mem _ member)⟩

theorem placed_signalActions (signal : Signal) :
    Placed python known (signalActions python request signal) := by
  have own : EndIn ((signalNodes python).key (keywordWrite request signal) :: known)
      (keywordNode python request signal) := List.mem_cons_self
  have derived : Placed python known (.node (keywordWrite request signal) ::
      (signal.entityIds.take 25).map fun entityId =>
        .edge request.orgId (.entity entityId) (keywordNode python request signal)
          "derived-keyword") := by
    change Placed python (_ :: known) (List.map _ _)
    refine placed_edges python _ _ fun action member => ?_
    obtain ⟨entityId, _, rfl⟩ := List.mem_map.mp member
    exact ⟨_, _, _, _, rfl, trivial, own⟩
  unfold signalActions
  refine derived.append python ?_
  · split
    · refine ⟨List.mem_cons_self, List.mem_cons_of_mem _ ?_, trivial⟩
      exact List.mem_append_left _ List.mem_cons_self
    · trivial

variable (signals : List Signal)

theorem keyword_mem_keysOf (signal : Signal) (member : signal ∈ signals) :
    (signalNodes python).key (keywordWrite request signal) ∈
      keysOf python (signals.flatMap (signalActions python request)) := by
  refine List.mem_map_of_mem (List.mem_filterMap.mpr ⟨.node (keywordWrite request signal), ?_, rfl⟩)
  exact List.mem_flatMap.mpr ⟨signal, member, List.mem_cons_self⟩

theorem placed_flatMap :
    Placed python known (signals.flatMap (signalActions python request)) := by
  induction signals generalizing known with
  | nil => trivial
  | cons signal rest ih =>
    exact (placed_signalActions request python known signal).append python (ih _)

theorem placed_graphActions :
    Placed python [] (graphActions python request signals) := by
  refine (placed_flatMap request python [] signals).append python ?_
  refine placed_edges python _ _ fun action member => ?_
  obtain ⟨pair, pairMember, here⟩ := List.mem_flatMap.mp member
  obtain ⟨leftMember, rightMember⟩ := mem_combinations _ pair pairMember
  have atLeft : EndIn (keysOf python (signals.flatMap (signalActions python request)) ++ [])
      (keywordNode python request pair.1) :=
    List.mem_append_left _ (keyword_mem_keysOf request python signals pair.1
      (List.mem_of_mem_take leftMember))
  have atRight : EndIn (keysOf python (signals.flatMap (signalActions python request)) ++ [])
      (keywordNode python request pair.2) :=
    List.mem_append_left _ (keyword_mem_keysOf request python signals pair.2
      (List.mem_of_mem_take rightMember))
  unfold pairActions at here
  simp only at here
  split at here
  · cases here
  rcases List.mem_append.mp here with neighbour | emerging
  · split at neighbour
    · rw [List.mem_singleton.mp neighbour]
      exact ⟨_, _, _, _, rfl, atLeft, atRight⟩
    · cases neighbour
  · split at emerging
    · rw [List.mem_singleton.mp emerging]
      exact ⟨_, _, _, _, rfl, atLeft, atRight⟩
    · split at emerging
      · rw [List.mem_singleton.mp emerging]
        exact ⟨_, _, _, _, rfl, atRight, atLeft⟩
      · cases emerging

theorem resolve_of_endIn
    (held : ∀ key ∈ known, (signalNodes python).holds session.entities key = true)
    (edgeEnd : EdgeEnd) (here : EndIn known edgeEnd) :
    ∃ id, edgeEnd.resolve session.entities = some id := by
  cases edgeEnd with
  | entity id => exact ⟨id, rfl⟩
  | node key => exact resolve_of_holds python session.entities key (held key here)

theorem isDone_self (action : Action) (known : List NodeKey)
    (held : ∀ key ∈ known, (signalNodes python).holds session.entities key = true)
    (placed : Placed python known [action]) :
    IsDone python (perform python session action) action := by
  cases action with
  | node write =>
    change (signalNodes python).holds _ _ = true
    rw [entities_perform_node]
    exact ((signalNodes python).holds_upsert _ write _).mpr (.inr rfl)
  | edge orgId source target relationType =>
    obtain ⟨sourceId, sourceNamed⟩ := resolve_of_endIn python session known held source placed.1
    obtain ⟨targetId, targetNamed⟩ := resolve_of_endIn python session known held target placed.2.1
    refine ⟨sourceId, targetId, resolve_perform python session _ source sourceId sourceNamed,
      resolve_perform python session _ target targetId targetNamed, ?_⟩
    simp only [perform, sourceNamed, targetNamed]
    unfold createRelationship Knows
    split
    · rename_i old
      exact old.imp_right fun member => List.mem_append_left _ member
    · exact .inr (List.mem_append_right _ (List.mem_append_right _ List.mem_cons_self))

theorem isDone_performAll_of (done : Action) (before : IsDone python session done) :
    IsDone python (performAll python session actions) done := by
  induction actions generalizing session with
  | nil => exact before
  | cons action rest ih => exact ih _ (isDone_perform python session done action before)

theorem isDone_performAll
    (held : ∀ key ∈ known, (signalNodes python).holds session.entities key = true)
    (placed : Placed python known actions) :
    ∀ action ∈ actions, IsDone python (performAll python session actions) action := by
  induction actions generalizing session known with
  | nil =>
    intro action member
    cases member
  | cons first rest ih =>
    intro action member
    have still : ∀ key ∈ known,
        (signalNodes python).holds (perform python session first).entities key = true :=
      fun key keyMember => holds_perform python session first key (held key keyMember)
    have alone : Placed python known [first] := by
      cases first with
      | node write => trivial
      | edge orgId source target relationType => exact ⟨placed.1, placed.2.1, trivial⟩
    have firstDone := isDone_self python session first known held alone
    rcases List.mem_cons.mp member with rfl | later
    · exact isDone_performAll_of python _ rest action firstDone
    · cases first with
      | node write =>
        refine ih (perform python session (.node write)) _ ?_ placed action later
        intro key keyMember
        rcases List.mem_cons.mp keyMember with rfl | old
        · exact firstDone
        · exact still key old
      | edge orgId source target relationType =>
        exact ih _ known still placed.2.2 action later

theorem performAll_of_done (flushed : session.pending = []) (actions : List Action)
    (done : ∀ action ∈ actions, IsDone python session action) :
    (performAll python session actions).flushed = session.flushed ∧
      (performAll python session actions).pending = [] := by
  induction actions generalizing session with
  | nil => exact ⟨rfl, flushed⟩
  | cons action rest ih =>
    have step : (perform python session action).flushed = session.flushed ∧
        (perform python session action).pending = session.pending := by
      have here := done action List.mem_cons_self
      cases action with
      | node write =>
        have held : (signalNodes python).holds session.entities
            ((signalNodes python).key write) = true := here
        simp only [perform]
        rw [if_pos held]
        exact ⟨rfl, rfl⟩
      | edge orgId source target relationType =>
        obtain ⟨sourceId, targetId, sourceNamed, targetNamed, known⟩ := here
        simp only [perform, sourceNamed, targetNamed]
        unfold Knows at known
        rw [flushed, List.append_nil] at known
        unfold createRelationship
        rw [if_pos known]
        exact ⟨rfl, rfl⟩
    have tail := ih (perform python session action) (step.2.trans flushed)
      fun later member => isDone_perform python session later action
        (done later (List.mem_cons_of_mem action member))
    exact ⟨tail.1.trans step.1, tail.2⟩

theorem performAll_again (entities : Store SignalEntity) (relationships : List SignalEdge)
    (actions : List Action) (placed : Placed python [] actions) :
    let after := performAll python ⟨entities, relationships, []⟩ actions
    performAll python ⟨after.entities, after.flushed ++ after.pending, []⟩ actions =
      ⟨after.entities, after.flushed ++ after.pending, []⟩ := by
  intro after
  have done := isDone_performAll python ⟨entities, relationships, []⟩ actions []
    (nofun) placed
  have committed : ∀ action ∈ actions,
      IsDone python ⟨after.entities, after.flushed ++ after.pending, []⟩ action := by
    intro action member
    have here := done action member
    cases action with
    | node write => exact here
    | edge orgId source target relationType =>
      obtain ⟨sourceId, targetId, sourceNamed, targetNamed, known⟩ := here
      refine ⟨sourceId, targetId, sourceNamed, targetNamed, ?_⟩
      unfold Knows
      rw [List.append_nil]
      exact known
  have edges := performAll_of_done python
    ⟨after.entities, after.flushed ++ after.pending, []⟩ rfl actions committed
  have nodes : (performAll python ⟨after.entities, after.flushed ++ after.pending, []⟩
      actions).entities = after.entities := by
    rw [entities_performAll]
    change (signalNodes python).upsertAll
      (performAll python ⟨entities, relationships, []⟩ actions).entities (writes actions) =
        (performAll python ⟨entities, relationships, []⟩ actions).entities
    rw [entities_performAll]
    exact (signalNodes python).upsertAll_idempotent (signalNodes_absorbing python) _ _
  have parts : ∀ session : Session,
      session = ⟨session.entities, session.flushed, session.pending⟩ := fun _ => rfl
  refine (parts _).trans ?_
  rw [nodes, edges.1, edges.2]

theorem writes_flatMap {Item : Type} (items : List Item) (actionsOf : Item → List Action) :
    writes (items.flatMap actionsOf) = items.flatMap fun item => writes (actionsOf item) := by
  induction items with
  | nil => rfl
  | cons item rest ih => rw [List.flatMap_cons, writes_append, ih, List.flatMap_cons]

theorem writes_edges (edges : ∀ write, Action.node write ∉ actions) : writes actions = [] := by
  refine List.filterMap_eq_nil_iff.mpr fun action member => ?_
  cases action with
  | node write => exact absurd member (edges write)
  | edge orgId source target relationType => rfl

theorem writes_signalActions (signal : Signal) :
    writes (signalActions python request signal) =
      keywordWrite request signal ::
        if 0 < signal.externalSupport then [externalWrite request signal] else [] := by
  unfold signalActions
  rw [writes_append]
  change (keywordWrite request signal :: writes (List.map _ _)) ++ _ = _
  rw [writes_edges (List.map _ _), List.singleton_append]
  · split <;> rfl
  · intro write member
    obtain ⟨entityId, _, equal⟩ := List.mem_map.mp member
    cases equal

theorem no_node_pairActions (pair : Signal × Signal) (write : NodeWrite) :
    Action.node write ∉ pairActions python request pair := by
  unfold pairActions
  simp only
  split
  · exact List.not_mem_nil
  · rw [List.mem_append]
    rintro (neighbour | emerging)
    · split at neighbour
      · cases List.mem_singleton.mp neighbour
      · cases neighbour
    · split at emerging
      · cases List.mem_singleton.mp emerging
      · split at emerging
        · cases List.mem_singleton.mp emerging
        · cases emerging

theorem writes_graphActions :
    writes (graphActions python request signals) =
      signals.flatMap fun signal => keywordWrite request signal ::
        if 0 < signal.externalSupport then [externalWrite request signal] else [] := by
  unfold graphActions
  rw [writes_append, writes_edges ((combinations _).flatMap _), List.append_nil, writes_flatMap]
  · simp only [writes_signalActions]
  · intro write member
    obtain ⟨pair, _, here⟩ := List.mem_flatMap.mp member
    exact no_node_pairActions request python pair write here

theorem mem_writes_graphActions {signals : List Signal} {write : NodeWrite}
    (member : write ∈ writes (graphActions python request signals)) :
    ∃ signal ∈ signals, write = keywordWrite request signal ∨ write = externalWrite request signal := by
  rw [writes_graphActions] at member
  obtain ⟨signal, signalMember, here⟩ := List.mem_flatMap.mp member
  refine ⟨signal, signalMember, ?_⟩
  rcases List.mem_cons.mp here with own | outside
  · exact .inl own
  · split at outside
    · exact .inr (List.mem_singleton.mp outside)
    · cases outside

theorem orgId_of_mem_writes {signals : List Signal} {write : NodeWrite}
    (member : write ∈ writes (graphActions python request signals)) :
    write.orgId = request.orgId := by
  obtain ⟨signal, _, rfl | rfl⟩ := mem_writes_graphActions request python member
  · rfl
  · rfl

theorem entities_persisted :
    (persisted request surroundings db).entities =
      (signalNodes surroundings.python).upsertAll db.entities
        (writes (graphActions surroundings.python request (selected request surroundings db))) :=
  entities_performAll surroundings.python _ _

theorem others_persisted :
    ((persisted request surroundings db).entities.rows.filter fun row => !isOwnNode request row) =
      db.entities.rows.filter fun row => !isOwnNode request row := by
  rw [entities_persisted]
  refine (signalNodes surroundings.python).filter_upsertAll _ db.entities _ ?_
  intro write member row own
  have source : row.source = some signalNodeSource := congrArg (fun key => key.2.1) own
  have orgId : row.orgId = write.orgId := congrArg (fun key => key.2.2) own
  unfold isOwnNode
  rw [source, orgId, orgId_of_mem_writes request surroundings.python member, beq_self_eq_true,
    beq_self_eq_true]
  rfl

theorem persisted_again
    (same : corpus surroundings.page request (persisted request surroundings db).entities.rows =
      corpus surroundings.page request db.entities.rows) :
    persisted request surroundings (persisted request surroundings db) =
      persisted request surroundings db := by
  have sameSignals : selected request surroundings (persisted request surroundings db) =
      selected request surroundings db :=
    congrArg (topSignals surroundings.python surroundings.scoring request) same
  have again := performAll_again surroundings.python db.entities db.relationships
    (graphActions surroundings.python request (selected request surroundings db))
    (placed_graphActions request surroundings.python _)
  simp only at again
  have parts : ∀ other : SignalDb, selected request surroundings other =
      selected request surroundings db → persisted request surroundings other =
        let session := performAll surroundings.python ⟨other.entities, other.relationships, []⟩
          (graphActions surroundings.python request (selected request surroundings db))
        ⟨session.entities, session.flushed ++ session.pending, other.hasOrganization⟩ := by
    intro other equal
    unfold persisted
    rw [equal]
  refine (parts _ sameSignals).trans ?_
  simp only [persisted, again, List.append_nil]

theorem materialize_again (apart : NotFedBack request surroundings db) :
    materializeKeywordSignals request surroundings (materializeKeywordSignals request surroundings db) =
      materializeKeywordSignals request surroundings db := by
  by_cases stores : request.persist = true ∧ selected request surroundings db ≠ []
  · rcases apart with off | none | apart
    · exact absurd stores.1 (by simp [off])
    · exact absurd ((selected_eq_nil_iff request surroundings db).mpr none) stores.2
    · by_cases accepted : accepts request (persisted request surroundings db) = true
      · have first : materializeKeywordSignals request surroundings db =
            persisted request surroundings db := by
          unfold materializeKeywordSignals
          rw [if_pos stores, if_pos accepted]
        have again := persisted_again request surroundings db
          (apart _ (others_persisted request surroundings db))
        rw [first]
        unfold materializeKeywordSignals
        rw [again, ite_self, ite_self]
      · have first : materializeKeywordSignals request surroundings db = db := by
          unfold materializeKeywordSignals
          rw [if_pos stores, if_neg accepted]
        rw [first, first]
  · have first : materializeKeywordSignals request surroundings db = db := if_neg stores
    rw [first, first]

theorem settled_of_notFedBack (apart : NotFedBack request surroundings db) :
    Settled request surroundings db := by
  intro count
  unfold repeated
  rw [Function.iterate_succ_apply,
    Function.iterate_fixed (materialize_again request surroundings db apart) count]

theorem corpusWithoutNodes_legacy (legacy : request.orgId = some legacyGlobalOrgId)
    (rows : List SignalEntity) : CorpusWithoutNodes request surroundings rows := by
  intro others same
  have reads : ∀ row, inQuery request row = true → isOwnNode request row = false := by
    intro row inside
    unfold inQuery at inside
    rw [legacy, Bool.and_eq_true] at inside
    have noOrganization : row.orgId = none := Option.isNone_iff_eq_none.mp inside.1
    unfold isOwnNode
    rw [noOrganization, legacy, Bool.and_eq_false_iff]
    exact .inr rfl
  have narrowed : ∀ rows : List SignalEntity, rows.filter (inQuery request) =
      (rows.filter fun row => !isOwnNode request row).filter (inQuery request) := by
    intro rows
    rw [List.filter_filter]
    refine List.filter_congr fun row _ => ?_
    cases inside : inQuery request row with
    | false => rfl
    | true => rw [reads row inside]; rfl
  unfold corpus
  rw [narrowed others, same, ← narrowed rows]

end Ukip.Signals.Idempotence
