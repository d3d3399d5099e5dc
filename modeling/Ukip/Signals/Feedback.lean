import Ukip.Signals.Idempotence
import Ukip.Signals.Labels

/-!
# Keyword runs that read their own nodes

Over source entities alone a second run reads the nodes of the first.  The node of a
keyword has the keyword as its label, so its support grows by one at least.
-/

namespace Ukip.Signals.Feedback

open Foundation.Tally (sortedBy_perm)
open Foundation.Upsert Tenancy.Access Keywords Signals.Graph Idempotence Labels

variable (request : Request) (surroundings : Surroundings)

/-- No run has stored anything; ids come from the sequence. -/
def SourcesOnly (db : SignalDb) : Prop :=
  ∀ row ∈ db.entities.rows, row.source ≠ some signalNodeSource ∧ row.id < db.entities.next

/-- The page holds all that the query selects. -/
def FitsPage (db : SignalDb) : Prop := (db.entities.rows.filter (inQuery request)).length ≤ 2000

theorem upTo_ne_nil_of_length_le {Item : Type} (limit : Int) (first second : List Item)
    (longer : first.length ≤ second.length) (some : upTo limit first ≠ []) :
    upTo limit second ≠ [] := by
  rw [← List.length_pos_iff] at some ⊢
  unfold upTo at some ⊢
  split at some
  · rename_i positive
    rw [if_pos positive]
    rw [List.length_take] at some ⊢
    omega
  · rename_i negative
    rw [if_neg negative]
    rw [List.length_take] at some ⊢
    omega

theorem mem_of_mem_upTo {Item : Type} {limit : Int} {items : List Item} {item : Item}
    (member : item ∈ upTo limit items) : item ∈ items := by
  unfold upTo at member
  split at member <;> exact List.mem_of_mem_take member

theorem length_le_of_subset {Item : Type} {first second : List Item}
    (distinct : first.Nodup) (inside : first ⊆ second) : first.length ≤ second.length :=
  (List.subperm_of_subset distinct inside).length_le

variable (python : Python)

variable {first second : List SignalEntity}

theorem allTerms_subset (inside : first ⊆ second) :
    allTerms python first ⊆ allTerms python second := by
  intro term member
  rw [allTerms, List.mem_dedup, List.mem_flatMap] at member ⊢
  obtain ⟨entity, entityMember, here⟩ := member
  exact ⟨entity, inside entityMember, here⟩

variable (scoring : Scoring)

theorem topSignals_ne_nil (inside : first ⊆ second)
    (some : topSignals python scoring request first ≠ []) :
    topSignals python scoring request second ≠ [] := by
  refine upTo_ne_nil_of_length_le _ _ _ ?_ some
  unfold signals
  rw [(sortedBy_perm _ _).length_eq, (sortedBy_perm _ _).length_eq, List.length_map,
    List.length_map]
  exact length_le_of_subset (List.nodup_dedup _) (allTerms_subset python inside)

theorem signal_of_mem_topSignals {entities : List SignalEntity} {signal : Signal}
    (member : signal ∈ topSignals python scoring request entities) :
    signal = signalOf python scoring entities signal.keyword ∧
      ∃ entity ∈ entities, signal.keyword ∈ terms python entity := by
  have ranked := (sortedBy_perm _ _).mem_iff.mp (mem_of_mem_upTo member)
  obtain ⟨term, found, rfl⟩ := List.mem_map.mp ranked
  rw [allTerms, List.mem_dedup, List.mem_flatMap] at found
  exact ⟨rfl, found⟩

theorem mem_entityIds (entities : List SignalEntity) (term : Text) (id : Nat) :
    id ∈ entityIds python entities term ↔
      ∃ entity ∈ entities, term ∈ terms python entity ∧ entity.id = id := by
  unfold entityIds documents
  rw [(sortedBy_perm _ _).mem_iff, List.mem_dedup, List.mem_map]
  constructor
  · rintro ⟨entity, member, rfl⟩
    obtain ⟨inside, found⟩ := List.mem_filter.mp member
    exact ⟨entity, inside, of_decide_eq_true found, rfl⟩
  · rintro ⟨entity, inside, found, rfl⟩
    exact ⟨entity, List.mem_filter.mpr ⟨inside, decide_eq_true found⟩, rfl⟩

theorem support_lt (inside : first ⊆ second) (term : Text) (new : SignalEntity)
    (read : new ∈ second) (found : term ∈ terms python new)
    (fresh : ∀ entity ∈ first, entity.id ≠ new.id) :
    (signalOf python scoring first term).supportCount <
      (signalOf python scoring second term).supportCount := by
  change (entityIds python first term).length < (entityIds python second term).length
  have absent : new.id ∉ entityIds python first term := by
    intro member
    obtain ⟨entity, entityMember, _, same⟩ := (mem_entityIds python first term new.id).mp member
    exact fresh entity entityMember same
  have distinct : (new.id :: entityIds python first term).Nodup :=
    List.nodup_cons.mpr ⟨absent, ((sortedBy_perm _ _).nodup_iff).mpr (List.nodup_dedup _)⟩
  refine length_le_of_subset distinct fun id member => ?_
  rcases List.mem_cons.mp member with rfl | old
  · exact (mem_entityIds python second term new.id).mpr ⟨new, read, found, rfl⟩
  · obtain ⟨entity, entityMember, has, same⟩ := (mem_entityIds python first term id).mp old
    exact (mem_entityIds python second term id).mpr ⟨entity, inside entityMember, has, same⟩

theorem prefix_of_same_key (first second : NodeWrite)
    (same : (signalNodes python).key first = (signalNodes python).key second) :
    first.mark.entityType = second.mark.entityType := by
  have canonical : first.canonicalId python = second.canonicalId python :=
    Option.some.inj (congrArg (fun key => key.1) same)
  unfold NodeWrite.canonicalId at canonical
  cases firstMark : first.mark with
  | keyword signal =>
    cases secondMark : second.mark with
    | keyword other => rfl
    | external support =>
      rw [firstMark, secondMark] at canonical
      exact absurd (List.cons.inj canonical).1 (by decide)
  | external support =>
    cases secondMark : second.mark with
    | external other => rfl
    | keyword signal =>
      rw [firstMark, secondMark] at canonical
      exact absurd (List.cons.inj canonical).1 (by decide)

structure IsWritten (bound : Nat) (write : NodeWrite) (row : SignalEntity) : Prop where
  fresh : bound ≤ row.id
  key : rowKey row = (signalNodes python).key write
  label : row.primaryLabel = some write.label
  domain : row.domain = some write.domainId
  signal : ∀ signal, write.mark = .keyword signal → row.semanticSignal = some signal

theorem isWritten_writeNode (bound : Nat) (write : NodeWrite) (row : SignalEntity)
    (fresh : bound ≤ row.id) (key : rowKey row = (signalNodes python).key write) :
    IsWritten python bound write (writeNode write row) := by
  obtain ⟨orgId, domainId, label, mark⟩ := write
  cases mark with
  | keyword signal =>
    exact ⟨fresh, key, rfl, rfl, fun other equal => congrArg some (NodeMark.keyword.inj equal)⟩
  | external support => exact ⟨fresh, key, rfl, rfl, nofun⟩

theorem nodes_of_run (store : Store SignalEntity) (writes : List NodeWrite)
    (sources : ∀ row ∈ store.rows, row.source ≠ some signalNodeSource ∧ row.id < store.next) :
    ∀ row ∈ ((signalNodes python).upsertAll store writes).rows,
      row.source = some signalNodeSource →
      ∃ write ∈ writes, IsWritten python store.next write row := by
  refine (signalNodes python).upsertAll_forall
    (fun row => row.source = some signalNodeSource →
      ∃ write ∈ writes, IsWritten python store.next write row) writes store ?_ ?_ ?_
  · intro write member row earlier own source
    have sourceKept : (writeNode write row).source = row.source := by
      unfold writeNode
      cases write.mark <;> rfl
    obtain ⟨old, _, written⟩ := earlier (sourceKept.symm.trans source)
    exact ⟨write, member, isWritten_writeNode python _ write row written.fresh own⟩
  · intro write member value after _
    exact ⟨write, member, isWritten_writeNode python _ write _ after rfl⟩
  · exact fun row member source => absurd source (sources row member).1

section SecondRun

variable (db : SignalDb)

theorem corpus_subset (sources : SourcesOnly db)
    (fits : FitsPage request (persisted request surroundings db)) :
    corpus surroundings.page request db.entities.rows ⊆
      corpus surroundings.page request (persisted request surroundings db).entities.rows := by
  intro row member
  obtain ⟨stored, inside⟩ := List.mem_filter.mp (surroundings.page.pick_subset _ member)
  refine (surroundings.page.pick_perm _ fits).mem_iff.mpr (List.mem_filter.mpr ⟨?_, inside⟩)
  rw [entities_persisted]
  refine (signalNodes surroundings.python).mem_upsertAll_of_other stored fun write _ same => ?_
  exact (sources row stored).1 (congrArg (fun key => key.2.1) same)

theorem inQuery_node (shared : request.orgId ≠ some legacyGlobalOrgId) (row : SignalEntity)
    (orgId : row.orgId = request.orgId) (domain : row.domain = some request.domainId) :
    inQuery request row = true := by
  unfold inQuery
  rw [Bool.and_eq_true]
  constructor
  · unfold inScope isLegacyGlobalScope
    rw [orgId]
    cases scope : request.orgId with
    | none => rfl
    | some value =>
      rw [scope] at shared
      rw [if_neg (by simp), beq_false_of_ne shared, if_neg (by simp)]
      simp
  · unfold inDomain
    rw [domain]
    split
    · rfl
    · split
      · rename_i isDefault
        rw [isDefault]
        rfl
      · exact beq_self_eq_true _

theorem last_keyword_written (filled : selected request surroundings db ≠ []) :
    ∃ signal ∈ selected request surroundings db,
      ∃ row ∈ (persisted request surroundings db).entities.rows,
        rowKey row = (signalNodes surroundings.python).key (keywordWrite request signal) ∧
          ∃ mark, (keywordWrite request signal).mark = .keyword mark ∧
            row.semanticSignal = some mark := by
  let signal := (selected request surroundings db).getLast filled
  have parts : selected request surroundings db =
      (selected request surroundings db).dropLast ++ [signal] :=
    (List.dropLast_append_getLast filled).symm
  obtain ⟨row, key, written⟩ := (signalNodes surroundings.python).patched_mem_upsertAll db.entities
    (((selected request surroundings db).dropLast).flatMap fun earlier =>
      keywordWrite request earlier ::
        if 0 < earlier.externalSupport then [externalWrite request earlier] else [])
    (keywordWrite request signal)
    (if 0 < signal.externalSupport then [externalWrite request signal] else []) (by
      intro later member same
      split at member
      · rw [List.mem_singleton.mp member] at same
        exact absurd (prefix_of_same_key surroundings.python _ _ same)
          (by simp [keywordWrite, externalWrite, NodeMark.entityType])
      · cases member)
  refine ⟨signal, List.getLast_mem filled, writeNode (keywordWrite request signal) row, ?_, ?_, _,
    rfl, rfl⟩
  · have stored : writeNode (keywordWrite request signal) row ∈ _ := written
    rw [entities_persisted, writes_graphActions, parts, List.flatMap_append]
    simpa only [List.flatMap_cons, List.flatMap_nil, List.append_nil] using stored
  · exact ((signalNodes surroundings.python).keyOf_patch _ row).trans key

theorem support_lt_of_node (shared : request.orgId ≠ some legacyGlobalOrgId)
    (sources : SourcesOnly db) (fits : FitsPage request (persisted request surroundings db))
    (signal : Signal) (member : signal ∈ selected request surroundings db) (row : SignalEntity)
    (stored : row ∈ (persisted request surroundings db).entities.rows)
    (written : IsWritten surroundings.python db.entities.next (keywordWrite request signal) row) :
    signal.supportCount < (signalOf surroundings.python surroundings.scoring
      (corpus surroundings.page request (persisted request surroundings db).entities.rows)
      signal.keyword).supportCount := by
  obtain ⟨signalIs, entity, entityMember, found⟩ :=
    signal_of_mem_topSignals request surroundings.python surroundings.scoring member
  have orgId : row.orgId = request.orgId := congrArg (fun key => key.2.2) written.key
  have read : row ∈ corpus surroundings.page request
      (persisted request surroundings db).entities.rows :=
    (surroundings.page.pick_perm _ fits).mem_iff.mpr (List.mem_filter.mpr
      ⟨stored, inQuery_node request shared row orgId written.domain⟩)
  have named := mem_terms_of_label surroundings.python entity row signal.keyword found written.label
  have fresh : ∀ old ∈ corpus surroundings.page request db.entities.rows, old.id ≠ row.id := by
    intro old oldMember equal
    obtain ⟨oldStored, -⟩ := List.mem_filter.mp (surroundings.page.pick_subset _ oldMember)
    have below := (sources old oldStored).2
    have above := written.fresh
    omega
  have grown := support_lt surroundings.python surroundings.scoring
    (corpus_subset request surroundings db sources fits) signal.keyword row read named fresh
  rwa [← signalIs] at grown

theorem snapshot_persisted_of_settled (persists : request.persist = true)
    (filled : selected request surroundings db ≠ [])
    (filledAgain : selected request surroundings (persisted request surroundings db) ≠ [])
    (accepted : accepts request (persisted request surroundings db) = true)
    (acceptedAgain : accepts request
      (persisted request surroundings (persisted request surroundings db)) = true)
    (settled : Settled request surroundings db) :
    snapshot (persisted request surroundings (persisted request surroundings db)) =
      snapshot (persisted request surroundings db) := by
  have first : materializeKeywordSignals request surroundings db =
      persisted request surroundings db := by
    unfold materializeKeywordSignals
    rw [if_pos ⟨persists, filled⟩, if_pos accepted]
  have second : materializeKeywordSignals request surroundings
      (persisted request surroundings db) =
        persisted request surroundings (persisted request surroundings db) := by
    unfold materializeKeywordSignals
    rw [if_pos ⟨persists, filledAgain⟩, if_pos acceptedAgain]
  have once := settled 1
  unfold repeated at once
  rwa [Function.iterate_succ_apply, Function.iterate_one, first, second] at once

theorem not_settled (persists : request.persist = true)
    (filled : selected request surroundings db ≠ [])
    (shared : request.orgId ≠ some legacyGlobalOrgId) (sources : SourcesOnly db)
    (fits : FitsPage request (persisted request surroundings db))
    (accepted : accepts request (persisted request surroundings db) = true)
    (acceptedAgain : accepts request
      (persisted request surroundings (persisted request surroundings db)) = true) :
    ¬ Settled request surroundings db := by
  intro settled
  let after := persisted request surroundings db
  have inside := corpus_subset request surroundings db sources fits
  have filledAgain : selected request surroundings after ≠ [] :=
    topSignals_ne_nil request surroundings.python surroundings.scoring inside filled
  have same : snapshot (persisted request surroundings after) = snapshot after :=
    snapshot_persisted_of_settled request surroundings db persists filled filledAgain accepted
      acceptedAgain settled
  -- the last keyword of the second run, as its node is stored after it
  obtain ⟨signal, member, row, rowMember, rowKeyIs, mark, markIs, marked⟩ :=
    last_keyword_written request surroundings after filledAgain
  have source : row.source = some signalNodeSource := congrArg (fun key => key.2.1) rowKeyIs
  have stored : row ∈ after.entities.rows := by
    have listed : row ∈ (snapshot (persisted request surroundings after)).1 :=
      List.mem_filter.mpr ⟨rowMember, by rw [source]; exact beq_self_eq_true _⟩
    rw [same] at listed
    exact (List.mem_filter.mp listed).1
  -- the same row is a node of the first run
  obtain ⟨write, writeMember, written⟩ := nodes_of_run surroundings.python db.entities _ sources
    row (by rw [← entities_persisted]; exact stored) source
  have kind := prefix_of_same_key surroundings.python write (keywordWrite request signal)
    (written.key.symm.trans rowKeyIs)
  obtain ⟨earlier, earlierMember, rfl | rfl⟩ :=
    mem_writes_graphActions request surroundings.python writeMember
  · have marks := Option.some.inj ((written.signal _ rfl).symm.trans marked)
    rw [NodeMark.keyword.inj (markIs.symm.trans (rfl : (keywordWrite request signal).mark = _))]
      at marks
    have keyword : earlier.keyword = signal.keyword := congrArg (fun mark => mark.keyword) marks
    have support : earlier.supportCount = signal.supportCount :=
      congrArg (fun mark => mark.supportCount) marks
    obtain ⟨signalIs, -⟩ :=
      signal_of_mem_topSignals request surroundings.python surroundings.scoring member
    have grown := support_lt_of_node request surroundings db shared sources fits earlier
      earlierMember row stored written
    rw [keyword, ← signalIs, support] at grown
    exact Nat.lt_irrefl _ grown
  · exact absurd kind (by simp [keywordWrite, externalWrite, NodeMark.entityType])

end SecondRun

/-- Both runs of a request pass the constraints, and the page shows the second all rows. -/
structure RunsTwice (db : SignalDb) : Prop where
  sources : SourcesOnly db
  fits : FitsPage request (persisted request surroundings db)
  accepted : accepts request (persisted request surroundings db) = true
  acceptedAgain : accepts request
    (persisted request surroundings (persisted request surroundings db)) = true

/-- A request whose nodes are not read settles at once; over source entities no other does. -/
theorem settled_iff_notFedBack (db : SignalDb) :
    (NotFedBack request surroundings db → Settled request surroundings db) ∧
      (RunsTwice request surroundings db →
        (Settled request surroundings db ↔ NotFedBack request surroundings db)) := by
  refine ⟨settled_of_notFedBack request surroundings db, fun runs =>
    ⟨fun settled => ?_, settled_of_notFedBack request surroundings db⟩⟩
  by_cases persists : request.persist = true
  · by_cases filled : selected request surroundings db = []
    · exact .inr (.inl ((selected_eq_nil_iff request surroundings db).mp filled))
    · by_cases legacy : request.orgId = some legacyGlobalOrgId
      · exact .inr (.inr (corpusWithoutNodes_legacy request surroundings legacy _))
      · exact absurd settled (not_settled request surroundings db persists filled legacy
          runs.sources runs.fits runs.accepted runs.acceptedAgain)
  · exact .inl (Bool.eq_false_iff.mpr persists)

def plainPython : Python where
  lower := id
  isSpace := fun char => char ∈ [' ', '\t', '\n', '\r']
  str := fun _ => []
  int := fun _ => none
  isSpace_blank := by decide
  isSpace_word := by
    intro char word
    refine decide_eq_false fun blank => ?_
    have none : [' ', '\t', '\n', '\r'].all (fun char => !isWordChar char) = true := by
      decide
    have apart := List.all_eq_true.mp none char blank
    rw [word] at apart
    cases apart
  lower_words := fun _ _ => rfl

def plainScoring : Scoring where
  isDistinctive := fun tf _ totalDocs => totalDocs ≤ tf
  opportunity := fun tf support totalDocs words externalSupport =>
    min 10000 (2400 * tf / totalDocs + 500 * words + 800 * externalSupport + 200 * support)

def firstRows : Page where
  pick := List.take 2000
  pick_subset := fun rows => List.take_subset 2000 rows
  pick_perm := fun rows few => by rw [List.take_of_length_le few]

def plain : Surroundings := ⟨plainPython, plainScoring, firstRows⟩

def article : SignalEntity where
  id := 1
  orgId := none
  domain := some "default"
  entityType := none
  primaryLabel := some (text "quantum")
  canonicalId := none
  source := some "user"
  enrichmentConcepts := none
  attributes := []
  semanticSignal := none
  externalSupport := none

def oneArticle : SignalDb := ⟨⟨[article], 2⟩, [], fun _ => true⟩

def everything : Request := ⟨"all", none, true, 50⟩

/-- The second run finds the keyword in the article and on its node. -/
theorem second_run_counts_node :
    ¬ ∀ (request : Request) (surroundings : Surroundings) (db : SignalDb),
      SourcesOnly db → Settled request surroundings db := by
  intro always
  have sources : SourcesOnly oneArticle := by
    intro row member
    rw [List.mem_singleton.mp member]
    decide
  have supports := congrArg
    (fun signals => signals.1.map fun row => row.semanticSignal.map SemanticSignal.supportCount)
    (always everything plain oneArticle sources 1)
  exact absurd supports (by decide)

theorem article_settled_iff_notFedBack :
    Settled { everything with persist := false } plain oneArticle ∧
      (Settled everything plain oneArticle ↔ NotFedBack everything plain oneArticle) := by
  refine ⟨(settled_iff_notFedBack _ plain oneArticle).1 (.inl rfl),
    (settled_iff_notFedBack everything plain oneArticle).2 ⟨?_, ?_, ?_, ?_⟩⟩
  · intro row member
    rw [List.mem_singleton.mp member]
    decide
  · unfold FitsPage
    decide
  · decide
  · decide

end Ukip.Signals.Feedback
