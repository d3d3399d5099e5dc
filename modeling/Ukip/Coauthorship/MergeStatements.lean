import Ukip.Coauthorship.SingleWrite
import Ukip.Coauthorship.OrcidUpsert

/-!
# The statements of a merge

`merge_authors` of `coauthorship/identity.py` as the statements that it sends, each checked
against the unique columns when it is sent.  The flush at the end sends the UPDATE of the winner
before the DELETE of the loser.  The audit row stands where it is added to the session, though
that flush inserts it: no statement in between reads the audits.
-/

namespace Ukip.Coauthorship.MergeStatements

open Foundation.JsonValue Foundation.Tally Identity Artifacts Merges SingleWrite OrcidUpsert

structure MergeNote where
  tier : String
  reason : String
  performedBy : Option Nat
  evidence : Option Entries

structure AuthorMergeAudit where
  id : Nat
  winnerAuthorId : Nat
  loserAuthorId : Nat
  tier : String
  reason : String
  evidence : Entries
  performedBy : Option Nat

structure Database where
  store : Store
  audits : List AuthorMergeAudit
  lastAuditId : Nat

def statsKey (row : AuthorStats) : Nat × Scope := (row.authorId, row.scope)

/-- The primary keys and UNIQUE columns of the tables, and the sequence behind the audit ids. -/
structure Constrained (database : Database) : Prop where
  authorIds : (database.store.authors.rows.map Author.id).Nodup
  authors : Unique database.store.authors.rows
  publications : (database.store.publications.map publicationKey).Nodup
  contributions : (database.store.contributions.map contributionKey).Nodup
  edges : (database.store.edges.map Prod.fst).Nodup
  stats : (database.store.stats.map statsKey).Nodup
  suggestions : (database.store.suggestions.map AuthorMergeSuggestion.id).Nodup
  audits : (database.audits.map AuthorMergeAudit.id).Nodup
  auditSequence : ∀ row ∈ database.audits, row.id ≤ database.lastAuditId

instance (database : Database) : Decidable (Constrained database) :=
  decidable_of_iff
    ((database.store.authors.rows.map Author.id).Nodup ∧ Unique database.store.authors.rows ∧
      (database.store.publications.map publicationKey).Nodup ∧
      (database.store.contributions.map contributionKey).Nodup ∧
      (database.store.edges.map Prod.fst).Nodup ∧ (database.store.stats.map statsKey).Nodup ∧
      (database.store.suggestions.map AuthorMergeSuggestion.id).Nodup ∧
      (database.audits.map AuthorMergeAudit.id).Nodup ∧
      ∀ row ∈ database.audits, row.id ≤ database.lastAuditId)
    ⟨fun ⟨ids, authors, publications, contributions, edges, stats, suggestions, audits, sequence⟩ =>
      ⟨ids, authors, publications, contributions, edges, stats, suggestions, audits, sequence⟩,
    fun held => ⟨held.authorIds, held.authors, held.publications, held.contributions, held.edges,
      held.stats, held.suggestions, held.audits, held.auditSequence⟩⟩

def auditOf (database : Database) (winner loser : Author) (note : MergeNote) : AuthorMergeAudit where
  id := database.lastAuditId + 1
  winnerAuthorId := winner.id
  loserAuthorId := loser.id
  tier := note.tier
  reason := note.reason
  evidence := note.evidence.getD []
  performedBy := note.performedBy

def insertAudit (winner loser : Author) (note : MergeNote) (database : Database) : Database :=
  { database with
    audits := database.audits ++ [auditOf database winner loser note]
    lastAuditId := database.lastAuditId + 1 }

def deleteShared (winner loser : Author) (database : Database) : Database :=
  let winnerEntityIds := (database.store.publications.filter fun row =>
    row.authorId = winner.id).map AuthorPublication.entityId
  { database with store := { database.store with
      publications := database.store.publications.filter fun row =>
        ¬ (row.authorId = loser.id ∧ row.entityId ∈ winnerEntityIds) } }

def repointPublications (winner loser : Author) (database : Database) : Database :=
  { database with store := { database.store with
      publications := database.store.publications.map fun row =>
        { row with authorId := repointed winner.id loser.id row.authorId } } }

def deleteStats (loser : Author) (database : Database) : Database :=
  { database with store := { database.store with
      stats := database.store.stats.filter fun row => row.authorId ≠ loser.id } }

def repointFirst (winner loser : Author) (database : Database) : Database :=
  { database with store := { database.store with
      suggestions := database.store.suggestions.map fun row =>
        { row with authorA := repointed winner.id loser.id row.authorA } } }

def repointSecond (winner loser : Author) (database : Database) : Database :=
  { database with store := { database.store with
      suggestions := database.store.suggestions.map fun row =>
        { row with authorB := repointed winner.id loser.id row.authorB } } }

def deleteContributions (loser : Author) (database : Database) : Database :=
  { database with store := { database.store with
      contributions := database.store.contributions.filter fun row => !row.edge.involves loser.id } }

def deleteEdges (loser : Author) (database : Database) : Database :=
  { database with store := { database.store with
      edges := database.store.edges.filter fun entry => !entry.1.involves loser.id } }

def mergedRow (winner loser : Author) (row : Author) : Author :=
  if row.id = winner.id then
    { row with
      aliases := setAliases (winner.aliases ++ loser.aliases ++ [loser.displayName])
      orcid := if adopts winner loser.orcid then loser.orcid else row.orcid }
  else row

def updateWinner (winner loser : Author) (database : Database) : Database :=
  { database with store := { database.store with
      authors := { database.store.authors with
        rows := database.store.authors.rows.map (mergedRow winner loser) } } }

def deleteLoser (loser : Author) (database : Database) : Database :=
  { database with store := { database.store with
      authors := { database.store.authors with
        rows := database.store.authors.rows.filter fun row => row.id ≠ loser.id } } }

def mergeStatements (winner loser : Author) (note : MergeNote) : List (Database → Database) :=
  [insertAudit winner loser note, deleteShared winner loser, repointPublications winner loser,
    deleteStats loser, repointFirst winner loser, repointSecond winner loser,
    deleteContributions loser, deleteEdges loser, updateWinner winner loser, deleteLoser loser]

def send (database : Database) (statement : Database → Database) : Except Raised Database :=
  if Constrained (statement database) then .ok (statement database) else .error .integrityError

/-- `merge_authors` -/
def sendMerge (database : Database) (winner loser : Author) (note : MergeNote) :
    Except Raised Database :=
  if winner.id = loser.id then .ok database
  else (mergeStatements winner loser note).foldlM send database

variable {database : Database} {winner loser : Author} {statement : Database → Database}

theorem send_accepted (accepted : Constrained (statement database))
    (rest : List (Database → Database)) :
    (statement :: rest).foldlM send database = rest.foldlM send (statement database) := by
  rw [List.foldlM_cons, send, if_pos accepted]
  rfl

theorem send_refused (refused : ¬ Constrained (statement database))
    (rest : List (Database → Database)) :
    (statement :: rest).foldlM send database = .error .integrityError := by
  rw [List.foldlM_cons, send, if_neg refused]
  rfl

variable (note : MergeNote)

theorem insertAudit_constrained (held : Constrained database) :
    Constrained (insertAudit winner loser note database) := by
  refine { held with audits := ?_, auditSequence := ?_ }
  · simp only [insertAudit, List.map_append, List.map_singleton]
    refine held.audits.append (List.nodup_singleton _) (List.disjoint_singleton.mpr fun member => ?_)
    obtain ⟨row, stored, same⟩ := List.mem_map.mp member
    have bound := held.auditSequence row stored
    have next : row.id = database.lastAuditId + 1 := same
    omega
  · intro row member
    rcases List.mem_append.mp member with old | new
    · exact Nat.le_succ_of_le (held.auditSequence row old)
    · obtain rfl := List.mem_singleton.mp new
      exact Nat.le_refl _

theorem deleteShared_constrained (held : Constrained database) :
    Constrained (deleteShared winner loser database) :=
  { held with publications := held.publications.sublist (List.filter_sublist.map publicationKey) }

theorem mergedPublications_keyed {publications : List AuthorPublication} {winnerId loserId : Nat}
    (keyed : (publications.map publicationKey).Nodup) :
    ((mergedPublications publications winnerId loserId).map publicationKey).Nodup := by
  unfold mergedPublications
  rw [List.map_map]
  refine List.Nodup.map_on ?_ ((List.Nodup.of_map publicationKey keyed).filter _)
  intro first firstIn second secondIn same
  obtain ⟨firstStored, firstKept⟩ := List.mem_filter.mp firstIn
  obtain ⟨secondStored, secondKept⟩ := List.mem_filter.mp secondIn
  obtain ⟨sameAuthor, sameEntity⟩ :
      repointed winnerId loserId first.authorId = repointed winnerId loserId second.authorId ∧
        first.entityId = second.entityId := by simpa [publicationKey] using same
  have winners : ∀ row ∈ publications, row.authorId = winnerId →
      row.entityId ∈ (publications.filter fun row => row.authorId = winnerId).map
        AuthorPublication.entityId := fun row stored ofWinner =>
    List.mem_map_of_mem (List.mem_filter.mpr ⟨stored, by simpa using ofWinner⟩)
  refine List.inj_on_of_nodup_map keyed firstStored secondStored ?_
  unfold repointed at sameAuthor
  split at sameAuthor <;> split at sameAuthor
  · rename_i firstLoser secondLoser
    simp [publicationKey, firstLoser, secondLoser, sameEntity]
  · rename_i firstLoser _
    have shared := winners second secondStored sameAuthor.symm
    simp [firstLoser, sameEntity, shared] at firstKept
  · rename_i _ secondLoser
    have shared := winners first firstStored sameAuthor
    simp [secondLoser, ← sameEntity, shared] at secondKept
  · simp [publicationKey, sameAuthor, sameEntity]

section

variable (held : Constrained database)

include held

theorem repointPublications_constrained :
    Constrained (repointPublications winner loser (deleteShared winner loser database)) :=
  have shared : Constrained (deleteShared winner loser database) := deleteShared_constrained held
  { shared with publications := mergedPublications_keyed held.publications }

theorem deleteStats_constrained :
    Constrained (deleteStats loser database) :=
  { held with stats := held.stats.sublist (List.filter_sublist.map statsKey) }

theorem repointFirst_constrained :
    Constrained (repointFirst winner loser database) :=
  { held with
    suggestions := by
      simpa [repointFirst, List.map_map, Function.comp_def] using held.suggestions }

theorem repointSecond_constrained :
    Constrained (repointSecond winner loser database) :=
  { held with
    suggestions := by
      simpa [repointSecond, List.map_map, Function.comp_def] using held.suggestions }

theorem deleteContributions_constrained :
    Constrained (deleteContributions loser database) :=
  { held with
    contributions := held.contributions.sublist (List.filter_sublist.map contributionKey) }

theorem deleteEdges_constrained :
    Constrained (deleteEdges loser database) :=
  { held with edges := held.edges.sublist (List.filter_sublist.map Prod.fst) }

end

@[simp] theorem mergedRow_id (row : Author) : (mergedRow winner loser row).id = row.id := by
  unfold mergedRow
  split <;> rfl

@[simp] theorem mergedRow_nameKey (row : Author) :
    (mergedRow winner loser row).nameKey = row.nameKey := by
  unfold mergedRow
  split <;> rfl

theorem mergedRow_orcid (row : Author) :
    (mergedRow winner loser row).orcid =
      if row.id = winner.id ∧ adopts winner loser.orcid = true then loser.orcid else row.orcid := by
  unfold mergedRow
  by_cases here : row.id = winner.id <;> simp [here]

/-- The UPDATE of the flush is refused exactly if it hands over an ORCID: the loser still has
it. -/
theorem updateWinner_constrained_iff (held : Constrained database)
    (winnerIn : winner ∈ database.store.authors.rows) (loserIn : loser ∈ database.store.authors.rows)
    (different : winner.id ≠ loser.id) :
    Constrained (updateWinner winner loser database) ↔ adopts winner loser.orcid = false := by
  constructor
  · intro accepted
    refine Bool.eq_false_iff.mpr fun adopted => different ?_
    have given : loser.orcid ≠ none := fun none => by simp [adopts, filled, none] at adopted
    have clash := accepted.authors.orcids _ (List.mem_map_of_mem winnerIn) _
      (List.mem_map_of_mem loserIn)
    simp only [mergedRow_orcid, mergedRow_id, adopted, different.symm, and_true, if_true,
      if_false] at clash
    exact clash given trivial
  · intro keeps
    have sameOrcid : ∀ row, (mergedRow winner loser row).orcid = row.orcid := fun row => by
      simp [mergedRow_orcid, keeps]
    refine { held with authorIds := ?_, authors := ⟨?_, ?_⟩ }
    · simpa [updateWinner, List.map_map, Function.comp_def] using held.authorIds
    · simp only [updateWinner, List.forall_mem_map, mergedRow_nameKey, mergedRow_id]
      exact held.authors.keys
    · simp only [updateWinner, List.forall_mem_map, sameOrcid, mergedRow_id]
      exact held.authors.orcids

theorem deleteLoser_constrained (held : Constrained database) :
    Constrained (deleteLoser loser database) := by
  have kept : ∀ row ∈ (deleteLoser loser database).store.authors.rows,
      row ∈ database.store.authors.rows := fun row member => (List.mem_filter.mp member).1
  refine { held with authorIds := ?_, authors := ⟨?_, ?_⟩ }
  · exact held.authorIds.sublist (List.filter_sublist.map Author.id)
  · exact fun first firstIn second secondIn =>
      held.authors.keys first (kept first firstIn) second (kept second secondIn)
  · exact fun first firstIn second secondIn =>
      held.authors.orcids first (kept first firstIn) second (kept second secondIn)

def repointedDatabase (database : Database) (winner loser : Author) (note : MergeNote) : Database :=
  ([insertAudit winner loser note, deleteShared winner loser, repointPublications winner loser,
    deleteStats loser, repointFirst winner loser, repointSecond winner loser,
    deleteContributions loser, deleteEdges loser] : List (Database → Database)).foldl
      (fun rows statement => statement rows) database

theorem repointed_constrained (held : Constrained database) :
    Constrained (repointedDatabase database winner loser note) :=
  deleteEdges_constrained <| deleteContributions_constrained <| repointSecond_constrained <|
    repointFirst_constrained <| deleteStats_constrained <| repointPublications_constrained <|
      insertAudit_constrained note held

theorem sendMerge_flush (held : Constrained database) (different : winner.id ≠ loser.id) :
    sendMerge database winner loser note =
      [updateWinner winner loser, deleteLoser loser].foldlM send
        (repointedDatabase database winner loser note) := by
  have audited : Constrained (insertAudit winner loser note database) :=
    insertAudit_constrained note held
  have moved : Constrained (repointPublications winner loser (deleteShared winner loser
      (insertAudit winner loser note database))) := repointPublications_constrained audited
  unfold sendMerge mergeStatements
  rw [if_neg different, send_accepted audited, send_accepted (deleteShared_constrained audited),
    send_accepted moved, send_accepted (deleteStats_constrained moved),
    send_accepted (repointFirst_constrained (deleteStats_constrained moved)),
    send_accepted (repointSecond_constrained
      (repointFirst_constrained (deleteStats_constrained moved))),
    send_accepted (deleteContributions_constrained (repointSecond_constrained
      (repointFirst_constrained (deleteStats_constrained moved)))),
    send_accepted (deleteEdges_constrained (deleteContributions_constrained
      (repointSecond_constrained (repointFirst_constrained (deleteStats_constrained moved)))))]
  rfl

theorem flushed_merge (keeps : adopts winner loser.orcid = false) :
    deleteLoser loser (updateWinner winner loser (repointedDatabase database winner loser note)) =
      { store := mergedStore database.store winner loser
        audits := database.audits ++ [auditOf database winner loser note]
        lastAuditId := database.lastAuditId + 1 } := by
  have sameRow : mergedRow winner loser = fun row =>
      if row.id = winner.id then
        { row with aliases := setAliases (winner.aliases ++ loser.aliases ++ [loser.displayName]) }
      else row := by
    funext row
    simp [mergedRow, keeps]
  simp only [deleteLoser, updateWinner, repointedDatabase, List.foldl_cons, List.foldl_nil,
    insertAudit, deleteShared, repointPublications, deleteStats, repointFirst, repointSecond,
    deleteContributions, deleteEdges, List.map_map, Function.comp_def, sameRow, mergedStore,
    mergedPublications]

theorem sendMerge_eq (held : Constrained database) (winnerIn : winner ∈ database.store.authors.rows)
    (loserIn : loser ∈ database.store.authors.rows) (different : winner.id ≠ loser.id) :
    sendMerge database winner loser note =
      (mergeAuthors database.store winner loser).map fun store =>
        { store := store
          audits := database.audits ++ [auditOf database winner loser note]
          lastAuditId := database.lastAuditId + 1 } := by
  have before : Constrained (repointedDatabase database winner loser note) :=
    repointed_constrained note held
  have update : Constrained (updateWinner winner loser
      (repointedDatabase database winner loser note)) ↔ adopts winner loser.orcid = false :=
    updateWinner_constrained_iff before winnerIn loserIn different
  rw [sendMerge_flush note held different]
  unfold mergeAuthors
  rw [if_neg different]
  by_cases keeps : adopts winner loser.orcid = false
  · have updated := update.mpr keeps
    have refusal : (filled loser.orcid && !filled winner.orcid) = false := keeps
    rw [send_accepted updated, send_accepted (deleteLoser_constrained updated), flushed_merge note keeps,
      refusal]
    rfl
  · have refusal : (filled loser.orcid && !filled winner.orcid) = true := by
      simpa [adopts] using keeps
    rw [send_refused (mt update.mp keeps), refusal]
    rfl

/-- No row is the author, and no column with a foreign key to the authors holds its id. -/
structure Unreferenced (store : Store) (authorId : Nat) : Prop where
  authors : ∀ row ∈ store.authors.rows, row.id ≠ authorId
  publications : ∀ row ∈ store.publications, row.authorId ≠ authorId
  contributions : ∀ row ∈ store.contributions,
    row.edge.authorA ≠ authorId ∧ row.edge.authorB ≠ authorId
  edges : ∀ entry ∈ store.edges, entry.1.authorA ≠ authorId ∧ entry.1.authorB ≠ authorId
  stats : ∀ row ∈ store.stats, row.authorId ≠ authorId
  suggestions : ∀ row ∈ store.suggestions, row.authorA ≠ authorId ∧ row.authorB ≠ authorId

theorem repointed_apart {winnerId loserId : Nat} (different : winnerId ≠ loserId) (authorId : Nat) :
    repointed winnerId loserId authorId ≠ loserId := by
  unfold repointed
  split
  · exact different
  · assumption

theorem mergedStore_unreferenced (store : Store) (different : winner.id ≠ loser.id) :
    Unreferenced (mergedStore store winner loser) loser.id := by
  have elsewhere : ∀ key : EdgeKey, (!key.involves loser.id) = true →
      key.authorA ≠ loser.id ∧ key.authorB ≠ loser.id := by
    intro key apart
    simpa [EdgeKey.involves] using apart
  refine ⟨?_, ?_, ?_, ?_, ?_, ?_⟩
  · intro row member
    simpa using (List.mem_filter.mp member).2
  · intro row member
    obtain ⟨old, _, rfl⟩ := List.mem_map.mp member
    exact repointed_apart different old.authorId
  · exact fun row member => elsewhere row.edge (List.mem_filter.mp member).2
  · exact fun entry member => elsewhere entry.1 (List.mem_filter.mp member).2
  · intro row member
    simpa using (List.mem_filter.mp member).2
  · intro row member
    obtain ⟨old, _, rfl⟩ := List.mem_map.mp member
    exact ⟨repointed_apart different old.authorA, repointed_apart different old.authorB⟩

/-- A merge that hands over no ORCID breaks no constraint, and afterwards only audit rows, the
new one among them, name the loser. -/
theorem merge_completes (database : Database) (winner loser : Author) (note : MergeNote)
    (held : Constrained database) (winnerIn : winner ∈ database.store.authors.rows)
    (loserIn : loser ∈ database.store.authors.rows) (different : winner.id ≠ loser.id)
    (keeps : ¬ (filled loser.orcid = true ∧ filled winner.orcid = false)) :
    ∃ after, sendMerge database winner loser note = .ok after ∧ Constrained after ∧
      Unreferenced after.store loser.id ∧
      after.audits = database.audits ++ [auditOf database winner loser note] := by
  have noOrcid : adopts winner loser.orcid = false := by simpa [adopts] using keeps
  have before : Constrained (repointedDatabase database winner loser note) :=
    repointed_constrained note held
  have updated : Constrained (updateWinner winner loser
      (repointedDatabase database winner loser note)) :=
    (updateWinner_constrained_iff before winnerIn loserIn different).mpr noOrcid
  have deleted : Constrained (deleteLoser loser (updateWinner winner loser
      (repointedDatabase database winner loser note))) := deleteLoser_constrained updated
  have final : deleteLoser loser (updateWinner winner loser
      (repointedDatabase database winner loser note)) = _ := flushed_merge note noOrcid
  refine ⟨_, ?_, deleted, ?_, ?_⟩
  · rw [sendMerge_flush note held different, send_accepted updated, send_accepted deleted]
    rfl
  · rw [final]
    exact mergedStore_unreferenced database.store different
  · rw [final]

def manualNote : MergeNote := ⟨"manual", "manual merge", some 1, none⟩

theorem sendMerge_eq_smiths :
    sendMerge ⟨twoPapers, [], 0⟩ initialSmith fullSmith manualNote =
      (mergeAuthors twoPapers initialSmith fullSmith).map fun store =>
        ⟨store, [] ++ [auditOf ⟨twoPapers, [], 0⟩ initialSmith fullSmith manualNote], 0 + 1⟩ :=
  sendMerge_eq manualNote (by decide) (by decide) (by decide) (by decide)

theorem merge_completes_smiths :
    ∃ after, sendMerge ⟨twoPapers, [], 0⟩ initialSmith fullSmith manualNote = .ok after ∧
      Constrained after ∧ Unreferenced after.store 3 ∧
      after.audits = [] ++ [auditOf ⟨twoPapers, [], 0⟩ initialSmith fullSmith manualNote] :=
  merge_completes ⟨twoPapers, [], 0⟩ initialSmith fullSmith manualNote (by decide)
    (by decide) (by decide) (by decide) (by decide)

/-- The audit row of the merge is a row that names the loser. -/
theorem audit_names_loser :
    Constrained ⟨twoPapers, [], 0⟩ ∧ initialSmith.id ≠ fullSmith.id ∧
      ∃ after, sendMerge ⟨twoPapers, [], 0⟩ initialSmith fullSmith manualNote = .ok after ∧
        ∃ row ∈ after.audits, row.loserAuthorId = fullSmith.id := by
  refine ⟨by decide, by decide, ?_⟩
  have named : (sendMerge ⟨twoPapers, [], 0⟩ initialSmith fullSmith manualNote).toOption.map
      (fun after => after.audits.map AuthorMergeAudit.loserAuthorId) = some [3] := by
    decide
  cases served : sendMerge ⟨twoPapers, [], 0⟩ initialSmith fullSmith manualNote with
  | error raised =>
    rw [served] at named
    cases named
  | ok after =>
    rw [served] at named
    have losers : after.audits.map AuthorMergeAudit.loserAuthorId = [3] := Option.some.inj named
    have member : 3 ∈ after.audits.map AuthorMergeAudit.loserAuthorId := by simp [losers]
    obtain ⟨row, stored, same⟩ := List.mem_map.mp member
    exact ⟨after, rfl, row, stored, same⟩

end Ukip.Coauthorship.MergeStatements
