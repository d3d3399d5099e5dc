import Ukip.Foundation.References

/-!
# The tenant tables

The tables of `models.py` that carry `org_id`, and those that name a row of one of them.
Of the references, those to users, organizations and authors are left out: no statement
here deletes such a row.
-/

namespace Ukip.Lifecycle.Tables

open Foundation.References

inductive Table where
  | rawEntities
  | entityRelationships
  | normalizationRules
  | harmonizationLogs
  | harmonizationChangeRecords
  | mappingSuggestions
  | fieldCorrespondenceRules
  | storeConnections
  | storeSyncMappings
  | syncLogs
  | syncQueue
  | users
  | authorityRecords
  | authorityResolveJobs
  | authorityScoringFeedback
  | resolutionThresholds
  | authorityRecordLinks
  | linkDismissals
  | annotations
  | artifactTemplates
  | analysisContexts
  | scheduledImports
  | importBatches
  | alertChannels
  | userDashboards
  | scheduledReports
  | organizationMembers
  | catalogPortals
  | webScraperConfigs
  | workflows
  | workflowRuns
  | embedWidgets
  | sourceProfiles
  | geographicEntities
  | authors
  | authorPublications
  | coauthorEdges
  | authorStats
  | coauthorDirtyScopes
  | coauthorContributions
  | retentionPolicies
  | dataLifecycleEvents
  | journalMetrics
  | backgroundJobs
  | retrospectiveEvents
  | retrospectiveSnapshots
  deriving DecidableEq

/-- A column that holds the id of a row: the table, then the column. -/
inductive Column where
  | rawEntitiesImportBatchId
  | entityRelationshipsSourceId
  | entityRelationshipsTargetId
  | harmonizationChangeRecordsLogId
  | harmonizationChangeRecordsRecordId
  | mappingSuggestionsImportBatchId
  | storeSyncMappingsStoreId
  | storeSyncMappingsLocalEntityId
  | syncLogsStoreId
  | syncQueueStoreId
  | authorityRecordLinksSourceAuthorityRecordId
  | authorityRecordLinksTargetAuthorityRecordId
  | linkDismissalsEntityAId
  | linkDismissalsEntityBId
  | annotationsEntityId
  | annotationsAuthorityId
  | annotationsParentId
  | scheduledImportsStoreId
  | catalogPortalsSourceBatchId
  | workflowRunsWorkflowId
  | sourceProfilesImportBatchId
  | authorsAuthorityRecordId
  | authorPublicationsEntityId
  | coauthorContributionsEntityId
  deriving DecidableEq

namespace Column

def child : Column → Table
  | rawEntitiesImportBatchId => .rawEntities
  | entityRelationshipsSourceId => .entityRelationships
  | entityRelationshipsTargetId => .entityRelationships
  | harmonizationChangeRecordsLogId => .harmonizationChangeRecords
  | harmonizationChangeRecordsRecordId => .harmonizationChangeRecords
  | mappingSuggestionsImportBatchId => .mappingSuggestions
  | storeSyncMappingsStoreId => .storeSyncMappings
  | storeSyncMappingsLocalEntityId => .storeSyncMappings
  | syncLogsStoreId => .syncLogs
  | syncQueueStoreId => .syncQueue
  | authorityRecordLinksSourceAuthorityRecordId => .authorityRecordLinks
  | authorityRecordLinksTargetAuthorityRecordId => .authorityRecordLinks
  | linkDismissalsEntityAId => .linkDismissals
  | linkDismissalsEntityBId => .linkDismissals
  | annotationsEntityId => .annotations
  | annotationsAuthorityId => .annotations
  | annotationsParentId => .annotations
  | scheduledImportsStoreId => .scheduledImports
  | catalogPortalsSourceBatchId => .catalogPortals
  | workflowRunsWorkflowId => .workflowRuns
  | sourceProfilesImportBatchId => .sourceProfiles
  | authorsAuthorityRecordId => .authors
  | authorPublicationsEntityId => .authorPublications
  | coauthorContributionsEntityId => .coauthorContributions

def parent : Column → Table
  | rawEntitiesImportBatchId => .importBatches
  | entityRelationshipsSourceId => .rawEntities
  | entityRelationshipsTargetId => .rawEntities
  | harmonizationChangeRecordsLogId => .harmonizationLogs
  | harmonizationChangeRecordsRecordId => .rawEntities
  | mappingSuggestionsImportBatchId => .importBatches
  | storeSyncMappingsStoreId => .storeConnections
  | storeSyncMappingsLocalEntityId => .rawEntities
  | syncLogsStoreId => .storeConnections
  | syncQueueStoreId => .storeConnections
  | authorityRecordLinksSourceAuthorityRecordId => .authorityRecords
  | authorityRecordLinksTargetAuthorityRecordId => .authorityRecords
  | linkDismissalsEntityAId => .rawEntities
  | linkDismissalsEntityBId => .rawEntities
  | annotationsEntityId => .rawEntities
  | annotationsAuthorityId => .authorityRecords
  | annotationsParentId => .annotations
  | scheduledImportsStoreId => .storeConnections
  | catalogPortalsSourceBatchId => .importBatches
  | workflowRunsWorkflowId => .workflows
  | sourceProfilesImportBatchId => .importBatches
  | authorsAuthorityRecordId => .authorityRecords
  | authorPublicationsEntityId => .rawEntities
  | coauthorContributionsEntityId => .rawEntities

def onDelete : Column → OnDelete
  | entityRelationshipsSourceId => .cascade
  | entityRelationshipsTargetId => .cascade
  | authorPublicationsEntityId => .cascade
  | coauthorContributionsEntityId => .cascade
  | harmonizationChangeRecordsRecordId => .setNull
  | storeSyncMappingsStoreId => .unenforced
  | storeSyncMappingsLocalEntityId => .unenforced
  | syncLogsStoreId => .unenforced
  | syncQueueStoreId => .unenforced
  | linkDismissalsEntityAId => .unenforced
  | linkDismissalsEntityBId => .unenforced
  | annotationsEntityId => .unenforced
  | annotationsAuthorityId => .unenforced
  | annotationsParentId => .unenforced
  | scheduledImportsStoreId => .unenforced
  | rawEntitiesImportBatchId => .noAction
  | harmonizationChangeRecordsLogId => .noAction
  | mappingSuggestionsImportBatchId => .noAction
  | authorityRecordLinksSourceAuthorityRecordId => .noAction
  | authorityRecordLinksTargetAuthorityRecordId => .noAction
  | catalogPortalsSourceBatchId => .noAction
  | workflowRunsWorkflowId => .noAction
  | sourceProfilesImportBatchId => .noAction
  | authorsAuthorityRecordId => .noAction

def all : List Column :=
  [rawEntitiesImportBatchId, entityRelationshipsSourceId, entityRelationshipsTargetId,
    harmonizationChangeRecordsLogId, harmonizationChangeRecordsRecordId,
    mappingSuggestionsImportBatchId, storeSyncMappingsStoreId, storeSyncMappingsLocalEntityId,
    syncLogsStoreId, syncQueueStoreId, authorityRecordLinksSourceAuthorityRecordId,
    authorityRecordLinksTargetAuthorityRecordId, linkDismissalsEntityAId, linkDismissalsEntityBId,
    annotationsEntityId, annotationsAuthorityId, annotationsParentId, scheduledImportsStoreId,
    catalogPortalsSourceBatchId, workflowRunsWorkflowId, sourceProfilesImportBatchId,
    authorsAuthorityRecordId, authorPublicationsEntityId, coauthorContributionsEntityId]

theorem mem_all (column : Column) : column ∈ all := by
  cases column <;> decide

theorem forall_of_all (holds : Column → Prop) (each : ∀ column ∈ all, holds column) :
    ∀ column, holds column := fun column => each column (mem_all column)

end Column

def schema : Schema Table Column where
  child := Column.child
  parent := Column.parent
  onDelete := Column.onDelete
  columns := Column.all
  complete := Column.mem_all
  leaves := by
    intro gone column
    revert gone
    refine Column.forall_of_all _ ?_
    revert column
    refine Column.forall_of_all _ ?_
    decide

/-- Where rows without `org_id` have their organization from. -/
def ownerColumn : Table → Option Column
  | .harmonizationChangeRecords => some .harmonizationChangeRecordsLogId
  | .storeSyncMappings => some .storeSyncMappingsStoreId
  | .syncLogs => some .syncLogsStoreId
  | .syncQueue => some .syncQueueStoreId
  | .linkDismissals => some .linkDismissalsEntityAId
  | _ => none

variable {Data : Type}

def belongsTo (rows : List (Row Table Column Data)) (orgId : Int) (row : Row Table Column Data) : Bool :=
  match ownerColumn row.table with
  | none => row.owner == some orgId
  | some column => rows.any fun parent =>
    schema.points row column parent && parent.owner == some orgId

def namesEntity (rows : List (Row Table Column Data)) (orgId : Int) (row : Row Table Column Data)
    (column : Column) : Bool :=
  schema.pointsInto rows (fun entity => decide (entity.table = .rawEntities) &&
    entity.owner == some orgId) row column

abbrev Rows (Data : Type) := List (Row Table Column Data)

def countedDelete (state : List (String × Nat) × Rows Data)
    (statement : String × (Row Table Column Data → Bool)) :
    Option (List (String × Nat) × Rows Data) :=
  let count := (state.2.filter statement.2).length
  (schema.delete state.2 statement.2).map fun after =>
    (state.1 ++ [(statement.1, count)], after)

variable (statements : List (String × (Row Table Column Data → Bool)))

theorem foldlM_countedDelete (state : List (String × Nat) × Rows Data) :
    (statements.foldlM countedDelete state).map Prod.snd =
      schema.deleteAll (statements.map Prod.snd) state.2 := by
  induction statements generalizing state with
  | nil => rfl
  | cons statement rest ih =>
    rw [List.foldlM_cons, List.map_cons, Schema.deleteAll]
    unfold countedDelete
    cases schema.delete state.2 statement.2 with
    | none => rfl
    | some after => exact ih _

theorem countedDelete_eq_some_iff (rows after : Rows Data) :
    (∃ counts, statements.foldlM countedDelete ([], rows) = some (counts, after)) ↔
      schema.deleteAll (statements.map Prod.snd) rows = some after := by
  rw [← foldlM_countedDelete statements ([], rows), Option.map_eq_some_iff]
  constructor
  · rintro ⟨counts, done⟩
    exact ⟨(counts, after), done, rfl⟩
  · rintro ⟨⟨counts, other⟩, done, rfl⟩
    exact ⟨counts, done⟩

theorem child_of_points {row target : Row Table Column Data} {column : Column}
    (points : schema.points row column target = true) :
    schema.child column = row.table ∧ schema.parent column = target.table := by
  unfold Schema.points at points
  rw [Bool.and_eq_true, Bool.and_eq_true] at points
  exact ⟨of_decide_eq_true points.1.1, of_decide_eq_true points.1.2⟩

theorem child_of_pointsInto {rows : Rows Data} {doomed : Row Table Column Data → Bool}
    {row : Row Table Column Data} {column : Column}
    (into : schema.pointsInto rows doomed row column = true) : schema.child column = row.table := by
  obtain ⟨target, _, _, points⟩ := (schema.pointsInto_iff rows doomed row column).mp into
  exact (child_of_points points).1

end Ukip.Lifecycle.Tables
