import Ukip.Foundation.FallibleLoop
import Ukip.Retrospective.Query
import Mathlib.Algebra.Order.Ring.Rat

/-!
# The journal dataset

`features.py`: for every journal with two snapshots or more the earliest one supplies the
features and the latest one the label.  The cut-off of a row is the time at which its
feature snapshot is valid, so a feature is never valid after the cut-off, and never before
it either; when the snapshot was written is not looked at.
-/

namespace Ukip.Retrospective

open Foundation Foundation.FallibleLoop Foundation.Grouping Core.Clock

/-- `isoformat()` of a naive timestamp, with its microseconds if it has any. -/
def isoTimestamp (time : Int) : String :=
  if time % 1000000 = 0 then isoformat "" time
  else isoformat "" time ++ "." ++ padded 6 (time % 1000000)

def leakageViolations (featureTimestamp labelTimestamp : Int) (sourceTimestamps : List Int) :
    List String :=
  (if featureTimestamp ≤ labelTimestamp then []
    else ["feature_timestamp is after label_timestamp"]) ++
  (sourceTimestamps.filter fun source => featureTimestamp < source).map fun source =>
    "feature source at " ++ isoTimestamp source ++ " is after feature_timestamp"

structure Features where
  nif : Value
  nifBayes : Value
  twoYrMeanCitedness : Value
  works2yr : Value
  nifField : Value
  deriving DecidableEq

structure Labels where
  nifIncreased : Nat
  labelKind : String
  deriving DecidableEq

structure Lineage where
  featureSnapshotId : String
  featureValidAt : String
  labelSnapshotId : String
  labelValidAt : String
  source : String
  deriving DecidableEq

structure FeatureRow where
  datasetId : String
  datasetVersion : String
  orgScope : Option Int
  subjectType : String
  subjectId : String
  featureTimestamp : Int
  labelTimestamp : Int
  features : Features
  labels : Labels
  lineage : Lineage
  schemaVersion : Nat
  createdAt : Int
  deriving DecidableEq

structure Quality where
  rowCounts : Nat
  subjectsConsidered : Nat
  lineageCompleteness : Rat
  leakageOk : Bool
  positiveLabels : Nat

structure FeatureDataset where
  datasetId : String
  datasetVersion : String
  orgScope : Option Int
  createdAt : Int
  rows : List FeatureRow
  leakageOk : Bool
  quality : Quality

/-- The operands of a `>` that Python does not compare. -/
inductive TypeError where
  | unorderable

/-- `label_nif > feat_nif`, for values that are not None. -/
def greater : Value → Value → Except TypeError Bool
  | .number label, .number feature => .ok (feature < label)
  | .text label, .text feature => .ok (feature < label)
  | _, _ => .error .unorderable

def nifIncreased (feature label : Value) : Except TypeError Nat :=
  if feature ≠ .null ∧ label ≠ .null then
    (greater label feature).map fun increased => if increased then 1 else 0
  else .ok 0

def featuresOf (payload : Payload) : Features where
  nif := payload.get "nif"
  nifBayes := payload.get "nif_bayes"
  twoYrMeanCitedness := payload.get "two_yr_mean_citedness"
  works2yr := payload.get "works_2yr"
  nifField := payload.get "nif_field"

inductive Considered where
  | tooShort
  | leaky
  | row (row : FeatureRow)
  deriving DecidableEq

def Considered.row? : Considered → Option FeatureRow
  | .row found => some found
  | _ => none

/-- The identity of one build: what `uuid4` and the clock gave it. -/
structure Build where
  datasetId : String
  datasetVersion : String
  orgScope : Option Int
  createdAt : Int

def featureRow (build : Build) (subjectId : String) (feature label : RetrospectiveSnapshot)
    (increased : Nat) : FeatureRow where
  datasetId := build.datasetId
  datasetVersion := build.datasetVersion
  orgScope := build.orgScope
  subjectType := "journal"
  subjectId := subjectId
  featureTimestamp := feature.validAt
  labelTimestamp := label.validAt
  features := featuresOf feature.payload
  labels := { nifIncreased := increased, labelKind := "proxy_outcome" }
  lineage :=
    { featureSnapshotId := feature.snapshotId
      featureValidAt := isoTimestamp feature.validAt
      labelSnapshotId := label.snapshotId
      labelValidAt := isoTimestamp label.validAt
      source := "journal_metric_snapshot" }
  schemaVersion := 1
  createdAt := build.createdAt

/-- The body of the loop over `by_subject`. -/
def considerSubject (build : Build) (subjectId : String) :
    List RetrospectiveSnapshot → Except TypeError Considered
  | feature :: next :: more =>
    let label := (next :: more).getLast (List.cons_ne_nil next more)
    let problems := leakageViolations feature.validAt label.validAt [feature.validAt]
    if problems ≠ [] then .ok .leaky
    else
      (nifIncreased (feature.payload.get "nif") (label.payload.get "nif")).map fun increased =>
        .row (featureRow build subjectId feature label increased)
  | _ => .ok .tooShort

def journalMetrics (ledger : Ledger) (orgScope : Option Int) : List RetrospectiveSnapshot :=
  ledger.snapshots.filter fun snapshot =>
    snapshot.snapshotType = "journal_metric" ∧ snapshot.orgId = orgScope

def bySubject (oldest : OrderBy RetrospectiveSnapshot.validAt) (ledger : Ledger)
    (orgScope : Option Int) : List (String × List RetrospectiveSnapshot) :=
  grouped ((oldest.arrange (journalMetrics ledger orgScope)).map fun snapshot =>
    (snapshot.subjectId, snapshot))

def buildJournalNifDataset (oldest : OrderBy RetrospectiveSnapshot.validAt) (ledger : Ledger)
    (build : Build) : Except TypeError FeatureDataset := do
  let subjects := bySubject oldest ledger build.orgScope
  let considered ← subjects.mapM fun group => considerSubject build group.1 group.2
  let rows := considered.filterMap Considered.row?
  let leakageOk := decide (Considered.leaky ∉ considered)
  return {
    datasetId := build.datasetId
    datasetVersion := build.datasetVersion
    orgScope := build.orgScope
    createdAt := build.createdAt
    rows := rows
    leakageOk := leakageOk
    quality :=
      { rowCounts := rows.length
        subjectsConsidered := subjects.length
        -- the lineage of a row is never empty
        lineageCompleteness := if rows = [] then 1 else rows.length / rows.length
        leakageOk := leakageOk
        positiveLabels := rows.countP fun row => row.labels.nifIncreased = 1 } }

theorem pairwise_bySubject (oldest : OrderBy RetrospectiveSnapshot.validAt) (ledger : Ledger)
    (orgScope : Option Int) {group : String × List RetrospectiveSnapshot}
    (member : group ∈ bySubject oldest ledger orgScope) :
    group.2.Pairwise (fun first second => first.validAt ≤ second.validAt) ∧
      ∀ snapshot, snapshot ∈ group.2 ↔
        snapshot ∈ journalMetrics ledger orgScope ∧ snapshot.subjectId = group.1 := by
  obtain ⟨_, items⟩ := (mem_grouped_iff _ group).mp member
  have listed : group.2 =
      (oldest.arrange (journalMetrics ledger orgScope)).filter
        fun snapshot => snapshot.subjectId = group.1 := by
    rw [items, itemsOf, List.filter_map, List.map_map]
    simp [Function.comp_def]
  rw [listed]
  refine ⟨(oldest.sorted _).filter _, fun snapshot => ?_⟩
  simp [oldest.mem_arrange]

theorem considerSubject_row {build : Build} {subjectId : String}
    {snapshots : List RetrospectiveSnapshot} {row : FeatureRow}
    (considered : considerSubject build subjectId snapshots = .ok (.row row)) :
    ∃ feature label increased rest, snapshots = feature :: rest ∧ label ∈ rest ∧
      feature.validAt ≤ label.validAt ∧
      row = featureRow build subjectId feature label increased := by
  match snapshots with
  | [] => cases considered
  | [_] => cases considered
  | feature :: next :: more =>
    simp only [considerSubject] at considered
    split at considered
    · cases considered
    next clean =>
      cases compared : nifIncreased (feature.payload.get "nif")
          (((next :: more).getLast (List.cons_ne_nil next more)).payload.get "nif") with
      | error error =>
        rw [compared] at considered
        cases considered
      | ok increased =>
        rw [compared] at considered
        cases considered
        refine ⟨feature, _, increased, next :: more, rfl, List.getLast_mem _, ?_, rfl⟩
        by_contra late
        exact clean (by simp [leakageViolations, late])

/-- A row has its features from the earliest snapshot of its journal in scope, its cut-off
is the time that snapshot is valid at, and its label is of no earlier time. -/
theorem features_not_after_cutoff (oldest : OrderBy RetrospectiveSnapshot.validAt)
    (ledger : Ledger) (build : Build) (dataset : FeatureDataset)
    (built : buildJournalNifDataset oldest ledger build = .ok dataset) (row : FeatureRow)
    (emitted : row ∈ dataset.rows) :
    ∃ snapshot ∈ journalMetrics ledger build.orgScope, snapshot.subjectId = row.subjectId ∧
      snapshot.snapshotId = row.lineage.featureSnapshotId ∧
      row.features = featuresOf snapshot.payload ∧
      snapshot.validAt ≤ row.featureTimestamp ∧
      (∀ other ∈ journalMetrics ledger build.orgScope, other.subjectId = row.subjectId →
        row.featureTimestamp ≤ other.validAt) ∧
      row.featureTimestamp ≤ row.labelTimestamp := by
  unfold buildJournalNifDataset at built
  dsimp only at built
  cases walked : (bySubject oldest ledger build.orgScope).mapM
      (fun group => considerSubject build group.1 group.2) with
  | error error =>
    rw [walked] at built
    cases built
  | ok considered =>
    rw [walked] at built
    cases built
    obtain ⟨step, stepMember, isRow⟩ := List.mem_filterMap.mp emitted
    obtain ⟨group, groupMember, answered⟩ := mem_of_mapM_ok walked stepMember
    cases step with
    | tooShort => cases isRow
    | leaky => cases isRow
    | row found =>
      cases isRow
      obtain ⟨feature, label, increased, rest, listed, later, ordered, rfl⟩ :=
        considerSubject_row answered
      obtain ⟨sorted, ofSubject⟩ := pairwise_bySubject oldest ledger _ groupMember
      obtain ⟨inScope, same⟩ := (ofSubject feature).mp (by rw [listed]; simp)
      refine ⟨feature, inScope, same, rfl, rfl, Int.le_refl _, ?_, ordered⟩
      intro other otherScope sameSubject
      have member := (ofSubject other).mpr ⟨otherScope, sameSubject⟩
      rw [listed] at member sorted
      rcases List.mem_cons.mp member with rfl | after
      · exact Int.le_refl _
      · exact (List.pairwise_cons.mp sorted).1 other after

def sampleBuild : Build where
  datasetId := "77e1"
  datasetVersion := "v1"
  orgScope := none
  createdAt := 1784116800000000

def backDatedSnapshot : RetrospectiveSnapshot :=
  { maySnapshot with recordedAt := 1784116799000000 }

def backDatedLedger : Ledger := ⟨[], [juneSnapshot, backDatedSnapshot]⟩

def backDatedRow : FeatureRow :=
  featureRow sampleBuild "0028-0836" backDatedSnapshot juneSnapshot 1

theorem features_not_after_cutoff_of_back_dated :
    ∃ snapshot ∈ journalMetrics backDatedLedger none,
      snapshot.subjectId = backDatedRow.subjectId ∧
      snapshot.snapshotId = backDatedRow.lineage.featureSnapshotId ∧
      backDatedRow.features = featuresOf snapshot.payload ∧
      snapshot.validAt ≤ backDatedRow.featureTimestamp ∧
      (∀ other ∈ journalMetrics backDatedLedger none,
        other.subjectId = backDatedRow.subjectId →
          backDatedRow.featureTimestamp ≤ other.validAt) ∧
      backDatedRow.featureTimestamp ≤ backDatedRow.labelTimestamp :=
  features_not_after_cutoff (OrderBy.stable _) backDatedLedger sampleBuild _ rfl backDatedRow
    (by decide)

/-- The features of a row had been recorded, and were valid, before its cut-off. -/
def KnownBefore (ledger : Ledger) (row : FeatureRow) : Prop :=
  ∃ snapshot ∈ ledger.snapshots, row.features = featuresOf snapshot.payload ∧
    snapshot.recordedAt < row.featureTimestamp ∧ snapshot.validAt < row.featureTimestamp

instance (ledger : Ledger) (row : FeatureRow) : Decidable (KnownBefore ledger row) :=
  inferInstanceAs (Decidable (∃ snapshot ∈ ledger.snapshots, _))

theorem back_dated_not_known_before :
    ∃ dataset, buildJournalNifDataset (OrderBy.stable _) backDatedLedger sampleBuild = .ok dataset ∧
      ¬ ∀ row ∈ dataset.rows, KnownBefore backDatedLedger row :=
  ⟨_, rfl, by decide⟩

end Ukip.Retrospective
