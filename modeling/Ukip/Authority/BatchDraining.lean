import Ukip.Authority.BatchResolution
import Ukip.Foundation.FallibleLoop

/-!
# Draining of the author names

A batch presents the first names of its scan that have no record.  A name without candidates
gets no record, and is among the first ones again in the next batch.
-/

namespace Ukip.Authority.BatchResolution

open Foundation.Draining
open Foundation.FallibleLoop (mem_of_mapM_some)
open Foundation.Grouping (firsts exists_mem_firsts mem_of_mem_firsts)
open Foundation.JsonValue
open Analytics.Corpus (RawEntity)
open Tenancy.Access

variable {Score : Type} [LinearOrder Score]

def authorBatch (orgId : Option Int) (field entityType : String) (limit : Nat)
    (entityTypeFilter : Option String) : Request where
  orgId := orgId
  field := field
  entityType := entityType
  limit := limit
  skipExisting := true
  entityTypeFilter := entityTypeFilter
  valueSource := some valueSourcePubAuthors

structure MayAnswer (orgId : Option Int) (rows : List RawEntity)
    (mayResolve : Resolver Score → Prop) (answering : Answering Score) : Prop where
  scan : IsScan (publications orgId rows) pubScanLimit answering.scan
  hintScan : IsScan (publications orgId rows) pubScanLimit answering.hintScan
  resolve : mayResolve answering.resolve

/-- The name occurs in a publication of the scope. -/
def Occurs (loads : String → Option Json) (orgId : Option Int) (rows : List RawEntity)
    (name : String) : Prop :=
  ∃ row ∈ publications orgId rows, ∃ names,
    namesOfRow loads valueSourcePubAuthors row = some names ∧ name ∈ names

/-- Draining of a request: a batch that presents no name leaves none without a record, and
batches that follow each other present every name. -/
structure DrainsAuthors (setting : Setting Score) (request : Request) (rows : List RawEntity)
    (records : List (AuthorityRecord Score)) (mayResolve : Resolver Score → Prop) : Prop where
  nothingNew : ∀ answering, MayAnswer request.orgId rows mayResolve answering →
    ∀ batch, executeBatchResolution setting request records answering = some batch →
      batch.summary.resolvedCount = 0 → ∀ name, Occurs setting.loads request.orgId rows name →
        name ∈ existingValues request records
  everyName : ∀ answerings : Nat → Answering Score,
    (∀ time, MayAnswer request.orgId rows mayResolve (answerings time)) →
      ∀ name, Occurs setting.loads request.orgId rows name →
        name ∈ existingValues request records ∨
          ∃ time, name ∈ presentedAt setting request records answerings time

/-- A batch as a round: it shows the names of its scan, and a name with candidates gets a
record.  A batch that raises shows nothing. -/
def roundOf (setting : Setting Score) (request : Request) (answering : Answering Score) :
    Round String :=
  match allValues setting request answering.scan, valueHints setting request answering.hintScan with
  | some values, some hints =>
    { shown := values
      succeeds := fun value =>
        !(candidatesFor setting request answering.resolve hints value).isEmpty }
  | _, _ => { shown := [], succeeds := fun _ => false }

/-- Both scans of the batch are readable, its scan has the name, and fewer than `limit` names
that have neither a record nor a candidate come before it. -/
def ReachesName (setting : Setting Score) (request : Request)
    (records : List (AuthorityRecord Score)) (answering : Answering Score) (name : String) : Prop :=
  Reaches request.limit (existingValues request records) (roundOf setting request answering) name

section Batch

variable {setting : Setting Score} {request : Request} {records : List (AuthorityRecord Score)}
variable {answering : Answering Score}

theorem presented_eq_served (skips : request.skipExisting = true) :
    presented setting request records answering =
      served request.limit (existingValues request records) (roundOf setting request answering) := by
  unfold presented executeBatchResolution roundOf served waiting
  cases allValues setting request answering.scan with
  | none => simp
  | some values =>
    cases valueHints setting request answering.hintScan with
    | none => simp
    | some hints => simp [newValues, skips]

omit [LinearOrder Score] in
theorem covers_recordOf (value : String) (candidate : AuthorityCandidate Score) :
    covers request (recordOf request value candidate) = true := by
  simp [covers, recordOf, Request.recordOrgId, inScope_persistedOrgId]

omit [LinearOrder Score] in
theorem mem_existingValues_newRecords (names : List String)
    (candidates : String → List (AuthorityCandidate Score)) (name : String) :
    name ∈ existingValues request
        (names.flatMap fun value => (candidates value).map (recordOf request value)) ↔
      name ∈ names ∧ candidates name ≠ [] := by
  unfold existingValues
  simp only [List.mem_filterMap, List.mem_filter, List.mem_flatMap, List.mem_map]
  constructor
  · rintro ⟨record, ⟨⟨value, member, candidate, found, rfl⟩, _⟩, named⟩
    have same : value = name := by simpa [recordOf] using named
    subst same
    exact ⟨member, List.ne_nil_of_mem found⟩
  · rintro ⟨member, some_found⟩
    obtain ⟨candidate, found⟩ := List.exists_mem_of_ne_nil _ some_found
    exact ⟨recordOf request name candidate,
      ⟨⟨name, member, candidate, found, rfl⟩, covers_recordOf name candidate⟩, rfl⟩

theorem mem_existingValues_afterBatch (skips : request.skipExisting = true) (name : String) :
    name ∈ existingValues request (afterBatch setting request records answering) ↔
      name ∈ afterRound request.limit (existingValues request records)
        (roundOf setting request answering) := by
  rw [mem_afterRound_iff, ← presented_eq_served skips]
  unfold afterBatch presented executeBatchResolution roundOf
  cases allValues setting request answering.scan with
  | none => simp
  | some values =>
    cases valueHints setting request answering.hintScan with
    | none => simp
    | some hints =>
      have append : ∀ first second : List (AuthorityRecord Score),
          existingValues request (first ++ second) =
            existingValues request first ++ existingValues request second := by
        intro first second
        simp [existingValues]
      simp only [Option.bind_some, Option.map_some, append, List.mem_append,
        mem_existingValues_newRecords]
      simp

theorem presentedAt_eq_servedAt (skips : request.skipExisting = true)
    (answerings : Nat → Answering Score) (time : Nat) :
    presentedAt setting request records answerings time =
      servedAt request.limit (existingValues request records)
        (fun later => roundOf setting request (answerings later)) time := by
  induction time generalizing records answerings with
  | zero => exact presented_eq_served skips
  | succ time ih =>
    rw [presentedAt, ih, servedAt]
    exact servedAt_congr (mem_existingValues_afterBatch skips) _ time

end Batch

theorem mem_of_isScan {matched scan : List RawEntity} {limit : Nat} (isScan : IsScan matched limit scan)
    {row : RawEntity} (member : row ∈ scan) : row ∈ matched := by
  obtain ⟨order, perm, rfl⟩ := isScan
  exact perm.mem_iff.mp (List.mem_of_mem_take member)

theorem exists_row_of_mem_distinctValues {loads : String → Option Json} {source : String}
    {scan : List RawEntity} {values : List String}
    (read : distinctValuesFromPublicationAttrs loads source scan = some values) {name : String}
    (member : name ∈ values) :
    ∃ row ∈ scan, ∃ names, namesOfRow loads source row = some names ∧ name ∈ names := by
  obtain ⟨lists, each, rfl⟩ := Option.map_eq_some_iff.mp read
  obtain ⟨names, inLists, inNames⟩ := List.mem_flatten.mp (mem_of_mem_firsts member)
  obtain ⟨row, inScan, reads⟩ := mem_of_mapM_some each inLists
  exact ⟨row, inScan, names, reads, inNames⟩

def allNames (loads : String → Option Json) (orgId : Option Int) (rows : List RawEntity) :
    List String :=
  (publications orgId rows).flatMap fun row =>
    (namesOfRow loads valueSourcePubAuthors row).getD []

theorem mem_allNames_of_shown {setting : Setting Score} {orgId : Option Int}
    {field entityType : String} {limit : Nat} {entityTypeFilter : Option String}
    {rows : List RawEntity} {mayResolve : Resolver Score → Prop} {answering : Answering Score}
    (may : MayAnswer orgId rows mayResolve answering) {name : String}
    (shown : name ∈ (roundOf setting
      (authorBatch orgId field entityType limit entityTypeFilter) answering).shown) :
    name ∈ allNames setting.loads orgId rows := by
  unfold roundOf at shown
  split at shown
  · next values hints read _ =>
      have isDistinct : distinctValuesFromPublicationAttrs setting.loads valueSourcePubAuthors
          answering.scan = some values := read
      obtain ⟨row, inScan, names, reads, inNames⟩ := exists_row_of_mem_distinctValues isDistinct shown
      exact List.mem_flatMap.mpr ⟨row, mem_of_isScan may.scan inScan, by rw [reads]; exact inNames⟩
  · cases shown

/-- For every scope, every table of entities, every state of the records and all that the
sources may answer: the names drain exactly if every batch that the database may make
reaches every name without a record. -/
theorem drains_authors_iff (setting : Setting Score) (orgId : Option Int)
    (field entityType : String) (limit : Nat) (entityTypeFilter : Option String)
    (rows : List RawEntity) (records : List (AuthorityRecord Score))
    (mayResolve : Resolver Score → Prop) :
    DrainsAuthors setting (authorBatch orgId field entityType limit entityTypeFilter) rows records
        mayResolve ↔
      ∀ name, Occurs setting.loads orgId rows name →
        name ∉ existingValues (authorBatch orgId field entityType limit entityTypeFilter) records →
          ∀ answering, MayAnswer orgId rows mayResolve answering →
            ReachesName setting (authorBatch orgId field entityType limit entityTypeFilter) records
              answering name := by
  have known : ∀ round : Round String, (∃ answering, MayAnswer orgId rows mayResolve answering ∧
      round = roundOf setting (authorBatch orgId field entityType limit entityTypeFilter) answering) →
      ∀ name ∈ round.shown, name ∈ allNames setting.loads orgId rows := by
    rintro _ ⟨answering, may, rfl⟩ name shown
    exact mem_allNames_of_shown may shown
  have drains := drains_iff limit
    (existingValues (authorBatch orgId field entityType limit entityTypeFilter) records)
    (Occurs setting.loads orgId rows) (allNames setting.loads orgId rows) known
  constructor
  · intro holds name occurs uncovered answering may
    refine drains.mp ?_ name occurs uncovered _ ⟨answering, may, rfl⟩
    intro rounds mayBe name occurs
    choose answerings mayAnswer isRound using mayBe
    have isRounds : rounds = fun time => roundOf setting
        (authorBatch orgId field entityType limit entityTypeFilter) (answerings time) :=
      funext isRound
    rcases holds.everyName answerings mayAnswer name occurs with old | ⟨time, member⟩
    · exact .inl old
    · rw [presentedAt_eq_servedAt rfl, ← isRounds] at member
      exact .inr ⟨time, member⟩
  · intro reaches
    refine ⟨?_, ?_⟩
    · intro answering may batch run nothing name occurs
      by_contra uncovered
      have serves := served_ne_nil_of_reaches (reaches name occurs uncovered answering may) uncovered
      rw [← presented_eq_served rfl, presented, run] at serves
      have counted : batch.summary.resolvedCount = batch.toResolve.length := by
        unfold executeBatchResolution at run
        obtain ⟨values, _, run⟩ := Option.bind_eq_some_iff.mp run
        obtain ⟨hints, _, rfl⟩ := Option.map_eq_some_iff.mp run
        rfl
      rw [counted, List.length_eq_zero_iff] at nothing
      exact serves nothing
    · intro answerings may name occurs
      have reached := drains.mpr
        (by
          rintro name occurs uncovered _ ⟨answering, may, rfl⟩
          exact reaches name occurs uncovered answering may)
        (fun time => roundOf setting
          (authorBatch orgId field entityType limit entityTypeFilter) (answerings time))
        (fun time => ⟨answerings time, may time, rfl⟩) name occurs
      rcases reached with old | ⟨time, member⟩
      · exact .inl old
      · exact .inr ⟨time, by rw [presentedAt_eq_servedAt rfl]; exact member⟩

theorem not_drains_of_unreached {setting : Setting Score} {request : Request}
    (skips : request.skipExisting = true) {rows : List RawEntity}
    {records : List (AuthorityRecord Score)} {mayResolve : Resolver Score → Prop}
    {answering : Answering Score} (may : MayAnswer request.orgId rows mayResolve answering)
    {name : String} (occurs : Occurs setting.loads request.orgId rows name)
    (uncovered : name ∉ existingValues request records)
    (unreached : ¬ReachesName setting request records answering name) :
    ¬DrainsAuthors setting request rows records mayResolve := by
  intro drains
  rcases drains.everyName (fun _ => answering) (fun _ => may) name occurs with old | ⟨time, member⟩
  · exact uncovered old
  · rw [presentedAt_eq_servedAt skips] at member
    exact not_mem_servedAt_of_not_reaches unreached uncovered time member

omit [LinearOrder Score] in
def sampleSetting : Setting Nat where
  columns _ := none
  loads _ := some (.object [("author_affiliations", .array
    [.object [("author_name", .text "Anonymous")],
      .object [("author_name", .text "Ada Lovelace"),
        ("author_orcid", .text "0000-0001-0000-0001")]])])
  unicode := sampleUnicode
  floor := 350

def twoAuthors : RawEntity :=
  { EntityWriteback.derivedRow 1 "publication" "On the Analytical Engine" "doi:10.1000/1" with
    attributesJson := some "attributes" }

def sampleResolver : Resolver Nat := fun value _ _ =>
  if value = "Ada Lovelace" then [sampleCandidate "orcid" "0000-0001-0000-0001" "Ada Lovelace"]
  else []

def oneByOne : Request := authorBatch none "author" "person" 1 none

def sampleAnswering : Answering Nat where
  scan := [twoAuthors]
  hintScan := [twoAuthors]
  resolve := sampleResolver

/-- Every batch presents the anonymous author, and none presents Ada Lovelace. -/
theorem anonymous_blocks_lovelace :
    ¬DrainsAuthors sampleSetting oneByOne [twoAuthors] [] (· = sampleResolver) ∧
      ∀ time, presentedAt sampleSetting oneByOne [] (fun _ => sampleAnswering) time =
        ["Anonymous"] := by
  have first : presented sampleSetting oneByOne [] sampleAnswering = ["Anonymous"] := by
    decide
  have unchanged : afterBatch sampleSetting oneByOne [] sampleAnswering = [] := by
    decide
  have isScan : IsScan (publications none [twoAuthors]) pubScanLimit [twoAuthors] :=
    ⟨[twoAuthors], by decide, rfl⟩
  have may : MayAnswer oneByOne.orgId [twoAuthors] (· = sampleResolver) sampleAnswering :=
    ⟨isScan, isScan, rfl⟩
  have occurs : Occurs sampleSetting.loads oneByOne.orgId [twoAuthors] "Ada Lovelace" :=
    ⟨twoAuthors, by decide, ["Anonymous", "Ada Lovelace"], by decide, by decide⟩
  have unreached : ¬ReachesName sampleSetting oneByOne [] sampleAnswering "Ada Lovelace" := by
    unfold ReachesName
    decide
  constructor
  · exact not_drains_of_unreached rfl may occurs (by decide) unreached
  · intro time
    induction time with
    | zero => exact first
    | succ time ih =>
      rw [presentedAt, unchanged]
      exact ih

end Ukip.Authority.BatchResolution
