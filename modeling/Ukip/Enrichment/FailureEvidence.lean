import Ukip.Enrichment.SingleRecord
import Ukip.Coauthorship.Weights

/-!
# Completed entities and the evidence of failures

The worker, the bulk trigger and the scraper fallback over a table of entities.  Clearing a
failure takes the entry of the attributes out; nothing ever clears the column of the reason,
and the scraper fallback clears neither.
-/

namespace Ukip.Enrichment.FailureEvidence

open Foundation.EventRun Foundation.JsonValue Foundation.SqlTruth
open Coauthorship.Identity (authorsFromAttrs)
open Coauthorship.Weights (asciiPython)
open Enrichment.Requeue (EnrichmentStatus)
open SingleRecord

variable (environment : Environment)

abbrev Table := List RawEntity

inductive Event where
  /-- `_atomic_claim_next`, from the row its SELECT returned -/
  | claimNext (candidate : Nat)
  /-- `enrich_single_record`, of the worker, a job or a request; a commit that fails
  leaves the row as it was -/
  | enrich (id : Nat) (answers : Answers) (committed : Bool)
  /-- `trigger_enrichment_bulk`; `inScope` is its organization and domain filter -/
  | triggerBulk (inScope : Nat → Bool) (skip limit : Int)
  /-- `reset_stale_processing_records` -/
  | resetStale

def hasStatus (entity : RawEntity) (statuses : List EnrichmentStatus) : Bool :=
  selects (isIn entity.enrichmentStatus statuses)

def claim (entity : RawEntity) : RawEntity :=
  if hasStatus entity [.pending] then { entity with enrichmentStatus := some .processing }
  else entity

def resetStale (entity : RawEntity) : RawEntity :=
  if hasStatus entity [.processing] then { entity with enrichmentStatus := some .pending }
  else entity

/-- `offset(skip).limit(limit)`: a negative limit is none, a negative offset is zero. -/
def limited (skip limit : Int) (rows : List RawEntity) : List RawEntity :=
  let rest := rows.drop skip.toNat
  if limit < 0 then rest else rest.take limit.toNat

def queuedIds (inScope : Nat → Bool) (skip limit : Int) (table : Table) : List Nat :=
  (limited skip limit
    ((table.filter fun entity => inScope entity.id && hasStatus entity [.none, .failed]).insertionSort
      fun first second => first.id ≤ second.id)).map RawEntity.id

def requeue (entity : RawEntity) : RawEntity :=
  clearEnrichmentFailure { entity with enrichmentStatus := some .pending }

def updateRow (table : Table) (id : Nat) (change : RawEntity → RawEntity) : Table :=
  table.map fun entity => if entity.id = id then change entity else entity

def step (table : Table) : Event → Table
  | .claimNext candidate => updateRow table candidate claim
  | .enrich id answers true => updateRow table id (enrichSingleRecord environment answers)
  | .enrich _ _ false => table
  | .triggerBulk inScope skip limit =>
    let queued := queuedIds inScope skip limit table
    table.map fun entity => if entity.id ∈ queued then requeue entity else entity
  | .resetStale => table.map resetStale

def failureEntry (attributes : JsonColumn) : Option Json := get? (parseAttrs attributes) failureKey

structure NoEvidence (entity : RawEntity) : Prop where
  entry : failureEntry entity.attributesJson = none
  reason : entity.enrichmentFailureReason = none

/-- A completed entity carries no evidence of a failure. -/
def Sound (entity : RawEntity) : Prop :=
  entity.enrichmentStatus = some .completed → NoEvidence entity

def AllSound (table : Table) : Prop := ∀ entity ∈ table, Sound entity

/-- Attributes that the entries of a record can be written to: an object, or an empty value
that nothing is written to. -/
def Takes (record : EnrichedRecord) : JsonColumn → Prop
  | .null => True
  | .malformed text => text = ""
  | .parsed (.object _) => True
  | .parsed other => recordAttrs record = [] ∧ other.truthy = false

def scrapedAttributes (scraped : ScrapedFields) (attributes : JsonColumn) : JsonColumn :=
  match scraped.entries.lookup "attributes_json" with
  | none => attributes
  | some text => environment.loads text

/-- What an enrichment that completes must meet.  A found record clears an entry that is not
`null`; the scraped fields clear nothing. -/
def MeetsNoEvidence (answers : Answers) (entity : RawEntity) : Prop :=
  match entity.primaryLabel.filter (· ≠ "") with
  | none => True
  | some query =>
    match searchCascade query answers.cascade [] 0 with
    | .raised _ _ => True
    | .found record _ _ => Takes record entity.attributesJson →
        entity.enrichmentFailureReason = none ∧ failureEntry entity.attributesJson ≠ some .null
    | .noMatch _ _ =>
      match searchScrapers query answers.scrapers with
      | .nothing => True
      | .raised _ => True
      | .fields _ scraped =>
        (∀ entry ∈ scraped.entries, refusal environment entry.1 = none) →
          entity.enrichmentFailureReason = none ∧
          scraped.entries.lookup "enrichment_failure_reason" = none ∧
          failureEntry (scrapedAttributes environment scraped entity.attributesJson) = none

/-- The guard of a step: the rows that an enrichment is about to complete. -/
def Clears (table : Table) : Event → Prop
  | .enrich id answers true =>
    ∀ entity ∈ table, entity.id = id → MeetsNoEvidence environment answers entity
  | _ => True

variable (entity : RawEntity)

@[simp] theorem clear_status :
    (clearEnrichmentFailure entity).enrichmentStatus = entity.enrichmentStatus := by
  unfold clearEnrichmentFailure
  split <;> rfl

@[simp] theorem clear_reason :
    (clearEnrichmentFailure entity).enrichmentFailureReason = entity.enrichmentFailureReason := by
  unfold clearEnrichmentFailure
  split <;> rfl

theorem clear_attributes :
    (clearEnrichmentFailure entity).attributesJson = entity.attributesJson ∨
      ∃ entries, entity.attributesJson = .parsed (.object entries) ∧
        (clearEnrichmentFailure entity).attributesJson =
          .parsed (.object (without entries failureKey)) := by
  unfold clearEnrichmentFailure
  split
  · exact .inl rfl
  · exact .inl rfl
  · rename_i value _ found
    cases attributes : entity.attributesJson with
    | null => simp [attributes, parseAttrs, get?] at found
    | malformed text => simp [attributes, parseAttrs, get?] at found
    | parsed parsed =>
      cases parsed with
      | object entries => exact .inr ⟨entries, rfl, rfl⟩
      | _ => simp [attributes, parseAttrs, get?] at found

theorem failureEntry_clear :
    failureEntry (clearEnrichmentFailure entity).attributesJson = none ↔
      failureEntry entity.attributesJson ≠ some .null := by
  unfold clearEnrichmentFailure failureEntry
  split
  · rename_i absent
    simp [absent]
  · rename_i isNull
    simp [isNull]
  · rename_i value notNull found
    rw [found]
    refine iff_of_true (get?_without_self _ _) fun same => ?_
    exact notNull (Option.some.inj same)

variable (record : EnrichedRecord)

theorem takes_clear (entity : RawEntity) :
    Takes record (clearEnrichmentFailure entity).attributesJson ↔
      Takes record entity.attributesJson := by
  rcases clear_attributes entity with same | ⟨entries, before, after⟩
  · rw [same]
  · rw [before, after]
    exact Iff.rfl

def recordKeys : List String :=
  ["enrichment_authors", "enrichment_author_orcids"] ++ ["enrichment_concept_ids"] ++
  ["affiliation", "affiliations"] ++ ["canonical_affiliations"] ++ ["author_affiliations"] ++
  ["funding"] ++ ["tldr"] ++ ["mesh_terms"] ++ ["influential_citation_count"] ++
  ["references_count"] ++ ["license"] ++ ["venue"] ++ ["journal"]

theorem ifTruthy_keys (key : String) (value : Json) :
    ((ifTruthy key value).map Prod.fst).Sublist [key] := by
  unfold ifTruthy
  split <;> simp

theorem ifPresent_keys (key : String) (value : Option Int) :
    ((ifPresent key value).map Prod.fst).Sublist [key] := by
  cases value <;> simp [ifPresent]

theorem recordAttrs_keys :
    ((recordAttrs record).map Prod.fst).Sublist recordKeys := by
  have authors : ((if record.authors = [] then []
      else ("enrichment_authors", textArray record.authors) ::
        if anyText record.authorOrcids then
          [("enrichment_author_orcids", optionalTextArray record.authorOrcids)]
        else [] : Entries).map Prod.fst).Sublist
      ["enrichment_authors", "enrichment_author_orcids"] := by
    split
    · simp
    · split <;> simp
  have concepts : ((if anyText record.conceptIds then
      [("enrichment_concept_ids", optionalTextArray record.conceptIds)] else [] :
      Entries).map Prod.fst).Sublist ["enrichment_concept_ids"] := by
    split <;> simp
  have affiliations : ((if record.affiliations = [] then []
      else [("affiliation", .text ("; ".intercalate record.affiliations)),
        ("affiliations", textArray record.affiliations)] : Entries).map Prod.fst).Sublist
      ["affiliation", "affiliations"] := by
    split <;> simp
  unfold recordAttrs recordKeys
  simp only [List.map_append]
  refine List.Sublist.append ?_ (ifTruthy_keys _ _)
  refine List.Sublist.append ?_ (ifTruthy_keys _ _)
  refine List.Sublist.append ?_ (ifTruthy_keys _ _)
  refine List.Sublist.append ?_ (ifPresent_keys _ _)
  refine List.Sublist.append ?_ (ifPresent_keys _ _)
  refine List.Sublist.append ?_ (ifTruthy_keys _ _)
  refine List.Sublist.append ?_ (ifTruthy_keys _ _)
  refine List.Sublist.append ?_ (ifTruthy_keys _ _)
  refine List.Sublist.append ?_ (ifTruthy_keys _ _)
  refine List.Sublist.append ?_ (ifTruthy_keys _ _)
  exact (authors.append concepts).append affiliations

theorem recordAttrs_other {key : String} (other : key ∉ recordKeys) :
    ∀ entry ∈ recordAttrs record, entry.1 ≠ key := by
  rintro entry member rfl
  exact other ((recordAttrs_keys record).subset (List.mem_map_of_mem member))

/-- A value that the steps behind the assignments can read: an object, or an empty value. -/
def Readable (value : Json) : Prop := (∃ entries, value = .object entries) ∨ value.truthy = false

variable {value : Json}

theorem looseAttrs_readable (readable : Readable value) :
    ∃ entries, looseAttrs (.parsed value) = some (.object entries) ∧
      get? entries failureKey = failureEntry (.parsed value) := by
  rcases readable with ⟨entries, rfl⟩ | falsy
  · cases entries with
    | nil => exact ⟨[], rfl, rfl⟩
    | cons entry rest => exact ⟨entry :: rest, rfl, rfl⟩
  · refine ⟨[], by simp [looseAttrs, falsy], ?_⟩
    cases value with
    | object entries =>
      have empty : entries = [] := by simpa [Json.truthy] using falsy
      rw [empty]
      rfl
    | _ => rfl

theorem filled_of_takes {record : EnrichedRecord} {attributes : JsonColumn}
    (takes : Takes record attributes) :
    ∃ attrs filled, loadedAttrs environment attributes = .ok attrs ∧
      assignAll attrs (recordAttrs record) = .ok filled ∧ Readable filled ∧
      failureEntry (.parsed filled) = failureEntry attributes := by
  have object : ∀ entries : Entries, ∃ filled,
      assignAll (.object entries) (recordAttrs record) = .ok (.object filled) ∧
        get? filled failureKey = get? entries failureKey := by
    intro entries
    refine ⟨mergeEntries entries (recordAttrs record), ?_,
      get?_mergeEntries_other entries _ (recordAttrs_other record (by decide))⟩
    cases recordAttrs record with
    | nil => rfl
    | cons _ _ => rfl
  cases attributes with
  | null =>
    obtain ⟨filled, assigned, kept⟩ := object []
    exact ⟨_, _, rfl, assigned, .inl ⟨filled, rfl⟩, kept⟩
  | malformed text =>
    obtain ⟨filled, assigned, kept⟩ := object []
    have empty : text = "" := takes
    exact ⟨_, _, by simp [loadedAttrs, empty], assigned, .inl ⟨filled, rfl⟩, kept⟩
  | parsed value =>
    cases value with
    | object entries =>
      obtain ⟨filled, assigned, kept⟩ := object entries
      exact ⟨_, _, rfl, assigned, .inl ⟨filled, rfl⟩, kept⟩
    | _ =>
      obtain ⟨nothing, falsy⟩ := takes
      refine ⟨_, _, rfl, ?_, .inr falsy, rfl⟩
      rw [nothing]
      rfl

theorem assignIssnL_readable (issnL : Option String) (readable : Readable value) :
    Readable (assignIssnL value issnL).1 ∧
      failureEntry (.parsed (assignIssnL value issnL).1) = failureEntry (.parsed value) := by
  unfold assignIssnL
  split
  · exact ⟨.inl ⟨_, rfl⟩, get?_assign_other _ _ (by decide)⟩
  · exact ⟨readable, rfl⟩

/-- The entity is the same but for its attributes, which stay readable and keep their failure
entry. -/
structure SameEvidence (before after : RawEntity) : Prop where
  status : after.enrichmentStatus = before.enrichmentStatus
  reason : after.enrichmentFailureReason = before.enrichmentFailureReason
  entry : failureEntry after.attributesJson = failureEntry before.attributesJson

variable {entity : RawEntity}

theorem extractAndCacheCountry_readable (attributes : entity.attributesJson = .parsed value)
    (readable : Readable value) :
    ∃ cached final, extractAndCacheCountry environment entity = .ok cached ∧
      SameEvidence entity cached ∧ cached.attributesJson = .parsed final ∧ Readable final := by
  obtain ⟨entries, loose, kept⟩ := looseAttrs_readable readable
  unfold extractAndCacheCountry
  rw [attributes, loose]
  dsimp only
  split
  · exact ⟨entity, value, rfl, ⟨rfl, rfl, rfl⟩, attributes, readable⟩
  · rename_i country _
    refine ⟨_, _, rfl, ⟨rfl, rfl, ?_⟩, rfl, .inl ⟨_, rfl⟩⟩
    rw [attributes, ← kept]
    exact get?_assign_other entries _ (by decide)

theorem authorsFromAttrs_readable (readable : Readable value) :
    ∃ names, authorsFromAttrs environment.python (.parsed value) = .ok names := by
  unfold authorsFromAttrs
  rcases readable with ⟨entries, rfl⟩ | falsy
  · dsimp only
    split
    · exact ⟨_, rfl⟩
    · exact ⟨_, rfl⟩
  · simp [falsy]

variable (answers : Answers)

theorem tryEpistemicClassify_readable (attributes : entity.attributesJson = .parsed value)
    (readable : Readable value) : SameEvidence entity (tryEpistemicClassify answers entity) := by
  obtain ⟨entries, loose, kept⟩ := looseAttrs_readable readable
  unfold tryEpistemicClassify
  rw [attributes, loose, Option.getD_some]
  cases answers.epistemicProfile entity with
  | none => exact ⟨rfl, rfl, by rw [attributes]⟩
  | some profile =>
    refine ⟨rfl, rfl, ?_⟩
    rw [attributes, ← kept]
    exact get?_assign_other entries _ (by decide)

theorem persistRecord_of_takes (entity : RawEntity) (record : EnrichedRecord) (source : String)
    (takes : Takes record entity.attributesJson) :
    ∃ enriched, persistRecord environment answers entity record source = .ok enriched ∧
      enriched.enrichmentStatus = some .completed ∧
      enriched.enrichmentFailureReason = entity.enrichmentFailureReason ∧
      (failureEntry enriched.attributesJson = none ↔
        failureEntry entity.attributesJson ≠ some .null) := by
  have columns : Takes record (recordColumns entity record source).attributesJson := takes
  obtain ⟨attrs, filled, loaded, assigned, readable, kept⟩ :=
    filled_of_takes environment ((takes_clear record _).mpr columns)
  obtain ⟨finalReadable, finalKept⟩ := assignIssnL_readable (journalIssnL answers record) readable
  unfold persistRecord
  dsimp only
  rw [loaded]
  dsimp only
  rw [assigned]
  dsimp only
  generalize storedIs : ({ clearEnrichmentFailure (recordColumns entity record source) with
    attributesJson := .parsed (assignIssnL filled (journalIssnL answers record)).1
    enrichmentIssnL := (assignIssnL filled (journalIssnL answers record)).2.or
      (clearEnrichmentFailure (recordColumns entity record source)).enrichmentIssnL } :
    RawEntity) = stored
  have attributes : stored.attributesJson =
      .parsed (assignIssnL filled (journalIssnL answers record)).1 := by rw [← storedIs]
  obtain ⟨cached, final, extracted, cachedSame, cachedAttributes, cachedReadable⟩ :=
    extractAndCacheCountry_readable environment attributes finalReadable
  obtain ⟨names, named⟩ := authorsFromAttrs_readable environment cachedReadable
  have classified := tryEpistemicClassify_readable answers cachedAttributes cachedReadable
  rw [extracted]
  dsimp only
  rw [cachedAttributes, named]
  refine ⟨_, rfl, ?_, ?_, ?_⟩
  · rw [classified.status, cachedSame.status, ← storedIs]
    exact clear_status _
  · rw [classified.reason, cachedSame.reason, ← storedIs]
    exact clear_reason _
  · rw [classified.entry, cachedSame.entry, attributes, finalKept, kept]
    exact failureEntry_clear (recordColumns entity record source)

theorem persistRecord_of_not_takes (entity : RawEntity) (record : EnrichedRecord) (source : String)
    (refuses : ¬ Takes record entity.attributesJson) :
    ∃ raised touched,
      persistRecord environment answers entity record source = .error (raised, touched) := by
  have same : (clearEnrichmentFailure (recordColumns entity record source)).attributesJson =
      entity.attributesJson := by
    rcases clear_attributes (recordColumns entity record source) with same | ⟨_, before, _⟩
    · exact same
    · have before : entity.attributesJson = .parsed (.object _) := before
      rw [before] at refuses
      exact absurd trivial refuses
  unfold persistRecord
  dsimp only
  rw [same]
  cases attributes : entity.attributesJson with
  | null =>
    rw [attributes] at refuses
    exact absurd trivial refuses
  | malformed text =>
    rw [attributes] at refuses
    have unread : text ≠ "" := refuses
    simp only [loadedAttrs, if_neg unread]
    exact ⟨_, _, rfl⟩
  | parsed value =>
    rw [attributes] at refuses
    have noObject : ∀ entries, value ≠ .object entries := by
      rintro entries rfl
      exact refuses trivial
    have written : recordAttrs record = [] → value.truthy = true := by
      intro nothing
      cases value with
      | object entries => exact absurd rfl (noObject entries)
      | _ => exact Bool.eq_true_of_not_eq_false fun falsy => refuses ⟨nothing, falsy⟩
    cases assigned : recordAttrs record with
    | cons entry rest =>
      cases value with
      | object entries => exact absurd rfl (noObject entries)
      | _ => exact ⟨_, _, rfl⟩
    | nil =>
      have truthy := written assigned
      cases value with
      | object entries => exact absurd rfl (noObject entries)
      | _ => simp [loadedAttrs, assignAll, assignIssnL, extractAndCacheCountry, looseAttrs, truthy]

theorem columnWriter_writes {field : String} {write : RawEntity → String → RawEntity}
    (writer : columnWriter environment field = some write) (entity : RawEntity) (value : String) :
    (write entity value).attributesJson =
        (if field = "attributes_json" then environment.loads value else entity.attributesJson) ∧
      (write entity value).enrichmentFailureReason =
        (if field = "enrichment_failure_reason" then some value
        else entity.enrichmentFailureReason) := by
  have each : ∀ entry ∈ columnWriters environment,
      (entry.2 entity value).attributesJson =
          (if entry.1 = "attributes_json" then environment.loads value
          else entity.attributesJson) ∧
        (entry.2 entity value).enrichmentFailureReason =
          (if entry.1 = "enrichment_failure_reason" then some value
          else entity.enrichmentFailureReason) := by
    simp [columnWriters]
  obtain ⟨before, after, listed, _⟩ := List.lookup_eq_some_iff.mp writer
  exact each (field, write) (by rw [listed]; simp)

theorem setField_writes {entity written : RawEntity} {field value : String}
    (set : setField environment entity field value = .ok written) :
    written.attributesJson =
        (if field = "attributes_json" then environment.loads value else entity.attributesJson) ∧
      written.enrichmentFailureReason =
        (if field = "enrichment_failure_reason" then some value
        else entity.enrichmentFailureReason) := by
  unfold setField at set
  split at set
  · rename_i write writer
    cases set
    exact columnWriter_writes environment writer entity value
  · rename_i noColumn
    have attributes : field ≠ "attributes_json" := by
      rintro rfl
      simp [columnWriter, columnWriters] at noColumn
    have reason : field ≠ "enrichment_failure_reason" := by
      rintro rfl
      simp [columnWriter, columnWriters] at noColumn
    split at set
    · cases set
    cases set
    exact ⟨(if_neg attributes).symm, (if_neg reason).symm⟩

theorem setField_ok_iff (entity : RawEntity) (field value : String) :
    (∃ written, setField environment entity field value = .ok written) ↔
      refusal environment field = none := by
  unfold setField refusal
  cases columnWriter environment field with
  | some write => simp
  | none => cases environment.otherAttribute field <;> simp

theorem setFields_view {Column : Type} (view : RawEntity → Column) (name : String)
    (read : String → Column)
    (writes : ∀ entity written field value, setField environment entity field value = .ok written →
      view written = if field = name then read value else view entity)
    {fields : List (String × String)} (distinct : (fields.map Prod.fst).Nodup)
    {entity written : RawEntity} (set : setFields environment fields entity = .ok written) :
    view written = ((fields.lookup name).map read).getD (view entity) := by
  induction fields generalizing entity with
  | nil =>
    cases set
    rfl
  | cons entry rest ih =>
    obtain ⟨field, value⟩ := entry
    obtain ⟨fresh, restDistinct⟩ := List.nodup_cons.mp distinct
    unfold setFields at set
    split at set
    · cases set
    rename_i next first
    have moved := writes entity next field value first
    have later := ih restDistinct set
    by_cases named : field = name
    · have absent : rest.lookup name = none := by
        rw [List.lookup_eq_none_iff]
        intro other member
        have differ : name ≠ other.1 := by
          intro same
          have listed : other.1 ∈ rest.map Prod.fst := List.mem_map_of_mem member
          rw [← same, ← named] at listed
          exact fresh listed
        simpa using differ
      rw [later, absent, moved, if_pos named, named]
      simp [List.lookup]
    · rw [later, moved, if_neg named]
      have skipped : (name == field) = false := by simpa using Ne.symm named
      simp [List.lookup, skipped]

theorem setFields_ok_iff (fields : List (String × String)) (entity : RawEntity) :
    (∃ written, setFields environment fields entity = .ok written) ↔
      ∀ entry ∈ fields, refusal environment entry.1 = none := by
  induction fields generalizing entity with
  | nil => exact iff_of_true ⟨entity, rfl⟩ nofun
  | cons entry rest ih =>
    obtain ⟨field, value⟩ := entry
    rw [List.forall_mem_cons, ← setField_ok_iff environment entity field value]
    unfold setFields
    cases set : setField environment entity field value with
    | error raised => simp
    | ok next =>
      have settled : ∃ written, Except.ok (ε := Raised) next = Except.ok written := ⟨next, rfl⟩
      exact (ih next).trans ⟨fun later => ⟨settled, later⟩, fun both => both.2⟩

theorem enrichWithWebScrapers_of_fields {query scraper : String} {scraped : ScrapedFields}
    (entity : RawEntity) (found : searchScrapers query answers.scrapers = .fields scraper scraped)
    (accepted : ∀ entry ∈ scraped.entries, refusal environment entry.1 = none) :
    ∃ enriched, enrichWithWebScrapers environment answers query entity = .ok (some enriched) ∧
      enriched.enrichmentStatus = some .completed ∧
      enriched.enrichmentFailureReason =
        ((scraped.entries.lookup "enrichment_failure_reason").map some).getD
          entity.enrichmentFailureReason ∧
      enriched.attributesJson = scrapedAttributes environment scraped entity.attributesJson := by
  obtain ⟨written, set⟩ := (setFields_ok_iff environment scraped.entries entity).mpr accepted
  have attributes := setFields_view environment RawEntity.attributesJson "attributes_json"
    environment.loads (fun _ _ _ _ set => (setField_writes environment set).1)
    scraped.keysDistinct set
  have reason := setFields_view environment RawEntity.enrichmentFailureReason
    "enrichment_failure_reason" some (fun _ _ _ _ set => (setField_writes environment set).2)
    scraped.keysDistinct set
  unfold enrichWithWebScrapers
  rw [found]
  dsimp only
  rw [set]
  refine ⟨_, rfl, rfl, reason, attributes.trans ?_⟩
  unfold scrapedAttributes
  cases scraped.entries.lookup "attributes_json" <;> rfl

theorem enrichWithWebScrapers_of_refusal {query scraper : String} {scraped : ScrapedFields}
    (entity : RawEntity) (found : searchScrapers query answers.scrapers = .fields scraper scraped)
    (refused : ¬ ∀ entry ∈ scraped.entries, refusal environment entry.1 = none) :
    ∃ raised touched,
      enrichWithWebScrapers environment answers query entity = .error (raised, touched) := by
  unfold enrichWithWebScrapers
  rw [found]
  dsimp only
  cases set : setFields environment scraped.entries entity with
  | ok written =>
    exact absurd ((setFields_ok_iff environment scraped.entries entity).mp ⟨written, set⟩) refused
  | error failed => exact ⟨failed.1, failed.2, rfl⟩

theorem sound_failed (entity : RawEntity) (failure : Failure) (failedAt : String) :
    Sound (setEnrichmentFailed entity failure failedAt) := by
  intro completed
  have failed : (some EnrichmentStatus.failed) = some .completed := completed
  cases failed

theorem sound_completed_iff (completed : entity.enrichmentStatus = some .completed) :
    Sound entity ↔ entity.enrichmentFailureReason = none ∧
      failureEntry entity.attributesJson = none := by
  constructor
  · intro sound
    exact ⟨(sound completed).reason, (sound completed).entry⟩
  · intro evidence _
    exact ⟨evidence.2, evidence.1⟩

theorem enrichSingleRecord_ends (entity : RawEntity) :
    (∃ touched failure, enrichSingleRecord environment answers entity =
        setEnrichmentFailed touched failure answers.failedAt ∧
      MeetsNoEvidence environment answers entity) ∨
    ∃ enriched, enrichSingleRecord environment answers entity = enriched ∧
      enriched.enrichmentStatus = some .completed ∧
      (enriched.enrichmentFailureReason = none ∧ failureEntry enriched.attributesJson = none ↔
        MeetsNoEvidence environment answers entity) := by
  unfold enrichSingleRecord MeetsNoEvidence
  cases entity.primaryLabel.filter (· ≠ "") with
  | none => exact .inl ⟨_, _, rfl, trivial⟩
  | some query =>
    dsimp only
    cases searchCascade query answers.cascade [] 0 with
    | raised exception attempts => exact .inl ⟨_, _, rfl, trivial⟩
    | found record source attempts =>
      dsimp only
      by_cases takes : Takes record entity.attributesJson
      · obtain ⟨enriched, persisted, completed, reason, entry⟩ :=
          persistRecord_of_takes environment answers entity record source takes
        rw [persisted]
        refine .inr ⟨enriched, rfl, completed, ?_⟩
        rw [reason, entry]
        exact ⟨fun meets _ => meets, fun meets => meets takes⟩
      · obtain ⟨raised, touched, persisted⟩ :=
          persistRecord_of_not_takes environment answers entity record source takes
        rw [persisted]
        exact .inl ⟨_, _, rfl, fun taken => absurd taken takes⟩
    | noMatch attempts circuitOpenCount =>
      dsimp only
      cases found : searchScrapers query answers.scrapers with
      | nothing =>
        have nothing : enrichWithWebScrapers environment answers query entity = .ok none := by
          unfold enrichWithWebScrapers
          rw [found]
        rw [nothing]
        exact .inl ⟨_, _, rfl, trivial⟩
      | raised exception =>
        have raised : enrichWithWebScrapers environment answers query entity =
            .error (exception, entity) := by
          unfold enrichWithWebScrapers
          rw [found]
        rw [raised]
        exact .inl ⟨_, _, rfl, trivial⟩
      | fields scraper scraped =>
        dsimp only
        by_cases accepted : ∀ entry ∈ scraped.entries, refusal environment entry.1 = none
        · obtain ⟨enriched, set, completed, reason, attributes⟩ :=
            enrichWithWebScrapers_of_fields environment answers entity found accepted
          rw [set]
          refine .inr ⟨enriched, rfl, completed, ?_⟩
          rw [reason, attributes]
          cases scraped.entries.lookup "enrichment_failure_reason" with
          | none =>
            exact ⟨fun clean _ => ⟨clean.1, rfl, clean.2⟩,
              fun meets => ⟨(meets accepted).1, (meets accepted).2.2⟩⟩
          | some written =>
            exact ⟨fun clean => (nomatch clean.1),
              fun meets => (nomatch (meets accepted).2.1)⟩
        · obtain ⟨raised, touched, refused⟩ :=
            enrichWithWebScrapers_of_refusal environment answers entity found accepted
          rw [refused]
          exact .inl ⟨_, _, rfl, fun taken => absurd taken accepted⟩

theorem enrichSingleRecord_sound_iff (entity : RawEntity) :
    Sound (enrichSingleRecord environment answers entity) ↔
      MeetsNoEvidence environment answers entity := by
  rcases enrichSingleRecord_ends environment answers entity with
    ⟨touched, failure, failed, meets⟩ | ⟨enriched, ended, completed, decides⟩
  · rw [failed]
    exact iff_of_true (sound_failed touched failure answers.failedAt) meets
  · rw [ended]
    exact (sound_completed_iff completed).trans decides

theorem sound_of_not_completed (unfinished : entity.enrichmentStatus ≠ some .completed) :
    Sound entity :=
  fun completed => absurd completed unfinished

theorem claim_sound (sound : Sound entity) : Sound (claim entity) := by
  unfold claim
  split
  · exact sound_of_not_completed (by simp)
  · exact sound

theorem resetStale_sound (sound : Sound entity) : Sound (resetStale entity) := by
  unfold resetStale
  split
  · exact sound_of_not_completed (by simp)
  · exact sound

theorem requeue_sound (entity : RawEntity) : Sound (requeue entity) :=
  sound_of_not_completed (by simp [requeue])

theorem updateRow_allSound_iff {table : Table} (sound : AllSound table) (id : Nat)
    (change : RawEntity → RawEntity) :
    AllSound (updateRow table id change) ↔
      ∀ entity ∈ table, entity.id = id → Sound (change entity) := by
  unfold updateRow AllSound
  rw [List.forall_mem_map]
  refine forall₂_congr fun entity member => ?_
  by_cases here : entity.id = id
  · simp [here]
  · simp [here, sound entity member]

theorem step_allSound_iff {table : Table} (event : Event) (sound : AllSound table) :
    AllSound (step environment table event) ↔ Clears environment table event := by
  cases event with
  | claimNext candidate =>
    refine iff_of_true ((updateRow_allSound_iff sound candidate claim).mpr ?_) trivial
    exact fun entity member _ => claim_sound (sound entity member)
  | enrich id answers committed =>
    cases committed with
    | false => exact iff_of_true sound trivial
    | true =>
      refine (updateRow_allSound_iff sound id _).trans ?_
      refine forall₂_congr fun entity _ => ?_
      exact imp_congr_right fun _ => enrichSingleRecord_sound_iff environment answers entity
  | triggerBulk inScope skip limit =>
    refine iff_of_true ?_ trivial
    unfold step AllSound
    rw [List.forall_mem_map]
    intro entity member
    split
    · exact requeue_sound entity
    · exact sound entity member
  | resetStale =>
    refine iff_of_true ?_ trivial
    unfold step AllSound
    rw [List.forall_mem_map]
    exact fun entity member => resetStale_sound (sound entity member)

/-- From a sound table, every state of a run has completed entities without evidence exactly
if every enrichment that completes one meets no reason, and no entry that it leaves. -/
theorem completed_without_evidence_iff (table : Table) (events : List Event)
    (sound : AllSound table) :
    EveryState (step environment) AllSound table events ↔
      EveryStep (step environment) (Clears environment) table events :=
  everyState_iff_everyStep (fun _ event sound => step_allSound_iff environment event sound)
    table events sound

def plainEnvironment : Environment where
  python := asciiPython
  loads := .malformed
  decodeMessage := fun _ => "Expecting value: line 1 column 1 (char 0)"
  extractCountry := fun _ => none
  otherAttribute := fun _ => .absent

def pendingPaper : RawEntity where
  id := 1
  domain := some "default"
  primaryLabel := some "On Names"
  attributesJson := .parsed (.object [])
  enrichmentCitationCount := some (.count 0)
  enrichmentStatus := some .pending

def paperRecord : EnrichedRecord where
  doi := some "10.1/names"
  authors := ["Ann Lee", "Bob Ray"]
  authorOrcids := [none, none]
  citationCount := 3
  concepts := ["Names"]
  workType := some "article"

def answersOf (results : List EnrichedRecord) (scrapers : List Scraper) : Answers where
  cascade := [⟨"openalex", some ⟨true, fun _ => .returned results⟩⟩]
  scrapers := scrapers
  fetchSourceMetrics := fun _ => .ok none
  upsertSucceeds := fun _ => true
  epistemicProfile := fun _ => none
  failedAt := "2026-01-01T00:00:00+00:00"

def conceptScraper : Scraper where
  name := "catalogue"
  scrape := fun _ => .fields ⟨[("enrichment_concepts", "Names")], by decide⟩

theorem pendingPaper_sound : AllSound [pendingPaper] := by
  rw [AllSound, List.forall_mem_singleton]
  exact sound_of_not_completed (by decide)

theorem completed_without_evidence_iff_found :
    EveryState (step plainEnvironment) AllSound [pendingPaper]
      [.claimNext 1, .enrich 1 (answersOf [paperRecord] []) true] := by
  refine (completed_without_evidence_iff plainEnvironment _ _ pendingPaper_sound).mpr
    ⟨trivial, ?_, trivial⟩
  have row : updateRow [pendingPaper] 1 claim =
      [{ pendingPaper with enrichmentStatus := some .processing }] := rfl
  change Clears plainEnvironment (updateRow [pendingPaper] 1 claim) _
  rw [row]
  intro entity member _
  rw [List.mem_singleton.mp member]
  exact fun _ => ⟨rfl, nofun⟩

def failedThenFound : List Event :=
  [.claimNext 1, .enrich 1 (answersOf [] []) true, .triggerBulk (fun _ => true) 0 100,
    .claimNext 1, .enrich 1 (answersOf [paperRecord] []) true]

def failedThenScraped : List Event :=
  [.claimNext 1, .enrich 1 (answersOf [] []) true, .enrich 1 (answersOf [] [conceptScraper]) true]

def evidenceOf (entity : RawEntity) : Option EnrichmentStatus × Option String × Bool :=
  (entity.enrichmentStatus, entity.enrichmentFailureReason,
    (failureEntry entity.attributesJson).isSome)

/-- The reason outlives the bulk trigger and the record that is found afterwards; the scraper
fallback leaves the entry as well. -/
theorem completed_with_evidence :
    AllSound [pendingPaper] ∧
      (runEvents (step plainEnvironment) [pendingPaper] failedThenFound).map evidenceOf =
        [(some .completed, some "no_match", false)] ∧
      (runEvents (step plainEnvironment) [pendingPaper] failedThenScraped).map evidenceOf =
        [(some .completed, some "no_match", true)] ∧
      ¬ AllSound (runEvents (step plainEnvironment) [pendingPaper] failedThenFound) := by
  have found : (runEvents (step plainEnvironment) [pendingPaper] failedThenFound).map evidenceOf =
      [(some .completed, some "no_match", false)] := by decide
  refine ⟨pendingPaper_sound, found, by decide, fun sound => ?_⟩
  have listed : (some .completed, some "no_match", false) ∈
      (runEvents (step plainEnvironment) [pendingPaper] failedThenFound).map evidenceOf := by
    rw [found]
    exact List.mem_singleton_self _
  obtain ⟨entity, member, columns⟩ := List.mem_map.mp listed
  obtain ⟨status, rest⟩ := Prod.mk.inj columns
  obtain ⟨reason, _⟩ := Prod.mk.inj rest
  have cleared := (sound entity member status).reason
  rw [reason] at cleared
  cases cleared

end Ukip.Enrichment.FailureEvidence
