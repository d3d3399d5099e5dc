import Ukip.Enrichment.FailureEvidence

/-!
# The first provider that finds a record

The cascade asks one provider after the other.  An open circuit and an empty answer send it on
to the next one; every other exception leaves the loop, whatever the providers behind would
have found.  A record that was found still has to go into the attributes.
-/

namespace Ukip.Enrichment.Cascade

open Foundation.JsonValue FailureEvidence SingleRecord

def finds (query : String) (provider : Provider) : Option EnrichedRecord :=
  match provider.active with
  | none => none
  | some adapter =>
    match adapter.searchByTitle query with
    | .returned results => results.head?
    | _ => none

def raises (query : String) (provider : Provider) : Option Raised :=
  match provider.active with
  | none => none
  | some adapter =>
    match adapter.searchByTitle query with
    | .raised exception => some exception
    | _ => none

/-- A provider that would find a record, behind others that would not. -/
structure FirstToFind (query : String) (cascade before : List Provider) (provider : Provider)
    (record : EnrichedRecord) : Prop where
  listed : ∃ after, cascade = before ++ provider :: after
  found : finds query provider = some record
  others : ∀ earlier ∈ before, finds query earlier = none

variable {query : String} {provider : Provider}

variable (rest : List Provider) (attempts : List String) (circuitOpenCount : Nat)

theorem searchCascade_next (nothing : finds query provider = none)
    (silent : raises query provider = none) :
    ∃ attempts' circuitOpenCount',
      searchCascade query (provider :: rest) attempts circuitOpenCount =
        searchCascade query rest attempts' circuitOpenCount' := by
  unfold finds at nothing
  unfold raises at silent
  rw [searchCascade]
  cases active : provider.active with
  | none => exact ⟨attempts, circuitOpenCount, rfl⟩
  | some adapter =>
    simp only [active] at nothing silent
    dsimp only
    cases answer : adapter.searchByTitle query with
    | returned results =>
      rw [answer] at nothing
      have empty : results = [] := List.head?_eq_none_iff.mp nothing
      rw [empty]
      exact ⟨_, _, rfl⟩
    | circuitOpen => exact ⟨_, _, rfl⟩
    | raised exception => simp [answer] at silent

variable {before : List Provider}

theorem searchCascade_skips (nothing : ∀ earlier ∈ before, finds query earlier = none)
    (silent : ∀ earlier ∈ before, raises query earlier = none) :
    ∃ attempts' circuitOpenCount',
      searchCascade query (before ++ rest) attempts circuitOpenCount =
        searchCascade query rest attempts' circuitOpenCount' := by
  induction before generalizing attempts circuitOpenCount with
  | nil => exact ⟨attempts, circuitOpenCount, rfl⟩
  | cons first others ih =>
    rw [List.forall_mem_cons] at nothing silent
    obtain ⟨next, opened, moved⟩ := searchCascade_next (others ++ rest) attempts
      circuitOpenCount nothing.1 silent.1
    obtain ⟨last, counted, skipped⟩ := ih next opened nothing.2 silent.2
    exact ⟨last, counted, moved.trans skipped⟩

variable {record : EnrichedRecord}

theorem searchCascade_finds (found : finds query provider = some record) :
    ∃ attempts', searchCascade query (provider :: rest) attempts circuitOpenCount =
      .found record provider.name attempts' := by
  unfold finds at found
  rw [searchCascade]
  cases active : provider.active with
  | none => simp [active] at found
  | some adapter =>
    simp only [active] at found
    dsimp only
    cases answer : adapter.searchByTitle query with
    | returned results =>
      rw [answer] at found
      obtain ⟨tail, listed⟩ := List.head?_eq_some_iff.mp found
      rw [listed]
      exact ⟨_, rfl⟩
    | circuitOpen => simp [answer] at found
    | raised exception => simp [answer] at found

theorem searchCascade_raises {exception : Raised}
    (raised : raises query provider = some exception) :
    ∃ attempts', searchCascade query (provider :: rest) attempts circuitOpenCount =
      .raised exception attempts' := by
  unfold raises at raised
  rw [searchCascade]
  cases active : provider.active with
  | none => simp [active] at raised
  | some adapter =>
    simp only [active] at raised
    dsimp only
    cases answer : adapter.searchByTitle query with
    | returned results => simp [answer] at raised
    | circuitOpen => simp [answer] at raised
    | raised other =>
      rw [answer] at raised
      cases raised
      exact ⟨_, rfl⟩

theorem searchCascade_stops (nothing : ∀ earlier ∈ before, finds query earlier = none)
    (loud : ¬ ∀ earlier ∈ before, raises query earlier = none) :
    ∃ exception attempts',
      searchCascade query (before ++ rest) attempts circuitOpenCount =
        .raised exception attempts' := by
  induction before generalizing attempts circuitOpenCount with
  | nil => exact absurd (nofun) loud
  | cons first others ih =>
    rw [List.forall_mem_cons] at nothing loud
    cases raised : raises query first with
    | some exception =>
      obtain ⟨tried, stopped⟩ := searchCascade_raises (others ++ rest) attempts
        circuitOpenCount raised
      exact ⟨exception, tried, stopped⟩
    | none =>
      obtain ⟨next, opened, moved⟩ := searchCascade_next (others ++ rest) attempts
        circuitOpenCount nothing.1 raised
      obtain ⟨exception, tried, stopped⟩ :=
        ih next opened nothing.2 fun silent => loud ⟨raised, silent⟩
      exact ⟨exception, tried, moved.trans stopped⟩

/-- The columns that an enrichment fills, without its status and the reason of a failure. -/
structure Columns where
  doi : Option String
  citationCount : Option CitationCount
  concepts : Option String
  source : Option String
  issnL : Option String
  workType : Option String

def columns (entity : RawEntity) : Columns where
  doi := entity.enrichmentDoi
  citationCount := entity.enrichmentCitationCount
  concepts := entity.enrichmentConcepts
  source := entity.enrichmentSource
  issnL := entity.enrichmentIssnL
  workType := entity.enrichmentWorkType

/-- The columns and the attributes hold an entry the way the record has it. -/
structure CompletedWith (record : EnrichedRecord) (source : String) (enriched : RawEntity) :
    Prop where
  status : enriched.enrichmentStatus = some .completed
  columns : ∃ issnL, columns enriched =
    { doi := record.doi
      citationCount := some (.count record.citationCount)
      concepts := if record.concepts = [] then none else some (", ".intercalate record.concepts)
      source := some source
      issnL := issnL
      workType := record.workType }
  attributes : ∀ entry ∈ recordAttrs record,
    get? (parseAttrs enriched.attributesJson) entry.1 = some entry.2

def laterKeys : List String := ["issn_l", "extracted_country", "epistemic_profile"]

/-- A later step leaves the status and the columns, and every entry under another key. -/
structure LeavesRecord (before after : RawEntity) : Prop where
  status : after.enrichmentStatus = before.enrichmentStatus
  columns : columns after = columns before
  entries : ∀ key, key ∉ laterKeys →
    get? (parseAttrs after.attributesJson) key = get? (parseAttrs before.attributesJson) key

theorem parseAttrs_of_looseAttrs {column : JsonColumn} {attrs : Entries}
    (loose : (looseAttrs column).getD (.object []) = .object attrs) : parseAttrs column = attrs := by
  cases column with
  | null => simpa [looseAttrs, parseAttrs] using loose
  | malformed text =>
    by_cases empty : text = "" <;> simpa [looseAttrs, parseAttrs, empty] using loose
  | parsed value =>
    by_cases truthy : value.truthy = true
    · have same : value = .object attrs := by simpa [looseAttrs, truthy] using loose
      rw [same]
      rfl
    · have nothing : attrs = [] := by simpa [looseAttrs, truthy, eq_comm] using loose
      cases value with
      | object entries =>
        have empty : entries = [] := by simpa [Json.truthy] using truthy
        rw [empty, nothing]
        rfl
      | _ => rw [nothing]; rfl

variable (environment : Environment)

theorem extractAndCacheCountry_leaves {entity cached : RawEntity}
    (extracted : extractAndCacheCountry environment entity = .ok cached) :
    LeavesRecord entity cached := by
  unfold extractAndCacheCountry at extracted
  split at extracted
  · cases extracted
    exact ⟨rfl, rfl, fun _ _ => rfl⟩
  · rename_i attrs loose
    split at extracted
    · cases extracted
      exact ⟨rfl, rfl, fun _ _ => rfl⟩
    · cases extracted
      refine ⟨rfl, rfl, fun key other => ?_⟩
      have differ : "extracted_country" ≠ key := by
        rintro rfl
        simp [laterKeys] at other
      have read : parseAttrs entity.attributesJson = attrs :=
        parseAttrs_of_looseAttrs (by rw [loose]; rfl)
      rw [read]
      exact get?_assign_other attrs _ differ
  · cases extracted

variable (answers : Answers) (entity : RawEntity)

theorem tryEpistemicClassify_leaves :
    LeavesRecord entity (tryEpistemicClassify answers entity) := by
  unfold tryEpistemicClassify
  split
  · rename_i profile attrs _ loose
    refine ⟨rfl, rfl, fun key other => ?_⟩
    have differ : "epistemic_profile" ≠ key := by
      rintro rfl
      simp [laterKeys] at other
    rw [parseAttrs_of_looseAttrs loose]
    exact get?_assign_other attrs _ differ
  · exact ⟨rfl, rfl, fun _ _ => rfl⟩

theorem assignAll_stores {attrs filled : Json} {entries : Entries}
    (distinct : (entries.map Prod.fst).Nodup) (assigned : assignAll attrs entries = .ok filled) :
    ∀ entry ∈ entries, get? (parseAttrs (.parsed filled)) entry.1 = some entry.2 := by
  unfold assignAll at assigned
  split at assigned
  · exact nofun
  · cases assigned
    exact get?_mergeEntries_of_mem _ distinct
  · cases assigned

theorem assignIssnL_other (value : Json) (issnL : Option String) {key : String}
    (other : key ∉ laterKeys) :
    get? (parseAttrs (.parsed (assignIssnL value issnL).1)) key =
      get? (parseAttrs (.parsed value)) key := by
  have differ : "issn_l" ≠ key := by
    rintro rfl
    simp [laterKeys] at other
  unfold assignIssnL
  split
  · exact get?_assign_other _ _ differ
  · rfl

theorem clear_columns :
    columns (clearEnrichmentFailure entity) = columns entity := by
  unfold clearEnrichmentFailure
  split <;> rfl

theorem persistRecord_completes {entity enriched : RawEntity} {source : String}
    (persisted : persistRecord environment answers entity record source = .ok enriched) :
    CompletedWith record source enriched := by
  have cleared := clear_columns (recordColumns entity record source)
  have status := clear_status (recordColumns entity record source)
  unfold persistRecord at persisted
  dsimp only at persisted
  generalize clearEnrichmentFailure (recordColumns entity record source) = before at *
  split at persisted
  · cases persisted
  rename_i attrs _
  split at persisted
  · cases persisted
  rename_i filled assigned
  split at persisted
  · cases persisted
  rename_i cached extracted
  split at persisted
  · cases persisted
  cases persisted
  have country := extractAndCacheCountry_leaves environment extracted
  have profile := tryEpistemicClassify_leaves answers cached
  refine ⟨?_, ?_, fun entry member => ?_⟩
  · rw [profile.status, country.status]
    exact status
  · rw [profile.columns, country.columns]
    refine ⟨(assignIssnL filled (journalIssnL answers record)).2.or before.enrichmentIssnL, ?_⟩
    unfold columns at cleared ⊢
    simp_all [recordColumns]
  · have keys := recordAttrs_keys record
    have listed : entry.1 ∈ recordKeys := keys.subset (List.mem_map_of_mem member)
    have apart : ∀ key ∈ recordKeys, key ∉ laterKeys := by decide
    rw [profile.entries _ (apart _ listed), country.entries _ (apart _ listed)]
    rw [assignIssnL_other filled _ (apart _ listed)]
    exact assignAll_stores (keys.nodup (by decide)) assigned entry member

/-- A provider that finds a record behind silent ones: the entity is completed with the record
exactly if the attributes take it. -/
theorem enrichSingleRecord_found {entity : RawEntity}
    (title : entity.primaryLabel.filter (· ≠ "") = some query)
    (first : FirstToFind query answers.cascade before provider record)
    (silent : ∀ earlier ∈ before, raises query earlier = none) :
    CompletedWith record provider.name (enrichSingleRecord environment answers entity) ↔
      Takes record entity.attributesJson := by
  obtain ⟨⟨after, listed⟩, found, others⟩ := first
  obtain ⟨next, opened, skipped⟩ := searchCascade_skips (provider :: after) [] 0 others silent
  obtain ⟨tried, reached⟩ := searchCascade_finds after next opened found
  have search := skipped.trans reached
  rw [← listed] at search
  unfold enrichSingleRecord
  rw [title]
  dsimp only
  rw [search]
  dsimp only
  by_cases takes : Takes record entity.attributesJson
  · obtain ⟨enriched, persisted, _⟩ :=
      persistRecord_of_takes environment answers entity record provider.name takes
    rw [persisted]
    exact iff_of_true (persistRecord_completes environment answers persisted) takes
  · obtain ⟨raised, touched, persisted⟩ :=
      persistRecord_of_not_takes environment answers entity record provider.name takes
    rw [persisted]
    exact iff_of_false (fun completed => (nomatch completed.status)) takes

/-- An exception of a provider in front of the first finder ends the attempt in a failure. -/
theorem enrichSingleRecord_stopped {entity : RawEntity}
    (title : entity.primaryLabel.filter (· ≠ "") = some query)
    (first : FirstToFind query answers.cascade before provider record)
    (loud : ¬ ∀ earlier ∈ before, raises query earlier = none) :
    (enrichSingleRecord environment answers entity).enrichmentStatus = some .failed := by
  obtain ⟨⟨after, listed⟩, found, others⟩ := first
  obtain ⟨exception, tried, search⟩ := searchCascade_stops (provider :: after) [] 0 others loud
  rw [← listed] at search
  unfold enrichSingleRecord
  rw [title]
  dsimp only
  rw [search]
  rfl

/-- The record of the first finder completes the entity, for every title and every cascade,
exactly if no provider in front of it raises anything and the attributes take the record. -/
theorem first_finder_completes_iff (environment : Environment) (answers : Answers)
    (entity : RawEntity) :
    (∀ query before provider record, entity.primaryLabel.filter (· ≠ "") = some query →
      FirstToFind query answers.cascade before provider record →
      CompletedWith record provider.name (enrichSingleRecord environment answers entity)) ↔
    ∀ query before provider record, entity.primaryLabel.filter (· ≠ "") = some query →
      FirstToFind query answers.cascade before provider record →
      (∀ earlier ∈ before, raises query earlier = none) ∧
        Takes record entity.attributesJson := by
  refine forall₄_congr fun query before provider record => ?_
  refine imp_congr_right fun title => imp_congr_right fun first => ?_
  by_cases silent : ∀ earlier ∈ before, raises query earlier = none
  · rw [enrichSingleRecord_found environment answers title first silent]
    exact ⟨fun takes => ⟨silent, takes⟩, fun both => both.2⟩
  · refine iff_of_false (fun completed => ?_) fun both => silent both.1
    have failed := enrichSingleRecord_stopped environment answers title first silent
    rw [completed.status] at failed
    cases failed

def timeoutThenFound : Answers :=
  { answersOf [paperRecord] [] with
    cascade :=
      [⟨"wos", some ⟨true, fun _ => .raised ⟨"ReadTimeout", "timed out", false⟩⟩⟩,
        ⟨"openalex", some ⟨true, fun _ => .returned [paperRecord]⟩⟩] }

/-- The paper is there at the second provider, and the attempt ends as if every source had
failed. -/
theorem timeout_hides_the_record :
    ∃ before provider,
      FirstToFind "On Names" timeoutThenFound.cascade before provider paperRecord ∧
      pendingPaper.primaryLabel.filter (· ≠ "") = some "On Names" ∧
      ¬ CompletedWith paperRecord provider.name
        (enrichSingleRecord plainEnvironment timeoutThenFound pendingPaper) ∧
      evidenceOf (enrichSingleRecord plainEnvironment timeoutThenFound pendingPaper) =
        (some .failed, some EnrichmentFailureReason.allSourcesFailed, true) := by
  have ended : evidenceOf (enrichSingleRecord plainEnvironment timeoutThenFound pendingPaper) =
      (some .failed, some EnrichmentFailureReason.allSourcesFailed, true) := by decide
  refine ⟨[⟨"wos", some ⟨true, fun _ => .raised ⟨"ReadTimeout", "timed out", false⟩⟩⟩],
    ⟨"openalex", some ⟨true, fun _ => .returned [paperRecord]⟩⟩,
    ⟨⟨[], rfl⟩, rfl, ?_⟩, by decide, fun completed => ?_, ended⟩
  · rw [List.forall_mem_singleton]
    rfl
  · have status := congrArg Prod.fst ended
    exact absurd (completed.status.symm.trans status) (by decide)

/-- The columns have from before what the record is about to write there. -/
structure HeldAlready (record : EnrichedRecord) (source : String) (entity : RawEntity) : Prop where
  doi : entity.enrichmentDoi = record.doi
  citationCount : entity.enrichmentCitationCount = some (.count record.citationCount)
  concepts : entity.enrichmentConcepts =
    if record.concepts = [] then none else some (", ".intercalate record.concepts)
  source : entity.enrichmentSource = some source
  workType : entity.enrichmentWorkType = record.workType

theorem columns_recordColumns_iff (record : EnrichedRecord) (source : String)
    (entity : RawEntity) :
    columns (recordColumns entity record source) = columns entity ↔
      HeldAlready record source entity := by
  unfold columns recordColumns
  rw [Columns.mk.injEq]
  constructor
  · rintro ⟨doi, citationCount, concepts, source, -, workType⟩
    exact ⟨doi.symm, citationCount.symm, concepts.symm, source.symm, workType.symm⟩
  · rintro ⟨doi, citationCount, concepts, source, workType⟩
    exact ⟨doi.symm, citationCount.symm, concepts.symm, source.symm, rfl, workType.symm⟩

/-- Attributes that refuse the record are no object to write the ISSN to either. -/
theorem assignIssnL_of_refused {attributes : JsonColumn} {attrs filled : Json}
    (loaded : loadedAttrs environment attributes = .ok attrs)
    (assigned : assignAll attrs (recordAttrs record) = .ok filled)
    (refuses : ¬ Takes record attributes) (issnL : Option String) :
    (assignIssnL filled issnL).2 = none := by
  cases attributes with
  | null => exact absurd trivial refuses
  | malformed text =>
    have unread : text ≠ "" := refuses
    simp [loadedAttrs, unread] at loaded
  | parsed value =>
    cases loaded
    cases attrs with
    | object entries => exact absurd trivial refuses
    | _ =>
      cases entries : recordAttrs record with
      | nil =>
        rw [entries] at assigned
        cases assigned
        rfl
      | cons entry rest =>
        rw [entries] at assigned
        cases assigned

/-- What the branch of a found record has assigned stays where it raises. -/
theorem columns_of_refused (record : EnrichedRecord) (source : String)
    (refuses : ¬ Takes record entity.attributesJson) :
    ∃ raised touched,
      persistRecord environment answers entity record source = .error (raised, touched) ∧
        columns touched = columns (recordColumns entity record source) := by
  obtain ⟨raised, touched, persisted⟩ :=
    persistRecord_of_not_takes environment answers entity record source refuses
  refine ⟨raised, touched, persisted, ?_⟩
  have cleared := clear_columns (recordColumns entity record source)
  have country := @extractAndCacheCountry_leaves environment
  unfold persistRecord at persisted
  dsimp only at persisted
  have refused := mt (takes_clear record (recordColumns entity record source)).mp refuses
  generalize clearEnrichmentFailure (recordColumns entity record source) = before at *
  rw [← cleared]
  split at persisted
  · cases persisted
    rfl
  rename_i attrs loaded
  split at persisted
  · cases persisted
    rfl
  rename_i filled assigned
  have unassigned := assignIssnL_of_refused environment loaded assigned refused
    (journalIssnL answers record)
  rw [unassigned] at persisted
  split at persisted
  · cases persisted
    rfl
  rename_i cached extracted
  split at persisted
  · cases persisted
    exact (country extracted).columns
  · cases persisted

/-- An attempt that a provider has a record for and that fails leaves the columns exactly if it
does not fail behind the assignments, or the record is in the columns from before. -/
theorem columns_kept_iff (environment : Environment) (answers : Answers) (entity : RawEntity)
    {query source : String} {record : EnrichedRecord} {attempts : List String}
    (title : entity.primaryLabel.filter (· ≠ "") = some query)
    (search : searchCascade query answers.cascade [] 0 = .found record source attempts) :
    ((enrichSingleRecord environment answers entity).enrichmentStatus = some .failed →
        columns (enrichSingleRecord environment answers entity) = columns entity) ↔
      Takes record entity.attributesJson ∨ HeldAlready record source entity := by
  unfold enrichSingleRecord
  rw [title]
  dsimp only
  rw [search]
  dsimp only
  by_cases takes : Takes record entity.attributesJson
  · obtain ⟨enriched, persisted, completed, _⟩ :=
      persistRecord_of_takes environment answers entity record source takes
    rw [persisted]
    refine iff_of_true (fun failed => ?_) (.inl takes)
    rw [completed] at failed
    cases failed
  · obtain ⟨raised, touched, persisted, assigned⟩ :=
      columns_of_refused environment answers entity record source takes
    rw [persisted, or_iff_right takes, ← columns_recordColumns_iff, ← assigned]
    exact ⟨fun kept => kept rfl, fun kept _ => kept⟩

def brokenPaper : RawEntity :=
  { pendingPaper with attributesJson := .malformed "not json" }

theorem columns_kept_iff_brokenPaper :
    ((enrichSingleRecord plainEnvironment (answersOf [paperRecord] []) brokenPaper).enrichmentStatus =
          some .failed →
        columns (enrichSingleRecord plainEnvironment (answersOf [paperRecord] []) brokenPaper) =
          columns brokenPaper) ↔
      Takes paperRecord brokenPaper.attributesJson ∨
        HeldAlready paperRecord "openalex" brokenPaper :=
  columns_kept_iff plainEnvironment (answersOf [paperRecord] []) brokenPaper
    rfl rfl

/-- The attributes cannot be parsed: the attempt fails and the paper has the identifier of the
record. -/
theorem half_written_paper :
    (enrichSingleRecord plainEnvironment (answersOf [paperRecord] []) brokenPaper).enrichmentStatus =
      some .failed ∧
    columns (enrichSingleRecord plainEnvironment (answersOf [paperRecord] []) brokenPaper) ≠
      columns brokenPaper := by
  refine ⟨by decide, fun same => ?_⟩
  have written : (enrichSingleRecord plainEnvironment (answersOf [paperRecord] [])
      brokenPaper).enrichmentDoi = some "10.1/names" := by decide
  have kept := congrArg Columns.doi same
  exact absurd (written.symm.trans kept) (by decide)

end Ukip.Enrichment.Cascade
