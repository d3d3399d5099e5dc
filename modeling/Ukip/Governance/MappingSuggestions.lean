import Ukip.Core.Clock
import Ukip.Governance.FieldCorrespondence

/-!
# Mapping suggestions and the rules made from them

`services/mapping_suggestions.py` with a database.  Accepting a suggestion writes the
suggestion and the field-correspondence rule; rejecting or superseding one writes the
suggestion alone.
-/

namespace Ukip.Governance.MappingSuggestions

open Foundation.EventRun Foundation.Relational Core.Clock
open Governance.FieldCorrespondence (ruleClash ruleClash_comm FieldCorrespondenceRule)

inductive SuggestionStatus where
  | autoAcceptable
  | reviewRequired
  | accepted
  | rejected
  | superseded
  deriving DecidableEq

structure MappingSuggestionRecord where
  id : Nat
  orgId : Option Int
  importBatchId : Option Nat
  sourceId : Option String
  sourceFormat : Option String
  sourceSchema : Option String
  sourceField : String
  canonicalTarget : String
  confidence : Rat
  status : SuggestionStatus
  evidenceSamples : List String
  semanticConcept : Option String
  identifierScheme : Option String
  evidence : List String
  requiresReview : Bool
  rationale : Option String
  reviewerId : Option Nat := none
  reviewedAt : Option Time := none
  supersededBy : Option Nat := none
  createdAt : Time
  updatedAt : Option Time := none

def suggestionSchema : Schema MappingSuggestionRecord where
  key := MappingSuggestionRecord.id
  withKey := fun value row => { row with id := value }
  key_withKey := fun _ _ => rfl
  clash := fun _ _ => false
  clash_comm := fun _ _ => rfl
  clash_withKey := fun _ _ _ => rfl

/-- A row of `field_correspondence_rules` with the suggestion that it names. -/
structure Rule extends FieldCorrespondenceRule where
  createdFromSuggestionId : Option Nat
  createdAt : Time
  updatedAt : Option Time

def ruleSchema : Schema Rule where
  key := fun rule => rule.id
  withKey := fun value rule => { rule with id := value }
  key_withKey := fun _ _ => rfl
  clash := fun first second => ruleClash first.toFieldCorrespondenceRule second.toFieldCorrespondenceRule
  clash_comm := fun _ _ => ruleClash_comm _ _
  clash_withKey := fun _ _ _ => rfl

structure Db where
  suggestions : SerialTable suggestionSchema
  rules : SerialTable ruleSchema

inductive SemanticRole where
  | person
  | organization
  | place
  | concept
  | publication
  | dataset
  | identifier
  | date
  | numeric
  | unknown

structure FieldProfile where
  fieldName : String
  sampleValues : List String
  semanticCandidates : List SemanticRole
  candidateIdentifiers : List String

structure SourceProfile where
  sourceId : String
  sourceFormat : String
  fieldProfiles : List FieldProfile

/-- What `_infer_target` finds for a field. -/
structure Inferred where
  target : Option String
  confidence : Rat
  semanticConcept : Option String
  identifierScheme : Option String
  evidence : List String
  requiresReview : Bool

/-- The header tables of `services/field_correspondence.py`, and what Python computes with
text and floats. -/
structure Vocabulary where
  inferSourceSchema : String → List String → Option String
  resolveFieldCorrespondence : String → List String → Option String → Option Inferred
  lower : String → String
  round3 : Rat → Rat

/-- `_ROLE_TARGET_MAP` -/
def roleTarget : SemanticRole → Option String
  | .publication => some "primary_label"
  | .person => some "secondary_label"
  | .identifier => some "enrichment_doi"
  | .concept => some "enrichment_concepts"
  | _ => none

def nameTargetMap : List (String × String) :=
  [("title", "primary_label"), ("name", "primary_label"), ("display_name", "primary_label"),
    ("authors", "secondary_label"), ("author", "secondary_label"), ("creator", "secondary_label"),
    ("doi", "enrichment_doi"), ("citation_count", "enrichment_citation_count"),
    ("cited_by_count", "enrichment_citation_count"), ("concepts", "enrichment_concepts"),
    ("keywords", "enrichment_concepts"), ("topics", "enrichment_concepts"),
    ("source", "enrichment_source"), ("source_api", "enrichment_source"),
    ("type", "entity_type"), ("entity_type", "entity_type")]

variable (vocabulary : Vocabulary)

def normalizedName (fieldName : String) : String :=
  String.ofList ((vocabulary.lower fieldName).toList.map fun char =>
    if char = '-' ∨ char = ' ' then '_' else char)

def ruleFor (sourceField : String) (sourceSchema : Option String) (orgId : Option Int)
    (rule : Rule) : Bool :=
  rule.sourceField == sourceField && rule.isActive && rule.sourceSchema == sourceSchema &&
    rule.orgId == orgId

/-- `_find_active_rule`: the one with the highest id. -/
def findActiveRule (db : Db) (sourceField : String) (sourceSchema : Option String)
    (orgId : Option Int) : Option Rule :=
  (db.rules.rows.filter (ruleFor sourceField sourceSchema orgId)).foldl
    (fun best rule =>
      match best with
      | none => some rule
      | some other => if other.id < rule.id then some rule else some other)
    none

def noTarget : Inferred where
  target := none
  confidence := 0
  semanticConcept := none
  identifierScheme := none
  evidence := []
  requiresReview := false

def inferTarget (db : Db) (profile : FieldProfile) (sourceSchema : Option String)
    (orgId : Option Int) : Inferred :=
  match findActiveRule db profile.fieldName sourceSchema orgId with
  | some override =>
    { target := override.canonicalTarget
      confidence := if override.confidence = 0 then 1 else override.confidence
      semanticConcept := override.semanticConcept
      identifierScheme := override.identifierScheme
      evidence := "approved_field_correspondence_rule" :: override.evidence
      requiresReview := false }
  | none =>
    match vocabulary.resolveFieldCorrespondence profile.fieldName profile.sampleValues
        sourceSchema with
    | some correspondence =>
      { correspondence with
        confidence := if correspondence.target.isNone then 0 else correspondence.confidence }
    | none =>
      match nameTargetMap.lookup (normalizedName vocabulary profile.fieldName) with
      | some target =>
        { noTarget with
          target := some target, confidence := 95 / 100, evidence := ["legacy_exact_name"] }
      | none =>
        match profile.semanticCandidates.findSome? roleTarget with
        | some target =>
          { noTarget with
            target := some target, confidence := 75 / 100, evidence := ["semantic_role"] }
        | none =>
          if "DOI" ∈ profile.candidateIdentifiers then
            { noTarget with
              target := some "canonical_id"
              confidence := 85 / 100
              semanticConcept := some "persistent_identifier"
              identifierScheme := some "doi"
              evidence := ["candidate_identifier"] }
          else noTarget

/-- `_persist_suggestion`: an open suggestion of the same content stays the only one. -/
def isOpenLike (suggestion record : MappingSuggestionRecord) : Bool :=
  record.orgId == suggestion.orgId && record.sourceId == suggestion.sourceId &&
    record.sourceSchema == suggestion.sourceSchema &&
      record.sourceField == suggestion.sourceField &&
        record.canonicalTarget == suggestion.canonicalTarget &&
          record.status != .rejected && record.status != .superseded

theorem accepts_suggestion (suggestions : SerialTable suggestionSchema)
    (row : MappingSuggestionRecord) : suggestions.rejects row = false :=
  List.any_eq_false.mpr fun _ _ clashes => Bool.noConfusion clashes

def persistSuggestion (db : Db) (suggestion : MappingSuggestionRecord) : Db :=
  if db.suggestions.rows.any (isOpenLike suggestion) then db
  else
    { db with
      suggestions := db.suggestions.append suggestion (accepts_suggestion db.suggestions suggestion) }

def suggestionFor (db : Db) (now : Time) (profile : SourceProfile) (sourceSchema : Option String)
    (orgId : Option Int) (importBatchId : Option Nat) (field : FieldProfile) :
    Option MappingSuggestionRecord :=
  let inferred := inferTarget vocabulary db field sourceSchema orgId
  match inferred.target with
  | none => none
  | some target =>
    if target = "" then none
    else
      some
        { id := 0
          orgId := orgId
          importBatchId := importBatchId
          sourceId := some profile.sourceId
          sourceFormat := some profile.sourceFormat
          sourceSchema := sourceSchema
          sourceField := field.fieldName
          canonicalTarget := target
          confidence := vocabulary.round3 inferred.confidence
          status := if 9 / 10 ≤ inferred.confidence then .autoAcceptable else .reviewRequired
          evidenceSamples := field.sampleValues.take 3
          semanticConcept := inferred.semanticConcept
          identifierScheme := inferred.identifierScheme
          evidence := inferred.evidence
          requiresReview := inferred.requiresReview
          rationale := some ""
          createdAt := now }

def generateField (now : Time) (profile : SourceProfile) (sourceSchema : Option String)
    (orgId : Option Int) (importBatchId : Option Nat) (db : Db) (field : FieldProfile) : Db :=
  match suggestionFor vocabulary db now profile sourceSchema orgId importBatchId field with
  | none => db
  | some suggestion => persistSuggestion db suggestion

def generateSuggestions (db : Db) (now : Time) (profile : SourceProfile) (orgId : Option Int)
    (importBatchId : Option Nat) : Db :=
  let sourceSchema := vocabulary.inferSourceSchema profile.sourceFormat
    (profile.fieldProfiles.map FieldProfile.fieldName)
  profile.fieldProfiles.foldl
    (generateField vocabulary now profile sourceSchema orgId importBatchId) db

def suggestionSet (apply : MappingSuggestionRecord → MappingSuggestionRecord)
    (keepsId : ∀ row, (apply row).id = row.id) : SetClause suggestionSchema where
  apply := apply
  key_apply := keepsId
  clash_apply := fun _ _ => rfl

def acceptSet (now : Time) (reviewerId : Nat) : SetClause suggestionSchema :=
  suggestionSet
    (fun row => { row with
      status := .accepted, reviewerId := some reviewerId, reviewedAt := some now
      updatedAt := some now })
    fun _ => rfl

def rejectSet (now : Time) (rationale : String) (reviewerId : Nat) : SetClause suggestionSchema :=
  suggestionSet
    (fun row => { row with
      status := .rejected, rationale := some rationale, reviewerId := some reviewerId
      reviewedAt := some now, updatedAt := some now })
    fun _ => rfl

def supersedeSet (now : Time) (newId : Nat) : SetClause suggestionSchema :=
  suggestionSet
    (fun row => { row with
      status := .superseded, supersededBy := some newId, updatedAt := some now })
    fun _ => rfl

def setSuggestion (db : Db) (id : Nat) (set : SetClause suggestionSchema) : Db :=
  { db with suggestions := db.suggestions.updateWhere (fun row => row.id == id) set }

def assigned (suggestion : MappingSuggestionRecord) (reviewerId : Nat) (now : Time) (rule : Rule) :
    Rule :=
  { rule with
    canonicalTarget := some suggestion.canonicalTarget
    semanticConcept := suggestion.semanticConcept
    identifierScheme := suggestion.identifierScheme
    confidence := 1
    evidence := "accepted_mapping_suggestion" :: suggestion.evidence
    isActive := true
    createdFromSuggestionId := some suggestion.id
    createdById := some reviewerId
    updatedAt := some now }

def ruleSet (suggestion : MappingSuggestionRecord) (reviewerId : Nat) (now : Time) :
    SetClause ruleSchema where
  apply := assigned suggestion reviewerId now
  key_apply := fun _ => rfl
  clash_apply := fun _ _ => rfl

def newRule (suggestion : MappingSuggestionRecord) (now : Time) : Rule where
  id := 0
  orgId := suggestion.orgId
  sourceSchema := suggestion.sourceSchema
  sourceField := suggestion.sourceField
  canonicalTarget := none
  semanticConcept := none
  identifierScheme := none
  confidence := 1
  evidence := []
  isActive := true
  createdById := none
  createdFromSuggestionId := none
  createdAt := now
  updatedAt := none

/-- `_upsert_rule_from_suggestion`; `none` is the integrity error of an inactive rule with
the same schema and scope. -/
def upsertRule (db : Db) (suggestion : MappingSuggestionRecord) (reviewerId : Nat) (now : Time) :
    Option (SerialTable ruleSchema) :=
  match findActiveRule db suggestion.sourceField suggestion.sourceSchema suggestion.orgId with
  | some rule =>
    some (db.rules.updateWhere (fun row => row.id == rule.id) (ruleSet suggestion reviewerId now))
  | none => db.rules.insert (assigned suggestion reviewerId now (newRule suggestion now))

def acceptSuggestion (db : Db) (now : Time) (id reviewerId : Nat) : Db :=
  match db.suggestions.get? id with
  | none => db
  | some suggestion =>
    if suggestion.status = .accepted ∨ suggestion.status = .superseded then db
    else
      match upsertRule db suggestion reviewerId now with
      | none => db
      | some rules => { setSuggestion db id (acceptSet now reviewerId) with rules := rules }

def rejectSuggestion (db : Db) (now : Time) (id : Nat) (rationale : String) (reviewerId : Nat) : Db :=
  match db.suggestions.get? id with
  | none => db
  | some suggestion =>
    if suggestion.status = .superseded then db
    else setSuggestion db id (rejectSet now rationale reviewerId)

def supersedeSuggestion (db : Db) (now : Time) (oldId newId : Nat) : Db :=
  match db.suggestions.get? oldId with
  | none => db
  | some _ => setSuggestion db oldId (supersedeSet now newId)

inductive Operation where
  | generate (profile : SourceProfile) (orgId : Option Int) (importBatchId : Option Nat)
  | accept (id reviewerId : Nat)
  | reject (id : Nat) (rationale : String) (reviewerId : Nat)
  | supersede (oldId newId : Nat)

structure Timed where
  now : Time
  operation : Operation

def step (db : Db) (timed : Timed) : Db :=
  match timed.operation with
  | .generate profile orgId importBatchId =>
    generateSuggestions vocabulary db timed.now profile orgId importBatchId
  | .accept id reviewerId => acceptSuggestion db timed.now id reviewerId
  | .reject id rationale reviewerId => rejectSuggestion db timed.now id rationale reviewerId
  | .supersede oldId newId => supersedeSuggestion db timed.now oldId newId

def Rule.names (rule : Rule) (id : Nat) : Prop :=
  rule.isActive = true ∧ rule.createdFromSuggestionId = some id

/-- The suggestion with this id is accepted and has the target. -/
def Accepted (suggestions : SerialTable suggestionSchema) (id : Nat) (target : Option String) :
    Prop :=
  ∃ suggestion ∈ suggestions.rows, suggestion.id = id ∧ suggestion.status = .accepted ∧
    target = some suggestion.canonicalTarget

/-- Every active rule that names a suggestion is backed by an accepted one with its target. -/
def Backed (db : Db) : Prop :=
  ∀ rule ∈ db.rules.rows, ∀ id, rule.names id → Accepted db.suggestions id rule.canonicalTarget

def Timed.closes (timed : Timed) : Option Nat :=
  match timed.operation with
  | .reject id _ _ => some id
  | .supersede oldId _ => some oldId
  | .generate _ _ _ => none
  | .accept _ _ => none

/-- No active rule names the suggestion that the operation rejects or supersedes. -/
def ClosesUnused (db : Db) (timed : Timed) : Prop :=
  ∀ id, timed.closes = some id → ∀ rule ∈ db.rules.rows, ¬ rule.names id

variable {suggestion : MappingSuggestionRecord} {db : Db} {id : Nat} {target : Option String}

theorem accepted_persist (accepted : Accepted db.suggestions id target) :
    Accepted (persistSuggestion db suggestion).suggestions id target := by
  obtain ⟨row, member, here⟩ := accepted
  unfold persistSuggestion
  split
  · exact ⟨row, member, here⟩
  · exact ⟨row, (db.suggestions.mem_append suggestion row (accepts_suggestion _ _)).mpr (.inl member),
      here⟩

theorem rules_persist (db : Db) (suggestion : MappingSuggestionRecord) :
    (persistSuggestion db suggestion).rules = db.rules := by
  unfold persistSuggestion
  split <;> rfl

theorem backed_generateField (now : Time) (profile : SourceProfile) (sourceSchema : Option String)
    (orgId : Option Int) (importBatchId : Option Nat) (db : Db) (field : FieldProfile)
    (before : Backed db) :
    Backed (generateField vocabulary now profile sourceSchema orgId importBatchId db field) := by
  unfold generateField
  split
  · exact before
  · intro rule member id names
    rw [rules_persist] at member
    exact accepted_persist (before rule member id names)

theorem backed_generate (db : Db) (now : Time) (profile : SourceProfile) (orgId : Option Int)
    (importBatchId : Option Nat) (before : Backed db) :
    Backed (generateSuggestions vocabulary db now profile orgId importBatchId) := by
  unfold generateSuggestions
  generalize profile.fieldProfiles = fields
  dsimp only
  generalize vocabulary.inferSourceSchema profile.sourceFormat _ = sourceSchema
  induction fields generalizing db with
  | nil => exact before
  | cons field rest ih =>
    exact ih _ (backed_generateField vocabulary now profile sourceSchema orgId importBatchId db
      field before)

theorem accepted_setSuggestion_of_ne {id other : Nat} (apart : other ≠ id)
    (set : SetClause suggestionSchema) (accepted : Accepted db.suggestions other target) :
    Accepted (setSuggestion db id set).suggestions other target := by
  obtain ⟨row, member, same, here⟩ := accepted
  refine ⟨set.onRow (fun stored => stored.id == id) row,
    (db.suggestions.mem_updateWhere _ _ _).mpr ⟨row, member, rfl⟩, ?_⟩
  have missed : ¬ (row.id == id) = true := by
    rw [beq_iff_eq, same]
    exact apart
  rw [SetClause.onRow, if_neg missed]
  exact ⟨same, here⟩

variable {set : SetClause suggestionSchema}

theorem eq_of_setSuggestion {suggestion row : MappingSuggestionRecord}
    (found : db.suggestions.get? id = some suggestion)
    (member : row ∈ (setSuggestion db id set).suggestions.rows) (same : row.id = id) :
    row = set.apply suggestion := by
  obtain ⟨present, sameKey⟩ := (db.suggestions.get?_eq_some_iff id suggestion).mp found
  obtain ⟨old, oldMember, rfl⟩ := (db.suggestions.mem_updateWhere _ _ row).mp member
  have oldId : old.id = id := (set.key_onRow _ old).symm.trans same
  have one : old = suggestion := db.suggestions.eq_of_key_eq oldMember present (oldId.trans sameKey.symm)
  subst one
  exact if_pos (beq_iff_eq.mpr oldId)

theorem mem_setSuggestion (found : db.suggestions.get? id = some suggestion) :
    set.apply suggestion ∈ (setSuggestion db id set).suggestions.rows := by
  obtain ⟨present, sameKey⟩ := (db.suggestions.get?_eq_some_iff id suggestion).mp found
  refine (db.suggestions.mem_updateWhere _ _ _).mpr ⟨suggestion, present, ?_⟩
  exact if_pos (beq_iff_eq.mpr sameKey)

theorem mem_upsertRule {reviewerId : Nat} {now : Time} {rules : SerialTable ruleSchema}
    (upserted : upsertRule db suggestion reviewerId now = some rules) {rule : Rule}
    (member : rule ∈ rules.rows) :
    rule ∈ db.rules.rows ∨ rule.createdFromSuggestionId = some suggestion.id ∧
      rule.canonicalTarget = some suggestion.canonicalTarget := by
  unfold upsertRule at upserted
  split at upserted
  · cases upserted
    obtain ⟨old, oldMember, rfl⟩ := (db.rules.mem_updateWhere _ _ rule).mp member
    unfold SetClause.onRow
    split
    · exact .inr ⟨rfl, rfl⟩
    · exact .inl oldMember
  · obtain ⟨accepted, rfl⟩ := (db.rules.insert_eq_some_iff rules _).mp upserted
    rcases (db.rules.mem_append _ rule accepted).mp member with old | rfl
    · exact .inl old
    · exact .inr ⟨rfl, rfl⟩

theorem backed_accept (db : Db) (now : Time) (id reviewerId : Nat) (before : Backed db) :
    Backed (acceptSuggestion db now id reviewerId) := by
  unfold acceptSuggestion
  split
  · exact before
  · rename_i suggestion found
    split
    · exact before
    · rename_i open'
      split
      · exact before
      · rename_i rules upserted
        obtain ⟨present, sameKey⟩ := (db.suggestions.get?_eq_some_iff id suggestion).mp found
        change suggestion.id = id at sameKey
        intro rule member named names
        rcases mem_upsertRule upserted member with old | ⟨from', target⟩
        · have accepted := before rule old named names
          refine accepted_setSuggestion_of_ne ?_ (acceptSet now reviewerId) accepted
          -- No active rule named the suggestion while it was not accepted.
          rintro rfl
          obtain ⟨row, rowMember, same, status, _⟩ := accepted
          have one : row = suggestion :=
            db.suggestions.eq_of_key_eq rowMember present (same.trans sameKey.symm)
          rw [one] at status
          exact open' (.inl status)
        · have same : suggestion.id = named := Option.some.inj (from'.symm.trans names.2)
          exact ⟨(acceptSet now reviewerId).apply suggestion, mem_setSuggestion found, same, rfl, target⟩

theorem backed_close_iff (db : Db) (id : Nat) (set : SetClause suggestionSchema)
    (found : db.suggestions.get? id = some suggestion)
    (closes : (set.apply suggestion).status ≠ .accepted) (before : Backed db) :
    Backed (setSuggestion db id set) ↔ ∀ rule ∈ db.rules.rows, ¬ rule.names id := by
  constructor
  · intro after rule member names
    obtain ⟨row, rowMember, same, status, _⟩ := after rule member id names
    rw [eq_of_setSuggestion found rowMember same] at status
    exact closes status
  · intro unused rule member other names
    refine accepted_setSuggestion_of_ne ?_ set (before rule member other names)
    rintro rfl
    exact unused rule member names

theorem not_names_of_not_accepted (before : Backed db)
    (open' : ∀ suggestion, db.suggestions.get? id = some suggestion → suggestion.status ≠ .accepted) :
    ∀ rule ∈ db.rules.rows, ¬ rule.names id := by
  intro rule member names
  obtain ⟨row, rowMember, same, status, _⟩ := before rule member id names
  exact open' row ((db.suggestions.get?_eq_some_iff id row).mpr ⟨rowMember, same⟩) status

theorem backed_step_iff (db : Db) (timed : Timed) (before : Backed db) :
    Backed (step vocabulary db timed) ↔ ClosesUnused db timed := by
  obtain ⟨now, operation⟩ := timed
  have closes : ∀ id, (⟨now, operation⟩ : Timed).closes = some id →
      (ClosesUnused db ⟨now, operation⟩ ↔ ∀ rule ∈ db.rules.rows, ¬ rule.names id) := by
    intro id closed
    refine ⟨fun unused => unused id closed, fun unused other otherClosed => ?_⟩
    rw [closed] at otherClosed
    cases otherClosed
    exact unused
  have unknown : ∀ id, db.suggestions.get? id = none →
      (Backed db ↔ ∀ rule ∈ db.rules.rows, ¬ rule.names id) := by
    intro id absent
    refine ⟨fun _ => not_names_of_not_accepted before fun suggestion here => ?_, fun _ => before⟩
    rw [absent] at here
    cases here
  cases operation with
  | generate profile orgId importBatchId =>
    refine ⟨fun _ id closed => ?_, fun _ => ?_⟩
    · cases closed
    · exact backed_generate vocabulary db now profile orgId importBatchId before
  | accept id reviewerId =>
    refine ⟨fun _ other closed => ?_, fun _ => ?_⟩
    · cases closed
    · exact backed_accept db now id reviewerId before
  | reject id rationale reviewerId =>
    rw [closes id rfl]
    change Backed (rejectSuggestion db now id rationale reviewerId) ↔ _
    unfold rejectSuggestion
    cases found : db.suggestions.get? id with
    | none => exact unknown id found
    | some suggestion =>
      dsimp only
      split
      · rename_i superseded
        refine ⟨fun _ => not_names_of_not_accepted before fun other here => ?_, fun _ => before⟩
        rw [found] at here
        cases here
        rw [superseded]
        decide
      · exact backed_close_iff db id _ found SuggestionStatus.noConfusion before
  | supersede oldId newId =>
    rw [closes oldId rfl]
    change Backed (supersedeSuggestion db now oldId newId) ↔ _
    unfold supersedeSuggestion
    cases found : db.suggestions.get? oldId with
    | none => exact unknown oldId found
    | some suggestion =>
      exact backed_close_iff db oldId _ found SuggestionStatus.noConfusion before

/-- In every run, the active rules are backed by accepted suggestions exactly when no
operation rejects or supersedes a suggestion that an active rule names. -/
theorem backed_everyState_iff (start : Db) (operations : List Timed) (initial : Backed start) :
    EveryState (step vocabulary) Backed start operations ↔
      EveryStep (step vocabulary) ClosesUnused start operations :=
  everyState_iff_everyStep (backed_step_iff vocabulary) start operations initial

def nameVocabulary : Vocabulary where
  inferSourceSchema := fun _ _ => none
  resolveFieldCorrespondence := fun _ _ _ => none
  lower := String.toLower
  round3 := fun confidence => confidence

def emptyDb : Db where
  suggestions := SerialTable.empty suggestionSchema
  rules := SerialTable.empty ruleSchema

def acceptedThenRejected : List Timed :=
  [⟨0, .generate ⟨"upload", "csv", [⟨"title", [], [], []⟩]⟩ none none⟩, ⟨1, .accept 1 7⟩,
    ⟨2, .reject 1 "wrong column" 7⟩]

theorem emptyDb_backed : Backed emptyDb := by
  intro rule member
  cases member

theorem backed_acceptedThenRejected :
    EveryState (step nameVocabulary) Backed emptyDb acceptedThenRejected ↔
      EveryStep (step nameVocabulary) ClosesUnused emptyDb acceptedThenRejected :=
  backed_everyState_iff nameVocabulary emptyDb acceptedThenRejected emptyDb_backed

theorem rejected_suggestion_keeps_rule :
    ¬ EveryState (step nameVocabulary) Backed emptyDb acceptedThenRejected := by
  intro every
  have last := (everyState_iff_front emptyDb acceptedThenRejected).mp every acceptedThenRejected []
    (List.append_nil _).symm
  have held : ((runEvents (step nameVocabulary) emptyDb acceptedThenRejected).rules.rows.any
      fun rule => rule.isActive && rule.createdFromSuggestionId == some 1) = true := by
    decide +kernel
  have closed : ((runEvents (step nameVocabulary) emptyDb acceptedThenRejected).suggestions.rows.all
      fun suggestion => suggestion.status != .accepted) = true := by
    decide +kernel
  obtain ⟨rule, member, names⟩ := List.any_eq_true.mp held
  rw [Bool.and_eq_true, beq_iff_eq] at names
  obtain ⟨suggestion, present, _, status, _⟩ := last rule member 1 names
  have open' := List.all_eq_true.mp closed suggestion present
  rw [status] at open'
  cases open'

end Ukip.Governance.MappingSuggestions
