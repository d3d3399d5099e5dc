import Ukip.Analytics.Corpus
import Ukip.Foundation.FallibleLoop
import Ukip.Foundation.JsonValue
import Ukip.Foundation.OrderBy

/-!
# Epistemic classification in pages

`classify_batch` of `epistemic_classifier.py`: pages by offset over a query that asks for no
order, while the loop rewrites the rows and commits.  A column that parses to something else
than what the reader takes it for ends the whole batch.
-/

namespace Ukip.Analytics.EpistemicPages

open Foundation (SetOrder)
open Foundation.FallibleLoop Foundation.JsonValue
open Analytics.Corpus (strip isPythonSpace)

structure RawEntity where
  id : Nat
  domain : Option String
  enrichmentStatus : Option String
  enrichmentConcepts : Option String
  attributesJson : JsonColumn
  normalizedJson : JsonColumn

/-- What leaves `classify_batch`: only a TypeError or ValueError of `json.loads` is caught. -/
inductive PythonError where
  | attributeError
  | typeError

/-- `json.loads(column or "{}") or {}`, `{}` for a text that does not parse. -/
def loaded : JsonColumn → Json
  | .null => .object []
  | .malformed _ => .object []
  | .parsed value => if value.truthy then value else .object []

/-- `attrs.get(key, "") or ""` -/
def getOrEmpty (entries : Entries) (key : String) : Json :=
  match get? entries key with
  | some value => if value.truthy then value else .text ""
  | none => .text ""

/-- `abstract` and `journal`, which may be in `normalized_json`. -/
def ownOrNormalized (entity : RawEntity) (attrs : Entries) (key : String) :
    Except PythonError Json :=
  if (getOrEmpty attrs key).truthy then .ok (getOrEmpty attrs key)
  else
    match loaded entity.normalizedJson with
    | .object norm => .ok (getOrEmpty norm key)
    | _ => .error .attributeError

structure Fields where
  abstract : Json
  concepts : String
  documentType : Json
  journal : Json

def extractFields (entity : RawEntity) : Except PythonError Fields :=
  match loaded entity.attributesJson with
  | .object attrs => do
    let abstract ← ownOrNormalized entity attrs "abstract"
    let journal ← ownOrNormalized entity attrs "journal"
    return {
      abstract := abstract
      concepts := entity.enrichmentConcepts.getD ""
      documentType := getOrEmpty attrs "document_type"
      journal := journal }
  | _ => .error .attributeError

/-- The text whose method is called: `abstract.strip()`, `journal.lower()`. -/
def asText : Json → Except PythonError String
  | .text value => .ok value
  | _ => .error .attributeError

def minAbstractLength : Nat := 50

def batchChunk : Nat := 500

/-- `_normalize_scores` of `_score_entity` for the paradigms of the domain: abstract, concepts,
document type and journal.  `shown` is the float as `json.dumps` writes it. -/
structure Scoring where
  normalized : String → String → String → String → List (String × Rat)
  shown : Rat → Json

variable (scoring : Scoring) (now : String)

/-- The profile of these scores; there is none where the scores are empty. -/
def profileOf (scores : List (String × Rat)) : Option Json :=
  -- the first of the greatest
  (scores.argmax Prod.snd).map fun dominant => .object
    [("paradigms", .object (scores.map fun score => (score.1, scoring.shown score.2))),
      ("dominant", .text dominant.1), ("classified_at", .text now)]

def classifyEntity (entity : RawEntity) : Except PythonError (Option Json) := do
  let fields ← extractFields entity
  let abstract ← asText fields.abstract
  if (strip isPythonSpace abstract.toList).length < minAbstractLength then return none
  else
    let documentType ← asText fields.documentType
    let journal ← asText fields.journal
    return profileOf scoring now (scoring.normalized abstract fields.concepts documentType journal)

def profileKey : String := "epistemic_profile"

def isProfileKey : Json → Bool
  | .text value => value == profileKey
  | _ => false

/-- `"epistemic_profile" in attrs`: a key, an item or a part of a text. -/
def hasProfile : Json → Except PythonError Bool
  | .object attrs => .ok (get? attrs profileKey).isSome
  | .array items => .ok (items.any isProfileKey)
  | .text value => .ok (decide (profileKey.toList <:+: value.toList))
  | _ => .error .typeError

structure Stats where
  classified : Nat
  skipped : Nat
  unclassified : Nat

structure Run where
  rows : List RawEntity
  stats : Stats
  /-- the rows that the inner loop took up, in order -/
  examined : List Nat

/-- The column that the flush of the entity writes, by primary key. -/
def setProfile (entity : RawEntity) (profile : Json) (row : RawEntity) : RawEntity :=
  if row.id = entity.id then
    match loaded entity.attributesJson with
    | .object attrs =>
      { row with attributesJson := .parsed (.object (assign attrs profileKey profile)) }
    -- not reached: `_extract_fields` has raised
    | _ => row
  else row

def Run.skip (run : Run) (entity : RawEntity) : Run :=
  { run with
    stats := { run.stats with skipped := run.stats.skipped + 1 }
    examined := run.examined ++ [entity.id] }

def Run.record (run : Run) (entity : RawEntity) : Option Json → Run
  | some profile =>
    { rows := run.rows.map (setProfile entity profile)
      stats := { run.stats with classified := run.stats.classified + 1 }
      examined := run.examined ++ [entity.id] }
  | none =>
    { run with
      stats := { run.stats with unclassified := run.stats.unclassified + 1 }
      examined := run.examined ++ [entity.id] }

def examine (run : Run) (entity : RawEntity) : Except PythonError Run := do
  if ← hasProfile (loaded entity.attributesJson) then return run.skip entity
  else return run.record entity (← classifyEntity scoring now entity)

def isEnriched (domainId : String) (row : RawEntity) : Bool :=
  row.domain == some domainId && row.enrichmentStatus == some "completed"

def enrichedIds (domainId : String) (rows : List RawEntity) : List Nat :=
  (rows.filter (isEnriched domainId)).map RawEntity.id

/-- The rows that one page query returns, in the order that the database takes. -/
def page (order : SetOrder RawEntity) (domainId : String) (chunkSize offset : Nat)
    (rows : List RawEntity) : List RawEntity :=
  ((order.visit (rows.filter (isEnriched domainId))).drop offset).take chunkSize

variable {scoring : Scoring} {now : String} {domainId : String} {chunkSize : Nat}

section Reading

def isText : Json → Bool
  | .text _ => true
  | _ => false

theorem asText_ok {value : Json} {text : String} : asText value = .ok text ↔ value = .text text := by
  cases value with
  | text written => simp [asText]
  | _ => simp [asText]

theorem isText_iff {value : Json} : isText value = true ↔ ∃ text, value = .text text := by
  cases value with
  | text written => exact iff_of_true rfl ⟨written, rfl⟩
  | _ => exact iff_of_false Bool.false_ne_true fun ⟨_, wrong⟩ => (nomatch wrong)

def entriesOf : Json → Entries
  | .object entries => entries
  | _ => []

/-- The value that is read, if `normalized_json` is an object wherever it is asked. -/
def shownField (entity : RawEntity) (attrs : Entries) (key : String) : Json :=
  if (getOrEmpty attrs key).truthy then getOrEmpty attrs key
  else getOrEmpty (entriesOf (loaded entity.normalizedJson)) key

def Sourced (entity : RawEntity) (attrs : Entries) (key : String) : Prop :=
  (getOrEmpty attrs key).truthy ∨ ∃ norm, loaded entity.normalizedJson = .object norm

theorem ownOrNormalized_ok {entity : RawEntity} {attrs : Entries} {key : String} {value : Json} :
    ownOrNormalized entity attrs key = .ok value ↔
      Sourced entity attrs key ∧ shownField entity attrs key = value := by
  unfold ownOrNormalized Sourced shownField
  by_cases own : (getOrEmpty attrs key).truthy
  · simp only [own, if_true, true_or, true_and, Except.ok.injEq]
  · simp only [own, Bool.false_eq_true, if_false, false_or]
    cases loaded entity.normalizedJson with
    | object norm => simp [entriesOf]
    | _ => simp

def longAbstract : Json → Bool
  | .text value => minAbstractLength ≤ (strip isPythonSpace value.toList).length
  | _ => false

/-- The columns hold what the classifier takes them for: `normalized_json` is an object where
the attributes lack the abstract or the journal, and what is read is texts. -/
structure FieldsReadable (entity : RawEntity) (attrs : Entries) : Prop where
  sourced : Sourced entity attrs "abstract" ∧ Sourced entity attrs "journal"
  abstract : isText (shownField entity attrs "abstract") = true
  others : longAbstract (shownField entity attrs "abstract") = true →
    isText (getOrEmpty attrs "document_type") = true ∧ isText (shownField entity attrs "journal") = true

def readFields (entity : RawEntity) (attrs : Entries) : Fields where
  abstract := shownField entity attrs "abstract"
  concepts := entity.enrichmentConcepts.getD ""
  documentType := getOrEmpty attrs "document_type"
  journal := shownField entity attrs "journal"

variable {entity : RawEntity} {attrs : Entries}

theorem extractFields_ok (object : loaded entity.attributesJson = .object attrs) {fields : Fields} :
    extractFields entity = .ok fields ↔
      (Sourced entity attrs "abstract" ∧ Sourced entity attrs "journal") ∧
        readFields entity attrs = fields := by
  simp only [extractFields, object, bind_eq_ok, ownOrNormalized_ok]
  constructor
  · rintro ⟨_, ⟨abstract, rfl⟩, _, ⟨journal, rfl⟩, same⟩
    exact ⟨⟨abstract, journal⟩, Except.ok.inj same⟩
  · rintro ⟨⟨abstract, journal⟩, rfl⟩
    exact ⟨_, ⟨abstract, rfl⟩, _, ⟨journal, rfl⟩, rfl⟩

theorem longAbstract_text {value : String} : longAbstract (.text value) = true ↔
    ¬ (strip isPythonSpace value.toList).length < minAbstractLength := by
  rw [longAbstract, decide_eq_true_iff, not_lt]

theorem classifyEntity_ok_iff (object : loaded entity.attributesJson = .object attrs) :
    (∃ found, classifyEntity scoring now entity = .ok found) ↔ FieldsReadable entity attrs := by
  simp only [classifyEntity, bind_eq_ok, extractFields_ok object, asText_ok]
  constructor
  · rintro ⟨found, _, ⟨sourced, rfl⟩, abstract, written, classified⟩
    refine ⟨sourced, isText_iff.mpr ⟨abstract, written⟩, fun long => ?_⟩
    have shown : shownField entity attrs "abstract" = .text abstract := written
    rw [shown, longAbstract_text] at long
    rw [if_neg long] at classified
    simp only [bind_eq_ok, asText_ok] at classified
    obtain ⟨documentType, typed, journal, titled, _⟩ := classified
    exact ⟨isText_iff.mpr ⟨documentType, typed⟩, isText_iff.mpr ⟨journal, titled⟩⟩
  · rintro ⟨sourced, abstractText, others⟩
    obtain ⟨abstract, written⟩ := isText_iff.mp abstractText
    by_cases short : (strip isPythonSpace abstract.toList).length < minAbstractLength
    · exact ⟨none, _, ⟨sourced, rfl⟩, abstract, written, if_pos short⟩
    · have texts := others (written ▸ longAbstract_text.mpr short)
      obtain ⟨documentType, typed⟩ := isText_iff.mp texts.1
      obtain ⟨journal, titled⟩ := isText_iff.mp texts.2
      refine ⟨profileOf scoring now (scoring.normalized abstract (readFields entity attrs).concepts
        documentType journal), readFields entity attrs, ⟨sourced, rfl⟩, abstract, written, ?_⟩
      rw [if_neg short]
      exact bind_eq_ok.mpr ⟨documentType, asText_ok.mpr typed,
        bind_eq_ok.mpr ⟨journal, asText_ok.mpr titled, rfl⟩⟩

/-- No reader raises: the attributes already carry a profile, or the fields can be read. -/
def Readable (entity : RawEntity) : Prop :=
  match loaded entity.attributesJson with
  | .object attrs => (get? attrs profileKey).isSome ∨ FieldsReadable entity attrs
  | .array items => ∃ item ∈ items, isProfileKey item
  | .text value => profileKey.toList <:+: value.toList
  | _ => False

theorem examine_ok {run after : Run} : examine scoring now run entity = .ok after ↔
    (hasProfile (loaded entity.attributesJson) = .ok true ∧ run.skip entity = after) ∨
      (hasProfile (loaded entity.attributesJson) = .ok false ∧
        ∃ found, classifyEntity scoring now entity = .ok found ∧ run.record entity found = after) := by
  rw [examine, bind_eq_ok]
  constructor
  · rintro ⟨known, asked, turn⟩
    cases known with
    | true => exact .inl ⟨asked, Except.ok.inj turn⟩
    | false =>
      obtain ⟨found, classified, turn⟩ := bind_eq_ok.mp turn
      exact .inr ⟨asked, found, classified, Except.ok.inj turn⟩
  · rintro (⟨asked, rfl⟩ | ⟨asked, found, classified, rfl⟩)
    · exact ⟨true, asked, rfl⟩
    · exact ⟨false, asked, bind_eq_ok.mpr ⟨found, classified, rfl⟩⟩

/-- `attrs.get` of the classifier needs an object. -/
theorem object_of_classified {found : Option Json}
    (classified : classifyEntity scoring now entity = .ok found) :
    ∃ attrs, loaded entity.attributesJson = .object attrs := by
  obtain ⟨fields, extracted, _⟩ := bind_eq_ok.mp classified
  unfold extractFields at extracted
  split at extracted
  · exact ⟨_, ‹_›⟩
  · cases extracted

theorem examine_ok_iff {run : Run} :
    (∃ after, examine scoring now run entity = .ok after) ↔ Readable entity := by
  have turns : (∃ after, examine scoring now run entity = .ok after) ↔
      hasProfile (loaded entity.attributesJson) = .ok true ∨
        hasProfile (loaded entity.attributesJson) = .ok false ∧
          ∃ found, classifyEntity scoring now entity = .ok found := by
    simp only [examine_ok]
    constructor
    · rintro ⟨after, ⟨asked, _⟩ | ⟨asked, found, classified, _⟩⟩
      · exact .inl asked
      · exact .inr ⟨asked, found, classified⟩
    · rintro (asked | ⟨asked, found, classified⟩)
      · exact ⟨_, .inl ⟨asked, rfl⟩⟩
      · exact ⟨_, .inr ⟨asked, found, classified, rfl⟩⟩
  have refused (other : ∀ attrs, loaded entity.attributesJson ≠ .object attrs) :
      ¬ ∃ found, classifyEntity scoring now entity = .ok found := fun ⟨_, classified⟩ =>
    have ⟨attrs, object⟩ := object_of_classified classified
    other attrs object
  rw [turns, Readable]
  cases value : loaded entity.attributesJson with
  | object attrs =>
    rw [hasProfile, classifyEntity_ok_iff value]
    cases known : (get? attrs profileKey).isSome with
    | true => exact iff_of_true (.inl rfl) (.inl known)
    | false => simp [known]
  | array items => simp [hasProfile, refused (by simp [value])]
  | text written => simp [hasProfile, refused (by simp [value])]
  | _ => simp [hasProfile]

end Reading

def Stats.total (stats : Stats) : Nat := stats.classified + stats.skipped + stats.unclassified

def Profiled (rows : List RawEntity) (id : Nat) : Prop :=
  ∃ row ∈ rows, row.id = id ∧
    ∃ attrs, loaded row.attributesJson = .object attrs ∧ (get? attrs profileKey).isSome

theorem loaded_assign (attrs : Entries) (profile : Json) :
    loaded (.parsed (.object (assign attrs profileKey profile))) =
        .object (assign attrs profileKey profile) ∧
      (get? (assign attrs profileKey profile) profileKey).isSome := by
  have stored := get?_assign_self attrs profileKey profile
  refine ⟨if_pos ?_, Option.isSome_iff_exists.mpr ⟨profile, stored⟩⟩
  cases entries : assign attrs profileKey profile with
  | nil => rw [entries] at stored; cases stored
  | cons entry rest => rfl

section Turns

variable {run after final : Run} {entity : RawEntity} {entities : List RawEntity}

theorem isEnriched_setProfile (entity : RawEntity) (profile : Json) (row : RawEntity) :
    isEnriched domainId (setProfile entity profile row) = isEnriched domainId row := by
  unfold setProfile
  split
  · split <;> rfl
  · rfl

theorem id_setProfile (entity : RawEntity) (profile : Json) (row : RawEntity) :
    (setProfile entity profile row).id = row.id := by
  unfold setProfile
  split
  · split <;> rfl
  · rfl

theorem enrichedIds_map_setProfile (entity : RawEntity) (profile : Json) (rows : List RawEntity) :
    enrichedIds domainId (rows.map (setProfile entity profile)) = enrichedIds domainId rows := by
  rw [enrichedIds, List.filter_map, List.map_map]
  have same : isEnriched domainId ∘ setProfile entity profile = isEnriched domainId :=
    funext (isEnriched_setProfile entity profile)
  rw [same]
  exact List.map_congr_left fun row _ => id_setProfile entity profile row

theorem enrichedIds_foldlM (domainId : String)
    (finished : entities.foldlM (examine scoring now) run = .ok final) :
    enrichedIds domainId final.rows = enrichedIds domainId run.rows := by
  have kept : ∀ state, enrichedIds domainId state.rows = enrichedIds domainId run.rows →
      ∀ entity ∈ entities, ∀ after, examine scoring now state entity = .ok after →
        enrichedIds domainId after.rows = enrichedIds domainId run.rows := by
    intro state same entity _ after turn
    rcases examine_ok.mp turn with ⟨_, rfl⟩ | ⟨_, found, _, rfl⟩
    · exact same
    · cases found with
      | none => exact same
      | some profile => exact (enrichedIds_map_setProfile entity profile state.rows).trans same
  have same := foldlM_kept kept rfl finished
  exact same

theorem counts_foldlM (finished : entities.foldlM (examine scoring now) run = .ok final) :
    final.examined = run.examined ++ entities.map RawEntity.id ∧
      final.stats.total = run.stats.total + entities.length := by
  induction entities generalizing run with
  | nil =>
    obtain rfl := Except.ok.inj finished
    exact ⟨(List.append_nil _).symm, rfl⟩
  | cons entity rest ih =>
    obtain ⟨next, turn, finished⟩ := foldlM_cons_ok.mp finished
    have one : next.examined = run.examined ++ [entity.id] ∧
        next.stats.total = run.stats.total + 1 := by
      rcases examine_ok.mp turn with ⟨_, rfl⟩ | ⟨_, found, _, rfl⟩
      · exact ⟨rfl, by simp only [Run.skip, Stats.total]; omega⟩
      · cases found <;> exact ⟨rfl, by simp only [Run.record, Stats.total]; omega⟩
    obtain ⟨listed, counted⟩ := ih finished
    rw [listed, counted, one.1, one.2, List.map_cons, List.append_assoc, List.length_cons]
    exact ⟨rfl, by omega⟩

theorem profiled_setProfile {rows : List RawEntity} {id : Nat} (entity : RawEntity) (profile : Json)
    (has : Profiled rows id) : Profiled (rows.map (setProfile entity profile)) id := by
  obtain ⟨row, member, rfl, attrs, object, shown⟩ := has
  refine ⟨_, List.mem_map_of_mem member, id_setProfile entity profile row, ?_⟩
  unfold setProfile
  split
  · split
    · next attrs _ => exact ⟨_, loaded_assign attrs profile⟩
    · exact ⟨attrs, object, shown⟩
  · exact ⟨attrs, object, shown⟩

theorem profiled_examine {id : Nat} (turn : examine scoring now run entity = .ok after)
    (has : Profiled run.rows id) : Profiled after.rows id := by
  rcases examine_ok.mp turn with ⟨_, rfl⟩ | ⟨_, found, _, rfl⟩
  · exact has
  · cases found with
    | none => exact has
    | some profile => exact profiled_setProfile entity profile has

/-- An examined row that can be classified has a profile from then on. -/
theorem profiled_foldlM (listed : entity ∈ entities) (stored : entity.id ∈ run.rows.map RawEntity.id)
    (before : ∀ attrs, loaded entity.attributesJson = .object attrs → (get? attrs profileKey).isSome →
      Profiled run.rows entity.id)
    {profile : Json} (classified : classifyEntity scoring now entity = .ok (some profile))
    (finished : entities.foldlM (examine scoring now) run = .ok final) :
    Profiled final.rows entity.id := by
  induction entities generalizing run with
  | nil => cases listed
  | cons next rest ih =>
    obtain ⟨after, turn, others⟩ := foldlM_cons_ok.mp finished
    rcases List.mem_cons.mp listed with rfl | later
    · have kept : ∀ state, Profiled state.rows entity.id → ∀ other ∈ rest, ∀ after,
          examine scoring now state other = .ok after → Profiled after.rows entity.id :=
        fun state has other _ after turn => profiled_examine turn has
      suffices here : Profiled after.rows entity.id by
        have later := foldlM_kept kept here others
        exact later
      obtain ⟨attrs, object⟩ := object_of_classified classified
      rcases examine_ok.mp turn with ⟨known, rfl⟩ | ⟨_, found, same, rfl⟩
      · rw [object, hasProfile, Except.ok.injEq] at known
        exact before attrs object known
      · obtain rfl := Except.ok.inj (classified.symm.trans same)
        obtain ⟨row, member, same⟩ := List.mem_map.mp stored
        refine ⟨_, List.mem_map_of_mem member, ?_⟩
        rw [setProfile, if_pos same, object]
        exact ⟨same, _, loaded_assign attrs profile⟩
    · have stays : after.rows.map RawEntity.id = run.rows.map RawEntity.id := by
        rcases examine_ok.mp turn with ⟨_, rfl⟩ | ⟨_, found, _, rfl⟩
        · rfl
        · cases found with
          | none => rfl
          | some profile =>
            simp only [Run.record, List.map_map]
            exact List.map_congr_left fun row _ => id_setProfile next profile row
      exact ih later (stays.symm ▸ stored)
        (fun attrs object known => profiled_examine turn (before attrs object known)) others

end Turns

section Pages

variable {rows : List RawEntity}

theorem length_page_pos {order : SetOrder RawEntity} {offset : Nat}
    (filled : page order domainId chunkSize offset rows ≠ []) :
    0 < chunkSize ∧ offset < (enrichedIds domainId rows).length := by
  have long := List.length_pos_iff.mpr filled
  rw [page, List.length_take, List.length_drop, (order.perm _).length_eq] at long
  rw [enrichedIds, List.length_map]
  omega

structure Aborted where
  raised : PythonError
  /-- the rows as the last completed page left them -/
  committed : List RawEntity

variable (scoring now domainId chunkSize) in
/-- `classify_batch` for a domain with paradigms; a page query takes an order of its own. -/
def batchLoop (orders : Nat → SetOrder RawEntity) (query offset : Nat) (run : Run) :
    Except Aborted Run :=
  let entities := page (orders query) domainId chunkSize offset run.rows
  if filled : entities ≠ [] then
    match turn : entities.foldlM (examine scoring now) run with
    | .ok next => batchLoop orders (query + 1) (offset + chunkSize) next
    | .error raised => .error ⟨raised, run.rows⟩
  else .ok run
  termination_by (enrichedIds domainId run.rows).length - offset
  decreasing_by
    have bounds := length_page_pos filled
    rw [enrichedIds_foldlM domainId turn]
    omega

variable (scoring now domainId chunkSize) in
def classifyBatch (orders : Nat → SetOrder RawEntity) (rows : List RawEntity) : Except Aborted Run :=
  batchLoop scoring now domainId chunkSize orders 0 0 ⟨rows, ⟨0, 0, 0⟩, []⟩

variable (scoring now domainId chunkSize) in
/-- The batch ends without an error, has taken up every enriched row once, and counts them. -/
def VisitsAll (orders : Nat → SetOrder RawEntity) (rows : List RawEntity) : Prop :=
  ∃ run, classifyBatch scoring now domainId chunkSize orders rows = .ok run ∧
    run.examined.Perm (enrichedIds domainId rows) ∧
    (∀ entity ∈ rows, isEnriched domainId entity →
      ∀ profile, classifyEntity scoring now entity = .ok (some profile) → Profiled run.rows entity.id) ∧
    run.stats.total = (enrichedIds domainId rows).length

variable {orders : Nat → SetOrder RawEntity} {query offset : Nat} {run final : Run}

theorem batchLoop_beyond (beyond : (enrichedIds domainId run.rows).length ≤ offset) :
    batchLoop scoring now domainId chunkSize orders query offset run = .ok run := by
  rw [batchLoop, dif_neg]
  intro more
  have bounds := length_page_pos more
  omega

/-- What a completed call of the loop has done: nothing, or one page and the rest. -/
theorem batchLoop_ok
    (ended : batchLoop scoring now domainId chunkSize orders query offset run = .ok final) :
    run = final ∨ ∃ next, 0 < chunkSize ∧ offset < (enrichedIds domainId run.rows).length ∧
      (page (orders query) domainId chunkSize offset run.rows).foldlM (examine scoring now) run =
        .ok next ∧
      batchLoop scoring now domainId chunkSize orders (query + 1) (offset + chunkSize) next =
        .ok final := by
  rw [batchLoop] at ended
  split at ended
  · next filled =>
      obtain ⟨positive, more⟩ := length_page_pos filled
      split at ended
      · next after turn => exact .inr ⟨after, positive, more, turn, ended⟩
      · cases ended
  · exact .inl (Except.ok.inj ended)

variable (scoring now) in
/-- All enriched rows are on the first page. -/
theorem classifyBatch_of_one_page (orders : Nat → SetOrder RawEntity)
    (fits : (enrichedIds domainId rows).length ≤ chunkSize) :
    ∃ first : List RawEntity, first.Perm (rows.filter (isEnriched domainId)) ∧
      ∀ run, classifyBatch scoring now domainId chunkSize orders rows = .ok run ↔
        first.foldlM (examine scoring now) ⟨rows, ⟨0, 0, 0⟩, []⟩ = .ok run := by
  have listing : (page (orders 0) domainId chunkSize 0 rows).Perm
      (rows.filter (isEnriched domainId)) := by
    have shown := (orders 0).perm (rows.filter (isEnriched domainId))
    rw [enrichedIds, List.length_map, ← shown.length_eq] at fits
    rw [page, List.drop_zero, List.take_of_length_le fits]
    exact shown
  refine ⟨_, listing, fun run => ?_⟩
  rw [classifyBatch, batchLoop]
  split
  · split
    · next next turn =>
        have beyond : (enrichedIds domainId next.rows).length ≤ 0 + chunkSize := by
          rw [enrichedIds_foldlM domainId turn]
          exact fits.trans (Nat.le_add_left _ _)
        rw [turn, batchLoop_beyond beyond, Except.ok.injEq, Except.ok.injEq]
    · next raised turn => simp [turn]
  · next empty =>
      rw [not_not.mp empty, List.foldlM_nil, Except.ok.injEq]
      exact (Except.ok.injEq _ _).symm.to_iff

theorem visitsAll_iff_of_one_page (orders : Nat → SetOrder RawEntity)
    (fits : (enrichedIds domainId rows).length ≤ chunkSize) :
    VisitsAll scoring now domainId chunkSize orders rows ↔
      ∀ row ∈ rows, isEnriched domainId row → Readable row := by
  obtain ⟨first, listing, ran⟩ := classifyBatch_of_one_page scoring now orders fits
  have decides : ∀ run entity, True →
      ((∃ after, examine scoring now run entity = .ok after) ↔ Readable entity) :=
    fun run entity _ => examine_ok_iff
  have through : (∃ run, first.foldlM (examine scoring now) ⟨rows, ⟨0, 0, 0⟩, []⟩ = .ok run) ↔
      ∀ row ∈ first, Readable row :=
    foldlM_ok_iff decides (fun _ _ _ _ _ _ ready => ready)
      (List.pairwise_of_forall fun _ _ => trivial) fun _ _ => trivial
  simp only [VisitsAll, ran]
  constructor
  · rintro ⟨run, finished, _⟩ row stored enriched
    exact through.mp ⟨run, finished⟩ row
      (listing.mem_iff.mpr (List.mem_filter.mpr ⟨stored, enriched⟩))
  · intro readable
    obtain ⟨run, finished⟩ := through.mpr fun row listed =>
      have ⟨stored, enriched⟩ := List.mem_filter.mp (listing.mem_iff.mp listed)
      readable row stored enriched
    obtain ⟨examined, counted⟩ := counts_foldlM finished
    refine ⟨run, finished, ?_, fun entity stored enriched profile classified => ?_, ?_⟩
    · rw [examined, List.nil_append]
      exact listing.map RawEntity.id
    · exact profiled_foldlM (listing.mem_iff.mpr (List.mem_filter.mpr ⟨stored, enriched⟩))
        (List.mem_map_of_mem stored)
        (fun attrs object known => ⟨entity, stored, rfl, attrs, object, known⟩) classified finished
    · rw [counted, listing.length_eq, enrichedIds, List.length_map]
      exact Nat.zero_add _

/-- The order of insertion on the first query, and its reverse once rows have moved. -/
def reversing : Nat → SetOrder RawEntity
  | 0 => ⟨id, fun _ => .refl _⟩
  | _ + 1 => ⟨List.reverse, List.reverse_perm⟩

theorem mem_examined_reversing {id : Nat} (member : id ∈ final.examined)
    (ended : batchLoop scoring now domainId chunkSize reversing (query + 1) offset run = .ok final) :
    id ∈ run.examined ∨ id ∈ (enrichedIds domainId run.rows).reverse.drop offset := by
  obtain ⟨size, bound⟩ : ∃ size, (enrichedIds domainId run.rows).length - offset ≤ size := ⟨_, le_rfl⟩
  induction size generalizing query offset run with
  | zero =>
    rw [batchLoop_beyond (by omega)] at ended
    obtain rfl := Except.ok.inj ended
    exact .inl member
  | succ size ih =>
    rcases batchLoop_ok ended with rfl | ⟨next, positive, more, turn, later⟩
    · exact .inl member
    · have same := enrichedIds_foldlM domainId turn
      rcases ih later (by rw [same]; omega) with listed | after
      · rw [(counts_foldlM turn).1] at listed
        refine (List.mem_append.mp listed).imp_right fun onPage => ?_
        have shown := List.mem_of_mem_take (by rwa [page, List.map_take] at onPage)
        rwa [List.map_drop, reversing, List.map_reverse] at shown
      · rw [same, ← List.drop_drop] at after
        exact .inr (List.mem_of_mem_drop after)

/-- The row that comes last on the first query is on no page. -/
theorem not_visitsAll_reversing (keys : (rows.map RawEntity.id).Nodup)
    (more : chunkSize < (enrichedIds domainId rows).length) :
    ¬ VisitsAll scoring now domainId chunkSize reversing rows := by
  rintro ⟨final, ended, once, _⟩
  have unique : (enrichedIds domainId rows).Nodup := keys.sublist (List.filter_sublist.map _)
  obtain ⟨front, last, ends⟩ : ∃ front last, enrichedIds domainId rows = front ++ [last] :=
    ⟨_, _, (List.dropLast_append_getLast (List.ne_nil_of_length_pos (Nat.zero_lt_of_lt more))).symm⟩
  have alone : last ∉ front := by
    rw [ends] at unique
    exact fun twice => (List.nodup_append.mp unique).2.2 last twice last List.mem_cons_self rfl
  have listed := once.mem_iff.mpr (ends ▸ List.mem_append_right front List.mem_cons_self)
  rcases batchLoop_ok ended with rfl | ⟨next, positive, _, turn, later⟩
  · cases listed
  · obtain ⟨offset, rfl⟩ := Nat.exists_eq_succ_of_ne_zero positive.ne'
    rcases mem_examined_reversing listed later with early | late
    · rw [(counts_foldlM turn).1, List.nil_append, page, List.map_take, List.drop_zero] at early
      have onFirst : last ∈ (enrichedIds domainId rows).take (offset + 1) := early
      rw [ends, List.length_append] at more
      rw [ends, List.take_append_of_le_length (Nat.lt_succ_iff.mp more)] at onFirst
      exact alone (List.mem_of_mem_take onFirst)
    · rw [enrichedIds_foldlM domainId turn, Nat.zero_add, ends, List.reverse_append] at late
      exact alone (List.mem_reverse.mp (List.mem_of_mem_drop late))

end Pages

/-- `entities`, with its primary key. -/
structure EntityTable where
  rows : List RawEntity
  keys : (rows.map RawEntity.id).Nodup

theorem visitsAll_iff (scoring : Scoring) (now : String) (domainId : String) (chunkSize : Nat)
    (table : EntityTable) :
    (∀ orders, VisitsAll scoring now domainId chunkSize orders table.rows) ↔
      (enrichedIds domainId table.rows).length ≤ chunkSize ∧
        ∀ row ∈ table.rows, isEnriched domainId row → Readable row := by
  constructor
  · intro all
    have fits : (enrichedIds domainId table.rows).length ≤ chunkSize :=
      not_lt.mp fun more => not_visitsAll_reversing table.keys more (all reversing)
    exact ⟨fits, (visitsAll_iff_of_one_page reversing fits).mp (all reversing)⟩
  · rintro ⟨fits, readable⟩ orders
    exact (visitsAll_iff_of_one_page orders fits).mpr readable

def enrichedEntity (id : Nat) : RawEntity where
  id := id
  domain := some "science"
  enrichmentStatus := some "completed"
  enrichmentConcepts := none
  attributesJson := .null
  normalizedJson := .null

def noScores : Scoring where
  normalized := fun _ _ _ _ => []
  shown := fun score => .decimal (toString score) (score == 0)

/-- One row more than the default page. -/
theorem last_row_missed : ¬ VisitsAll noScores "2026-01-01" "science" batchChunk reversing
    ((List.range 501).map enrichedEntity) := by
  refine not_visitsAll_reversing ?_ ?_
  · rw [List.map_map]
    exact (List.map_id (List.range 501)).symm ▸ List.nodup_range
  · rw [enrichedIds, List.length_map, List.filter_eq_self.mpr, List.length_map, List.length_range]
    · decide
    · intro row member
      obtain ⟨id, _, rfl⟩ := List.mem_map.mp member
      rfl

end Ukip.Analytics.EpistemicPages
