import Ukip.Foundation.Toggling
import Ukip.Foundation.Words
import Ukip.Harmonization.Steps

/-!
# Undo and redo

Cleaning a clean value changes nothing, so every log of a field records the value it had at
first and the clean one.  Undo and redo in any order move the field between these two, as long
as the request reaches every entity that the log records.  Commits go through: no cleaned
canonical id meets another one in the unique index.
-/

namespace Ukip.Harmonization.UndoRedo

open Foundation.EventRun Foundation.Toggling
open Analytics.Corpus (strip isPythonSpace)
open Tenancy.Access
open Governance.FieldCorrespondence (unprocessable)
open Governance.Rollback (mayHarmonize)
open Steps

theorem strip_rdropWhile (text : Text) :
    strip isPythonSpace text = (text.dropWhile isPythonSpace).rdropWhile isPythonSpace := rfl

theorem stripped_within (text : Text) : strip isPythonSpace text <:+: text := by
  rw [strip_rdropWhile]
  exact (List.rdropWhile_prefix isPythonSpace _).isInfix.trans
    (List.dropWhile_suffix isPythonSpace).isInfix

theorem strip_strip (text : Text) :
    strip isPythonSpace (strip isPythonSpace text) = strip isPythonSpace text :=
  Foundation.Words.trim_trim text

/-- Every space is a blank, and no two of them are adjacent. -/
def Spaced (text : Text) : Prop :=
  (∀ char ∈ text, isPythonSpace char = true → char = ' ') ∧
    text.IsChain fun first second => ¬ (isPythonSpace first = true ∧ isPythonSpace second = true)

theorem Spaced.part {text part : Text} (spaced : Spaced text) (within : part <:+: text) :
    Spaced part :=
  ⟨fun char member => spaced.1 char (within.subset member), List.IsChain.infix spaced.2 within⟩

theorem collapseSpaces_spaced (inRun : Bool) (text : Text) :
    Spaced (collapseSpaces inRun text) ∧ (inRun = true →
      ∀ head ∈ (collapseSpaces inRun text).head?, isPythonSpace head = false) := by
  induction text generalizing inRun with
  | nil => exact ⟨⟨nofun, List.isChain_nil⟩, nofun⟩
  | cons char rest ih =>
    unfold collapseSpaces
    split
    · rename_i space
      obtain ⟨⟨blanks, chain⟩, fresh⟩ := ih true
      split
      · exact ⟨⟨blanks, chain⟩, fun _ => fresh rfl⟩
      · rename_i outside
        refine ⟨⟨List.forall_mem_cons.mpr ⟨fun _ => rfl, blanks⟩, ?_⟩,
          fun inside => absurd inside outside⟩
        refine List.isChain_cons.mpr ⟨fun next member both => ?_, chain⟩
        exact absurd both.2 (Bool.eq_false_iff.mp (fresh rfl next member))
    · rename_i word
      obtain ⟨⟨blanks, chain⟩, _⟩ := ih false
      refine ⟨⟨List.forall_mem_cons.mpr ⟨fun space => absurd space word, blanks⟩, ?_⟩, ?_⟩
      · exact List.isChain_cons.mpr ⟨fun next _ both => word both.1, chain⟩
      · intro _ head member
        obtain rfl := Option.some.inj member
        exact Bool.eq_false_iff.mpr word

theorem collapseSpaces_idle {inRun : Bool} {text : Text} (spaced : Spaced text)
    (fresh : inRun = true → ∀ head ∈ text.head?, isPythonSpace head = false) :
    collapseSpaces inRun text = text := by
  induction text generalizing inRun with
  | nil => rfl
  | cons char rest ih =>
    obtain ⟨blanks, chain⟩ := spaced
    obtain ⟨head, restChain⟩ := List.isChain_cons.mp chain
    have restSpaced : Spaced rest :=
      ⟨fun other member => blanks other (List.mem_cons_of_mem char member), restChain⟩
    unfold collapseSpaces
    by_cases space : isPythonSpace char = true
    · have outside : inRun ≠ true := fun inside =>
        Bool.eq_false_iff.mp (fresh inside char rfl) space
      have next : ∀ head ∈ rest.head?, isPythonSpace head = false := fun next member =>
        Bool.eq_false_iff.mpr fun also => head next member ⟨space, also⟩
      rw [if_pos space, if_neg outside, ih restSpaced fun _ => next,
        blanks char List.mem_cons_self space]
    · rw [if_neg space, ih restSpaced fun wrong => absurd wrong Bool.false_ne_true]

variable (value : Option Text)

theorem cleanLabel_clean : cleanLabel (cleanLabel value) = cleanLabel value := by
  cases value with
  | none => rfl
  | some text =>
    have spaced : Spaced (strip isPythonSpace (collapseSpaces false text)) :=
      (collapseSpaces_spaced false text).1.part (stripped_within _)
    have idle := collapseSpaces_idle spaced fun wrong => absurd wrong Bool.false_ne_true
    simp only [cleanLabel, idle, strip_strip]

theorem cleanCanonicalId_clean :
    cleanCanonicalId (cleanCanonicalId value) = cleanCanonicalId value := by
  cases value with
  | none => rfl
  | some text =>
    by_cases blank : strip isPythonSpace text = []
    · simp [cleanCanonicalId, blank]
    · simp [cleanCanonicalId, blank, strip_strip]

/-- What is relied on of `str.lower`: a second time it changes nothing, and it leaves no white
space at the ends where there was none. -/
structure Lowers (lower : Text → Text) : Prop where
  again : ∀ text, lower (lower text) = lower text
  stripped : ∀ text, strip isPythonSpace text = text →
    strip isPythonSpace (lower text) = lower text

theorem cleanEntityType_clean {lower : Text → Text} (lowers : Lowers lower) (value : Option Text) :
    cleanEntityType lower (cleanEntityType lower value) = cleanEntityType lower value := by
  cases value with
  | none => rfl
  | some text =>
    simp only [cleanEntityType]
    rw [lowers.stripped _ (strip_strip text), lowers.again]

theorem cleanValidationStatus_clean :
    cleanValidationStatus (cleanValidationStatus value) = cleanValidationStatus value := by
  cases value with
  | none => rfl
  | some text =>
    cases text with
    | nil => rfl
    | cons head rest => rfl

def clean (lower : Text → Text) : Field → Option Text → Option Text
  | .primaryLabel => cleanLabel
  | .secondaryLabel => cleanLabel
  | .canonicalId => cleanCanonicalId
  | .entityType => cleanEntityType lower
  | .validationStatus => cleanValidationStatus

theorem clean_clean {lower : Text → Text} (lowers : Lowers lower) (field : Field)
    (value : Option Text) : clean lower field (clean lower field value) = clean lower field value := by
  cases field with
  | primaryLabel => exact cleanLabel_clean value
  | secondaryLabel => exact cleanLabel_clean value
  | canonicalId => exact cleanCanonicalId_clean value
  | entityType => exact cleanEntityType_clean lowers value
  | validationStatus => exact cleanValidationStatus_clean value

abbrev Cell := Nat × Field

def valueOf (entities : List RawEntity) (cell : Cell) : Option Text :=
  (entities.find? fun entity => entity.id == cell.1).bind fun entity => entity.get cell.2

def keys (entities : List RawEntity) : List (Nat × Option Int) :=
  entities.map fun entity => (entity.id, entity.orgId)

theorem keys_setField (entities : List RawEntity) (id : Nat) (field : Field) (value : Option Text) :
    keys (setField entities id field value) = keys entities := by
  have same : ∀ entity : RawEntity,
      ((if entity.id = id then entity.set field value else entity).id,
        (if entity.id = id then entity.set field value else entity).orgId) =
      (entity.id, entity.orgId) := by
    intro entity
    split <;> simp
  simp only [keys, setField, List.map_map, Function.comp_def, same]

theorem map_id_keys (entities : List RawEntity) :
    entities.map RawEntity.id = (keys entities).map Prod.fst := by
  simp [keys, Function.comp_def]

variable {entities : List RawEntity}

theorem mem_keys {id : Nat} {orgId : Option Int} :
    (id, orgId) ∈ keys entities ↔
      ∃ entity ∈ entities, entity.id = id ∧ entity.orgId = orgId := by
  simp [keys]

theorem valueOf_mem (distinct : (entities.map RawEntity.id).Nodup) {entity : RawEntity}
    (member : entity ∈ entities) (field : Field) :
    valueOf entities (entity.id, field) = entity.get field := by
  have present : (entities.find? fun other => other.id == entity.id).isSome = true :=
    List.find?_isSome.mpr ⟨entity, member, by simp⟩
  obtain ⟨first, found⟩ := Option.isSome_iff_exists.mp present
  have keyed : first.id = entity.id := by simpa using List.find?_some found
  have same : first = entity := List.inj_on_of_nodup_map distinct
    (List.mem_of_find?_eq_some found) member keyed
  unfold valueOf
  rw [found, same]
  rfl

theorem valueOf_setField {id : Nat} {orgId : Option Int} (known : (id, orgId) ∈ keys entities)
    (field : Field) (value : Option Text) :
    valueOf (setField entities id field value) =
      Function.update (valueOf entities) (id, field) value := by
  have sameTest : ∀ other : Nat, ((fun entity : RawEntity => entity.id == other) ∘
      fun entity => if entity.id = id then entity.set field value else entity) =
      fun entity => entity.id == other := by
    intro other
    funext entity
    simp only [Function.comp_apply]
    split <;> simp
  funext ⟨otherId, otherField⟩
  unfold valueOf setField
  rw [List.find?_map, sameTest]
  by_cases here : otherId = id
  · subst here
    obtain ⟨entity, member, own, _⟩ := mem_keys.mp known
    have present : (entities.find? fun other => other.id == otherId).isSome = true :=
      List.find?_isSome.mpr ⟨entity, member, by simpa using own⟩
    obtain ⟨first, found⟩ := Option.isSome_iff_exists.mp present
    have keyed : first.id = otherId := by simpa using List.find?_some found
    rw [found]
    by_cases same : otherField = field
    · subst same
      rw [Function.update_self]
      simp [keyed, RawEntity.get_set]
    · have apart : (otherId, otherField) ≠ (otherId, field) := fun equal =>
        same (Prod.mk.inj equal).2
      rw [Function.update_of_ne apart]
      simp [keyed, RawEntity.get_set, same, found]
  · have apart : (otherId, otherField) ≠ (id, field) := fun equal => here (Prod.mk.inj equal).1
    rw [Function.update_of_ne apart]
    cases found : entities.find? fun entity => entity.id == otherId with
    | none => rfl
    | some first =>
      have keyed : first.id = otherId := by simpa using List.find?_some found
      simp [keyed, here]

theorem entities_ext {first second : List RawEntity} (distinct : (first.map RawEntity.id).Nodup)
    (sameKeys : keys second = keys first) (sameCells : valueOf second = valueOf first) :
    second = first := by
  have distinctSecond : (second.map RawEntity.id).Nodup := by
    rw [map_id_keys, sameKeys, ← map_id_keys]
    exact distinct
  -- each entity is rebuilt from its key and the cells
  have rebuilt : ∀ entities : List RawEntity, (entities.map RawEntity.id).Nodup →
      entities = (keys entities).map fun key =>
        ⟨key.1, key.2, valueOf entities (key.1, .primaryLabel),
          valueOf entities (key.1, .secondaryLabel), valueOf entities (key.1, .canonicalId),
          valueOf entities (key.1, .entityType), valueOf entities (key.1, .validationStatus)⟩ := by
    intro entities unique
    unfold keys
    rw [List.map_map]
    refine (List.map_id entities).symm.trans (List.map_congr_left fun entity member => ?_)
    simp only [Function.comp_apply, valueOf_mem unique member, RawEntity.get, id_eq]
  rw [rebuilt second distinctSecond, rebuilt first distinct, sameKeys, sameCells]

def toChange (record : FieldChange) : Change Cell (Option Text) :=
  ⟨(record.recordId, record.field), record.oldValue, record.newValue⟩

/-- Every record is of a stored entity. -/
def Known (entities : List RawEntity) (records : List FieldChange) : Prop :=
  ∀ record ∈ records, ∃ orgId, (record.recordId, orgId) ∈ keys entities

theorem foldl_setField (value : FieldChange → Option Text)
    (written : Change Cell (Option Text) → Option Text)
    (same : ∀ record, written (toChange record) = value record) (records : List FieldChange)
    (known : Known entities records) :
    keys (records.foldl (fun entities record =>
        setField entities record.recordId record.field (value record)) entities) = keys entities ∧
      valueOf (records.foldl (fun entities record =>
        setField entities record.recordId record.field (value record)) entities) =
        writeBack written (valueOf entities) (records.map toChange) := by
  induction records generalizing entities with
  | nil => exact ⟨rfl, rfl⟩
  | cons record rest ih =>
    obtain ⟨⟨orgId, here⟩, later⟩ := List.forall_mem_cons.mp known
    have laterKnown : Known (setField entities record.recordId record.field (value record)) rest := by
      intro other member
      rw [keys_setField]
      exact later other member
    obtain ⟨sameKeys, cells⟩ := ih laterKnown
    refine ⟨sameKeys.trans (keys_setField _ _ _ _), cells.trans ?_⟩
    rw [valueOf_setField here, List.map_cons, ← same record]
    rfl

/-- The entity of each record is in the scope. -/
def Reached (scope : Option Int) (entities : List RawEntity) (records : List FieldChange) : Prop :=
  ∀ record ∈ records, (scopedEntity entities scope record.recordId).isSome = true

variable {scope : Option Int}

theorem scopedEntity_isSome {recordId : Nat} :
    (scopedEntity entities scope recordId).isSome = true ↔
      ∃ orgId, (recordId, orgId) ∈ keys entities ∧ inScope scope orgId = true := by
  unfold scopedEntity keys
  rw [List.find?_isSome]
  simp only [Bool.and_eq_true, beq_iff_eq, List.mem_map]
  constructor
  · rintro ⟨entity, member, reached, rfl⟩
    exact ⟨entity.orgId, ⟨entity, member, rfl⟩, reached⟩
  · rintro ⟨orgId, ⟨entity, member, same⟩, reached⟩
    obtain ⟨rfl, rfl⟩ := Prod.mk.inj same
    exact ⟨entity, member, reached, rfl⟩

variable {records : List FieldChange}

theorem Reached.known (reached : Reached scope entities records) :
    Known entities records := fun record member =>
  (scopedEntity_isSome.mp (reached record member)).imp fun _ here => here.1

def replayRecord (scope : Option Int) (value : FieldChange → Option Text)
    (state : List RawEntity × Nat) (record : FieldChange) : List RawEntity × Nat :=
  (scopedEntity state.1 scope record.recordId).elim state fun _ =>
    (setField state.1 record.recordId record.field (value record), state.2 + 1)

theorem replay_eq (scope : Option Int) (value : FieldChange → Option Text)
    (records : List FieldChange) (entities : List RawEntity) :
    replay scope value records entities =
      records.foldl (replayRecord scope value) (entities, 0) := by
  unfold replay
  refine congrArg (fun body => records.foldl body (entities, 0)) ?_
  funext state record
  unfold replayRecord
  dsimp only
  cases scopedEntity state.1 scope record.recordId <;> rfl

theorem replay_reached {value : FieldChange → Option Text}
    (reached : Reached scope entities records) :
    (replay scope value records entities).1 =
      records.foldl (fun entities record =>
        setField entities record.recordId record.field (value record)) entities := by
  have general : ∀ (records : List FieldChange) (entities : List RawEntity) (count : Nat),
      Reached scope entities records →
      (records.foldl (replayRecord scope value) (entities, count)).1 =
      records.foldl (fun entities record =>
        setField entities record.recordId record.field (value record)) entities := by
    intro records
    induction records with
    | nil => exact fun _ _ _ => rfl
    | cons record rest ih =>
      intro entities count reached
      obtain ⟨here, later⟩ := List.forall_mem_cons.mp reached
      obtain ⟨entity, found⟩ := Option.isSome_iff_exists.mp here
      rw [List.foldl_cons, List.foldl_cons]
      simp only [replayRecord, found, Option.elim_some]
      refine ih _ _ fun other member => ?_
      have before := scopedEntity_isSome.mp (later other member)
      rw [scopedEntity_isSome, keys_setField]
      exact before
  rw [replay_eq]
  exact general records entities 0 reached

def jobsOf (db : HarmonizationDb) : List (Job Cell (Option Text)) :=
  db.logs.map fun log => ⟨log.id, (recordsOf db log.id).map toChange, log.reverted⟩

def target (lower : Text → Text) (start : HarmonizationDb) (cell : Cell) : Option Text :=
  clean lower cell.2 (valueOf start.entities cell)

structure Sound (lower : Text → Text) (start db : HarmonizationDb) : Prop where
  sameKeys : keys db.entities = keys start.entities
  balanced : Balanced (valueOf start.entities) (target lower start) (valueOf db.entities) (jobsOf db)
  logIds : (db.logs.map HarmonizationLog.id).Nodup
  logsBounded : ∀ log ∈ db.logs, log.id ≤ db.lastLogId
  changesBounded : ∀ record ∈ db.changes, record.logId ≤ db.lastLogId

variable {lower : Text → Text} {start db : HarmonizationDb}

theorem Sound.distinct (sound : Sound lower start db)
    (distinct : (start.entities.map RawEntity.id).Nodup) : (db.entities.map RawEntity.id).Nodup := by
  rw [map_id_keys, sound.sameKeys, ← map_id_keys]
  exact distinct

theorem mem_fieldStep {fields : List Field} {cleaning : Option Text → Option Text}
    {record : FieldChange} (member : record ∈ fieldStep fields cleaning scope entities) :
    record.field ∈ fields ∧ record.newValue = cleaning record.oldValue ∧
      record.newValue ≠ record.oldValue ∧
      ∃ entity ∈ entities, entity.id = record.recordId ∧
        record.oldValue = entity.get record.field := by
  obtain ⟨entity, inScopeEntity, listed⟩ := List.mem_flatMap.mp member
  obtain ⟨field, fieldMember, changed⟩ := List.mem_filterMap.mp listed
  split at changed
  · rename_i differs
    obtain rfl := Option.some.inj changed
    exact ⟨fieldMember, rfl, differs, entity, (List.mem_filter.mp inScopeEntity).1, rfl, rfl⟩
  · cases changed

theorem step_cleans {step : HarmonizationStep} (member : step ∈ harmonizationSteps lower) :
    ∃ fields cleaning, step.function = fieldStep fields cleaning ∧
      ∀ field ∈ fields, cleaning = clean lower field := by
  simp only [harmonizationSteps, List.mem_cons, List.not_mem_nil, or_false] at member
  rcases member with rfl | rfl | rfl | rfl
  · exact ⟨_, _, rfl, by simp [clean]⟩
  · exact ⟨_, _, rfl, by simp [clean]⟩
  · exact ⟨_, _, rfl, by simp [clean]⟩
  · exact ⟨_, _, rfl, by simp [clean]⟩

theorem reached_fieldStep (fields : List Field) (cleaning : Option Text → Option Text) :
    Reached scope entities (fieldStep fields cleaning scope entities) := by
  intro record member
  obtain ⟨entity, listed, changed⟩ := List.mem_flatMap.mp member
  obtain ⟨stored, reached⟩ := List.mem_filter.mp listed
  obtain ⟨field, _, taken⟩ := List.mem_filterMap.mp changed
  split at taken
  · obtain rfl := Option.some.inj taken
    exact scopedEntity_isSome.mpr ⟨entity.orgId, mem_keys.mpr ⟨entity, stored, rfl, rfl⟩, reached⟩
  · cases taken

theorem Reached.of_keys {other : List RawEntity} (reached : Reached scope entities records)
    (same : keys other = keys entities) :
    Reached scope other records := by
  intro record member
  have here := scopedEntity_isSome.mp (reached record member)
  rw [scopedEntity_isSome, same]
  exact here

theorem step_recorded (distinct : (db.entities.map RawEntity.id).Nodup) {step : HarmonizationStep}
    (member : step ∈ harmonizationSteps lower) (scope : Option Int) :
    Reached scope db.entities (step.function scope db.entities) ∧
      ∀ change ∈ (step.function scope db.entities).map toChange,
        change.before = valueOf db.entities change.cell ∧ change.after = target lower db change.cell := by
  obtain ⟨fields, cleaning, function, cleans⟩ := step_cleans member
  rw [function]
  refine ⟨reached_fieldStep fields cleaning, fun change changed => ?_⟩
  obtain ⟨record, recorded, rfl⟩ := List.mem_map.mp changed
  obtain ⟨ofField, new, _, entity, stored, own, old⟩ := mem_fieldStep recorded
  have current : record.oldValue = valueOf db.entities (record.recordId, record.field) := by
    rw [old, ← own]
    exact (valueOf_mem distinct stored record.field).symm
  refine ⟨current, ?_⟩
  change record.newValue = _
  rw [new, cleans record.field ofField, current]
  rfl

theorem step_records (lowers : Lowers lower) (distinct : (start.entities.map RawEntity.id).Nodup)
    (sound : Sound lower start db) {step : HarmonizationStep}
    (member : step ∈ harmonizationSteps lower) (scope : Option Int) :
    Known db.entities (step.function scope db.entities) ∧
      ∀ change ∈ (step.function scope db.entities).map toChange,
        change.before = valueOf start.entities change.cell ∧
          change.after = target lower start change.cell := by
  obtain ⟨fields, cleaning, function, cleans⟩ := step_cleans member
  obtain ⟨reached, recorded⟩ := step_recorded (sound.distinct distinct) member scope
  refine ⟨reached.known, fun change changed => ?_⟩
  obtain ⟨before, after⟩ := recorded change changed
  obtain ⟨record, made, rfl⟩ := List.mem_map.mp changed
  have first : valueOf db.entities (toChange record).cell =
      valueOf start.entities (toChange record).cell := by
    rcases sound.balanced.standing (toChange record).cell with first | ⟨later, _⟩
    · exact first
    · -- a clean value is not changed
      rw [function] at made
      refine absurd ?_ (mem_fieldStep made).2.2.1
      refine after.trans (Eq.trans ?_ before.symm)
      rw [target, later]
      exact clean_clean lowers record.field _
  rw [target, first] at after
  exact ⟨before.trans first, after⟩

theorem recordsOf_logStep (step : HarmonizationStep) (scope : Option Int) (withSample : Bool)
    (logId : Nat) :
    recordsOf (logStep scope withSample db step).2 logId = recordsOf db logId ++
      if db.lastLogId + 1 = logId then step.function scope db.entities else [] := by
  simp only [recordsOf, logStep, List.filter_append, List.map_append, List.filter_map]
  by_cases here : db.lastLogId + 1 = logId
  · simp [here, Function.comp_def]
  · simp [here, Function.comp_def]

theorem recordsOf_unused (bounded : ∀ record ∈ db.changes, record.logId ≤ db.lastLogId) :
    recordsOf db (db.lastLogId + 1) = [] := by
  unfold recordsOf
  rw [List.map_eq_nil_iff, List.filter_eq_nil_iff]
  intro record stored
  have bound := bounded record stored
  simp only [decide_eq_true_eq]
  omega

theorem logStep_sound (lowers : Lowers lower) (distinct : (start.entities.map RawEntity.id).Nodup)
    (sound : Sound lower start db) {step : HarmonizationStep}
    (member : step ∈ harmonizationSteps lower) (scope : Option Int) (withSample : Bool) :
    Sound lower start (logStep scope withSample db step).2 := by
  obtain ⟨known, records⟩ := step_records lowers distinct sound member scope
  obtain ⟨sameKeys, cells⟩ := foldl_setField FieldChange.newValue Change.after (fun _ => rfl)
    (step.function scope db.entities) known
  have jobs : jobsOf (logStep scope withSample db step).2 =
      jobsOf db ++
        [⟨db.lastLogId + 1, (step.function scope db.entities).map toChange, false⟩] := by
    have logs : (logStep scope withSample db step).2.logs.map (fun log =>
        (⟨log.id, (recordsOf (logStep scope withSample db step).2 log.id).map toChange,
          log.reverted⟩ : Job Cell (Option Text))) =
        db.logs.map (fun log => ⟨log.id, (recordsOf db log.id).map toChange, log.reverted⟩) ++
          [⟨db.lastLogId + 1, (step.function scope db.entities).map toChange, false⟩] := by
      refine (List.map_append).trans (congrArg₂ (· ++ ·) ?_ ?_)
      · refine List.map_congr_left fun log stored => ?_
        have bound := sound.logsBounded log stored
        rw [recordsOf_logStep, if_neg (by omega), List.append_nil]
      · simp [recordsOf_logStep, recordsOf_unused sound.changesBounded]
    exact logs
  refine ⟨sameKeys.trans sound.sameKeys, ?_, ?_, ?_, ?_⟩
  · rw [jobs]
    have applied := sound.balanced.applied (db.lastLogId + 1) records
    rw [← cells] at applied
    exact applied
  · simp only [logStep, List.map_append]
    rw [List.nodup_append]
    refine ⟨sound.logIds, List.nodup_singleton _, fun old oldMember new newMember same => ?_⟩
    obtain ⟨log, stored, rfl⟩ := List.mem_map.mp oldMember
    obtain rfl := List.mem_singleton.mp newMember
    have bound := sound.logsBounded log stored
    dsimp only at same
    omega
  · intro log stored
    rcases List.mem_append.mp stored with old | new
    · exact Nat.le_succ_of_le (sound.logsBounded log old)
    · obtain rfl := List.mem_singleton.mp new
      exact Nat.le_refl _
  · intro record stored
    rcases List.mem_append.mp stored with old | new
    · exact Nat.le_succ_of_le (sound.changesBounded record old)
    · obtain ⟨_, _, rfl⟩ := List.mem_map.mp new
      exact Nat.le_refl _

theorem applyAll_sound (lowers : Lowers lower) (distinct : (start.entities.map RawEntity.id).Nodup)
    (sound : Sound lower start db) (scope : Option Int) :
    Sound lower start (applyAllHarmonizationSteps lower scope db).2 := by
  have general : ∀ steps : List HarmonizationStep, (∀ step ∈ steps, step ∈ harmonizationSteps lower) →
      ∀ (results : List StepResult) (db : HarmonizationDb), Sound lower start db →
      Sound lower start (steps.foldl (fun state step =>
        (state.1 ++ [(logStep scope false state.2 step).1], (logStep scope false state.2 step).2))
        (results, db)).2 := by
    intro steps
    induction steps with
    | nil => exact fun _ _ _ sound => sound
    | cons step rest ih =>
      intro members results db sound
      obtain ⟨here, later⟩ := List.forall_mem_cons.mp members
      exact ih later _ _ (logStep_sound lowers distinct sound here scope false)
  exact general (harmonizationSteps lower) (fun _ member => member) [] db sound

variable {log : HarmonizationLog} {logId : Nat}

theorem scopedLog_mem (found : scopedLog db scope logId = some log) :
    log ∈ db.logs ∧ log.id = logId := by
  have passes := List.find?_some found
  simp only [Bool.and_eq_true, beq_iff_eq] at passes
  exact ⟨List.mem_of_find?_eq_some found, passes.2⟩

theorem jobsOf_marked (db : HarmonizationDb) (entities : List RawEntity) (logId : Nat)
    (reverted : Bool) :
    jobsOf { db with entities := entities, logs := markReverted db.logs logId reverted } =
      setUndone (jobsOf db) logId reverted := by
  unfold jobsOf setUndone markReverted
  simp only [List.map_map]
  refine List.map_congr_left fun log _ => ?_
  simp only [Function.comp_apply]
  split <;> rfl

theorem sound_marked (sound : Sound lower start db) (value : FieldChange → Option Text)
    (written : Change Cell (Option Text) → Option Text)
    (same : ∀ record, written (toChange record) = value record)
    (reached : Reached scope db.entities (recordsOf db log.id)) (reverted : Bool)
    (balanced : Balanced (valueOf start.entities) (target lower start)
      (writeBack written (valueOf db.entities) ((recordsOf db log.id).map toChange))
      (setUndone (jobsOf db) log.id reverted)) :
    valueOf (replay scope value (recordsOf db log.id) db.entities).1 =
        writeBack written (valueOf db.entities) ((recordsOf db log.id).map toChange) ∧
      Sound lower start { db with
        entities := (replay scope value (recordsOf db log.id) db.entities).1
        logs := markReverted db.logs log.id reverted } := by
  obtain ⟨sameKeys, cells⟩ := foldl_setField value written same (recordsOf db log.id) reached.known
  rw [← replay_reached reached] at sameKeys cells
  have sameIds : ∀ other : HarmonizationLog,
      (if other.id = log.id then { other with reverted := reverted } else other).id = other.id := by
    intro other
    split <;> rfl
  refine ⟨cells, sameKeys.trans sound.sameKeys, ?_, ?_, ?_, sound.changesBounded⟩
  · rw [jobsOf_marked]
    dsimp only
    rw [cells]
    exact balanced
  · unfold markReverted
    simpa only [List.map_map, Function.comp_def, sameIds] using sound.logIds
  · intro marked member
    obtain ⟨other, stored, rfl⟩ := List.mem_map.mp member
    rw [sameIds]
    exact sound.logsBounded other stored

theorem job_unique (sound : Sound lower start db) (stored : log ∈ db.logs) :
    (⟨log.id, (recordsOf db log.id).map toChange, log.reverted⟩ : Job Cell (Option Text)) ∈
        jobsOf db ∧
      ∀ other ∈ jobsOf db, other.id = log.id →
        other = ⟨log.id, (recordsOf db log.id).map toChange, log.reverted⟩ := by
  refine ⟨List.mem_map.mpr ⟨log, stored, rfl⟩, fun other member same => ?_⟩
  obtain ⟨otherLog, otherStored, rfl⟩ := List.mem_map.mp member
  have equal : otherLog = log := List.inj_on_of_nodup_map sound.logIds otherStored stored same
  rw [equal]

theorem undo_sound (sound : Sound lower start db) (found : scopedLog db scope logId = some log)
    (reached : Reached scope db.entities (recordsOf db logId)) :
    Sound lower start { db with
      entities := (replay scope FieldChange.oldValue (recordsOf db logId) db.entities).1
      logs := markReverted db.logs logId true } := by
  obtain ⟨stored, rfl⟩ := scopedLog_mem found
  obtain ⟨member, unique⟩ := job_unique sound stored
  exact (sound_marked sound FieldChange.oldValue Change.before (fun _ => rfl) reached true
    (sound.balanced.undo member unique)).2

theorem redo_sound (sound : Sound lower start db) (found : scopedLog db scope logId = some log)
    (reached : Reached scope db.entities (recordsOf db logId)) :
    Sound lower start { db with
      entities := (replay scope FieldChange.newValue (recordsOf db logId) db.entities).1
      logs := markReverted db.logs logId false } ∧
    ∀ record ∈ recordsOf db logId,
      valueOf (replay scope FieldChange.newValue (recordsOf db logId) db.entities).1
        (record.recordId, record.field) = record.newValue := by
  obtain ⟨stored, rfl⟩ := scopedLog_mem found
  obtain ⟨member, _⟩ := job_unique sound stored
  obtain ⟨balanced, holds⟩ := sound.balanced.redo member
  obtain ⟨cells, after⟩ := sound_marked sound FieldChange.newValue Change.after (fun _ => rfl)
    reached false balanced
  refine ⟨after, fun record recorded => ?_⟩
  rw [cells]
  exact holds (toChange record) (List.mem_map_of_mem recorded)

/-- Once every log is reverted, the entities are what they were. -/
def Restored (start db : HarmonizationDb) : Prop :=
  (∀ log ∈ db.logs, log.reverted = true) → db.entities = start.entities

/-- After a redo the fields that the log records hold the values that it recorded. -/
def RedoHolds (lower : Text → Text) (db : HarmonizationDb) (request : Request) : Prop :=
  ∀ logId response next, request.operation = .redo logId →
    respond lower db request = .ok (response, next) →
    ∀ record ∈ recordsOf next logId, ∀ entity ∈ next.entities, entity.id = record.recordId →
      entity.get record.field = record.newValue

/-- An undo of a log that stands, and a redo of one that does not, reach every entity that the
log records. -/
def Covers (db : HarmonizationDb) (request : Request) : Prop :=
  match authorized request with
  | .error _ => True
  | .ok scope =>
    match request.operation with
    | .undo logId => ∀ log ∈ scopedLog db scope logId, log.reverted = false →
        Reached scope db.entities (recordsOf db logId)
    | .redo logId => ∀ log ∈ scopedLog db scope logId, log.reverted = true →
        Reached scope db.entities (recordsOf db logId)
    | _ => True

variable {next : HarmonizationDb} {result : ReplayResult}

theorem undo_cases (served : undoHarmonization scope db logId = .ok (result, next)) :
    ∃ log, scopedLog db scope logId = some log ∧ log.reverted = false ∧ next = { db with
      entities := (replay scope FieldChange.oldValue (recordsOf db logId) db.entities).1
      logs := markReverted db.logs logId true } := by
  unfold undoHarmonization at served
  split at served
  · cases served
  rename_i log found
  split at served
  · cases served
  rename_i stands
  split at served
  · cases served
  obtain ⟨_, rfl⟩ := Prod.mk.inj (Except.ok.inj served)
  exact ⟨log, found, Bool.eq_false_iff.mpr stands, rfl⟩

theorem redo_cases (served : redoHarmonization scope db logId = .ok (result, next)) :
    ∃ log, scopedLog db scope logId = some log ∧ log.reverted = true ∧ next = { db with
      entities := (replay scope FieldChange.newValue (recordsOf db logId) db.entities).1
      logs := markReverted db.logs logId false } := by
  unfold redoHarmonization at served
  split at served
  · cases served
  rename_i log found
  split at served
  · cases served
  rename_i reverted
  obtain ⟨_, rfl⟩ := Prod.mk.inj (Except.ok.inj served)
  exact ⟨log, found, by simpa using reverted, rfl⟩

theorem map_ok {Error Before After : Type} {change : Before → After} {outcome : Except Error Before}
    {after : After} (mapped : outcome.map change = .ok after) :
    ∃ before, outcome = .ok before ∧ change before = after := by
  cases outcome with
  | error refused => cases mapped
  | ok before => exact ⟨before, rfl, Except.ok.inj mapped⟩

theorem respond_cases {request : Request} {response : Response}
    (served : respond lower db request = .ok (response, next)) :
    ∃ scope, authorized request = .ok scope ∧
      ((∃ stepId results, request.operation = .apply stepId ∧
          applyHarmonizationStep lower scope db stepId = .ok (results, next)) ∨
        (request.operation = .applyAll ∧ next = (applyAllHarmonizationSteps lower scope db).2) ∨
        (∃ logId result, request.operation = .undo logId ∧
          undoHarmonization scope db logId = .ok (result, next)) ∨
        ∃ logId result, request.operation = .redo logId ∧
          redoHarmonization scope db logId = .ok (result, next)) := by
  unfold respond at served
  cases authority : authorized request with
  | error refused =>
    rw [authority] at served
    cases served
  | ok scope =>
    rw [authority] at served
    refine ⟨scope, rfl, ?_⟩
    dsimp only at served
    cases operation : request.operation with
    | apply stepId =>
      rw [operation] at served
      obtain ⟨⟨results, after⟩, applied, same⟩ := map_ok served
      obtain ⟨_, rfl⟩ := Prod.mk.inj same
      exact .inl ⟨stepId, results, rfl, applied⟩
    | applyAll =>
      rw [operation] at served
      obtain ⟨_, rfl⟩ := Prod.mk.inj (Except.ok.inj served)
      exact .inr (.inl ⟨rfl, rfl⟩)
    | undo logId =>
      rw [operation] at served
      dsimp only at served
      split at served
      · cases served
      obtain ⟨⟨result, after⟩, undone, same⟩ := map_ok served
      obtain ⟨_, rfl⟩ := Prod.mk.inj same
      exact .inr (.inr (.inl ⟨logId, result, rfl, undone⟩))
    | redo logId =>
      rw [operation] at served
      dsimp only at served
      split at served
      · cases served
      obtain ⟨⟨result, after⟩, redone, same⟩ := map_ok served
      obtain ⟨_, rfl⟩ := Prod.mk.inj same
      exact .inr (.inr (.inr ⟨logId, result, rfl, redone⟩))

theorem served_sound (lowers : Lowers lower) (distinct : (start.entities.map RawEntity.id).Nodup)
    (sound : Sound lower start db) {request : Request} (covers : Covers db request)
    {response : Response} (served : respond lower db request = .ok (response, next)) :
    Sound lower start next ∧ ∀ logId, request.operation = .redo logId →
      ∀ record ∈ recordsOf next logId,
        valueOf next.entities (record.recordId, record.field) = record.newValue := by
  obtain ⟨scope, authority, cases⟩ := respond_cases served
  unfold Covers at covers
  rw [authority] at covers
  rcases cases with ⟨stepId, results, operation, applied⟩ | ⟨operation, rfl⟩ |
    ⟨undoId, result, operation, undone⟩ | ⟨redoId, result, operation, redone⟩
  · refine ⟨?_, fun logId other => (nomatch operation.symm.trans other)⟩
    unfold applyHarmonizationStep at applied
    split at applied
    · cases applied
    rename_i step found
    obtain ⟨_, rfl⟩ := Prod.mk.inj (Except.ok.inj applied)
    exact logStep_sound lowers distinct sound (List.mem_of_find?_eq_some found) scope true
  · exact ⟨applyAll_sound lowers distinct sound scope,
      fun logId other => (nomatch operation.symm.trans other)⟩
  · refine ⟨?_, fun logId other => (nomatch operation.symm.trans other)⟩
    rw [operation] at covers
    obtain ⟨log, found, stands, rfl⟩ := undo_cases undone
    exact undo_sound sound found (covers log found stands)
  · rw [operation] at covers
    obtain ⟨log, found, reverted, rfl⟩ := redo_cases redone
    obtain ⟨after, holds⟩ := redo_sound sound found (covers log found reverted)
    refine ⟨after, fun logId same => ?_⟩
    obtain rfl : redoId = logId := Operation.redo.inj (operation.symm.trans same)
    exact holds

theorem step_sound (lowers : Lowers lower) (distinct : (start.entities.map RawEntity.id).Nodup)
    (request : Request) (sound : Sound lower start db) (covers : Covers db request) :
    Sound lower start (step lower db request) := by
  unfold step
  split
  · exact sound
  · rename_i served
    exact (served_sound lowers distinct sound covers served).1

theorem redo_holds (lowers : Lowers lower) (distinct : (start.entities.map RawEntity.id).Nodup)
    (request : Request) (sound : Sound lower start db) (covers : Covers db request) :
    RedoHolds lower db request := by
  intro logId response next operation served record recorded entity stored own
  obtain ⟨after, holds⟩ := served_sound lowers distinct sound covers served
  rw [← valueOf_mem (after.distinct distinct) stored record.field, own]
  exact holds logId operation record recorded

theorem Sound.restored (sound : Sound lower start db)
    (distinct : (start.entities.map RawEntity.id).Nodup) : Restored start db := by
  intro all
  refine entities_ext distinct sound.sameKeys (sound.balanced.all_undone fun job member => ?_)
  obtain ⟨log, stored, rfl⟩ := List.mem_map.mp member
  exact all log stored

/-- In a run whose undo and redo requests reach the entities of their logs, the entities are
restored whenever every log is reverted, and a redo brings back what its log recorded. -/
theorem undo_redo_sound (lower : Text → Text) (lowers : Lowers lower) (start : HarmonizationDb)
    (requests : List Request) (distinct : (start.entities.map RawEntity.id).Nodup)
    (noLogs : start.logs = []) (noChanges : start.changes = [])
    (covered : EveryStep (step lower) Covers start requests) :
    EveryState (step lower) (Restored start) start requests ∧
      EveryStep (step lower) (RedoHolds lower) start requests := by
  have initial : Sound lower start start := by
    refine ⟨rfl, ?_, ?_, ?_, ?_⟩
    · unfold jobsOf
      rw [noLogs]
      exact balanced_initial
    · rw [noLogs]
      exact List.nodup_nil
    · rw [noLogs]
      exact nofun
    · rw [noChanges]
      exact nofun
  have kept : ∀ db request, Sound lower start db → Covers db request →
      Sound lower start (step lower db request) :=
    fun _ request sound covers => step_sound lowers distinct request sound covers
  have restored : ∀ db, Sound lower start db → Restored start db :=
    fun _ sound => sound.restored distinct
  have holds : ∀ db request, Sound lower start db → Covers db request → RedoHolds lower db request :=
    fun _ request sound covers => redo_holds lowers distinct request sound covers
  exact ⟨everyState_mono restored start requests
      (everyState_of_guard kept start requests initial covered),
    everyStep_of_guard kept holds start requests initial covered⟩

variable {logs : List HarmonizationLog}

/-- The log that the last step has written. -/
theorem scopedLog_last (log : HarmonizationLog) (ends : db.logs = logs ++ [log])
    (older : ∀ other ∈ logs, other.id ≠ log.id) (inScopeLog : inScope scope log.orgId = true) :
    scopedLog db scope log.id = some log := by
  have none : logs.find? (fun other => inScope scope other.orgId && other.id == log.id) = none := by
    rw [List.find?_eq_none]
    intro other stored
    simp [older other stored]
  rw [scopedLog, ends, List.find?_append, none, Option.none_or]
  simp [inScopeLog]

theorem markReverted_older {logId : Nat} (older : ∀ log ∈ logs, log.id ≠ logId) (reverted : Bool) :
    markReverted logs logId reverted = logs := by
  unfold markReverted
  refine (List.map_congr_left fun log stored => ?_).trans (List.map_id logs)
  exact if_neg (older log stored)

theorem markReverted_last (log : HarmonizationLog) (older : ∀ other ∈ logs, other.id ≠ log.id)
    (reverted : Bool) :
    markReverted (logs ++ [log]) log.id reverted = logs ++ [{ log with reverted := reverted }] := by
  have same : markReverted (logs ++ [log]) log.id reverted =
      markReverted logs log.id reverted ++ [{ log with reverted := reverted }] := by
    simp [markReverted]
  rw [same, markReverted_older older]

/-- Right after a step, undo puts the entities back as they were, and redo the whole database of
the step. -/
theorem undo_restores (lower : Text → Text) (scope : Option Int)
    (distinct : (db.entities.map RawEntity.id).Nodup)
    (logsBounded : ∀ log ∈ db.logs, log.id ≤ db.lastLogId)
    (changesBounded : ∀ record ∈ db.changes, record.logId ≤ db.lastLogId)
    {step : HarmonizationStep} (member : step ∈ harmonizationSteps lower) (withSample : Bool) :
    ∃ restored,
      (undoHarmonization scope (logStep scope withSample db step).2 (db.lastLogId + 1)).map Prod.snd =
        .ok restored ∧
      restored.entities = db.entities ∧
      (redoHarmonization scope restored (db.lastLogId + 1)).map Prod.snd =
        .ok (logStep scope withSample db step).2 := by
  obtain ⟨reached, recorded⟩ := step_recorded distinct member scope
  obtain ⟨sameKeys, cells⟩ := foldl_setField FieldChange.newValue Change.after (fun _ => rfl)
    (step.function scope db.entities) reached.known
  obtain ⟨after, isAfter⟩ : ∃ after, after = (logStep scope withSample db step).2 := ⟨_, rfl⟩
  obtain ⟨log, logs, logId, own, stands, counted⟩ : ∃ log : HarmonizationLog,
      after.logs = db.logs ++ [log] ∧ log.id = db.lastLogId + 1 ∧
      inScope scope log.orgId = true ∧ log.reverted = false ∧
      log.recordsUpdated = (step.function scope db.entities).length := by
    rw [isAfter]
    exact ⟨_, rfl, rfl, inScope_persistedOrgId scope, rfl, rfl⟩
  have older : ∀ other ∈ db.logs, other.id ≠ log.id := fun other stored same => by
    have bound := logsBounded other stored
    omega
  have records : recordsOf after log.id = step.function scope db.entities := by
    rw [isAfter, recordsOf_logStep, logId, recordsOf_unused changesBounded, if_pos rfl, List.nil_append]
  have entities : after.entities = (step.function scope db.entities).foldl (fun entities record =>
      setField entities record.recordId record.field record.newValue) db.entities := by
    rw [isAfter]
    rfl
  rw [← entities] at sameKeys cells
  have reachedAfter := reached.of_keys sameKeys
  obtain ⟨keysBack, cellsBack⟩ := foldl_setField FieldChange.oldValue Change.before (fun _ => rfl)
    (step.function scope db.entities) reachedAfter.known
  have back : (replay scope FieldChange.oldValue (step.function scope db.entities)
      after.entities).1 = db.entities := by
    rw [replay_reached reachedAfter]
    refine entities_ext distinct (keysBack.trans sameKeys) ?_
    rw [cellsBack, cells, writeBack_undone recorded]
  rw [← isAfter, ← logId]
  refine ⟨{ after with entities := db.entities, logs := markReverted after.logs log.id true },
    ?_, rfl, ?_⟩
  · have served : ¬ (recordsOf after log.id = [] ∧ 0 < log.recordsUpdated) := by
      rintro ⟨none, some⟩
      rw [counted, ← records, none] at some
      cases some
    rw [undoHarmonization, scopedLog_last log logs older own]
    simp only [stands, Bool.false_eq_true, if_false, if_neg served]
    rw [records, Except.map, back]
  · let undone : HarmonizationLog := { log with reverted := true }
    have marked : markReverted after.logs log.id true = db.logs ++ [undone] := by
      rw [logs]
      exact markReverted_last log older true
    have found : scopedLog { after with
        entities := db.entities, logs := markReverted after.logs log.id true } scope log.id =
        some undone := scopedLog_last undone marked older own
    have forward : (replay scope FieldChange.newValue (step.function scope db.entities)
        db.entities).1 = after.entities := by
      rw [replay_reached reached, entities]
    have unmarked : markReverted (markReverted after.logs log.id true) log.id false = after.logs := by
      rw [marked, logs, ← stands]
      exact markReverted_last undone older log.reverted
    rw [redoHarmonization, found]
    have kept : recordsOf { after with
        entities := db.entities, logs := markReverted after.logs log.id true } log.id =
        recordsOf after log.id := rfl
    simp only [undone, Bool.not_true, Bool.false_eq_true, if_false, Except.map]
    rw [kept, records, forward, unmarked]

/-- An entity of an organization and one of none, each with a blank before its label. -/
def twoEntities : HarmonizationDb where
  entities :=
    [⟨1, some 5, some " a".toList, none, none, some "article".toList, some "valid".toList⟩,
      ⟨2, none, some " b".toList, none, none, some "article".toList, some "valid".toList⟩]
  logs := []
  lastLogId := 0
  changes := []

theorem undo_restores_label :
    ∃ restored, (undoHarmonization none (logStep none true twoEntities
        ⟨"normalize_labels", "Normalize Labels", stepNormalizeLabels⟩).2 1).map Prod.snd =
          .ok restored ∧
      restored.entities = twoEntities.entities ∧
      (redoHarmonization none restored 1).map Prod.snd = .ok (logStep none true twoEntities
        ⟨"normalize_labels", "Normalize Labels", stepNormalizeLabels⟩).2 :=
  @undo_restores twoEntities id none (by decide) (by decide) (by decide) _ List.mem_cons_self true

def emptyDirectory : Directory := ⟨[], []⟩

def byUser (role : Role) (operation : Operation) : Request :=
  ⟨emptyDirectory, ⟨1, role, none⟩, operation⟩

instance decidableReached (scope : Option Int) (entities : List RawEntity)
    (records : List FieldChange) : Decidable (Reached scope entities records) :=
  List.decidableBAll _ records

theorem lowers_id : Lowers id := ⟨fun _ => rfl, fun _ stripped => stripped⟩

theorem undo_redo_sound_superAdmin :
    EveryState (step id) (Restored twoEntities) twoEntities
        [byUser .superAdmin .applyAll, byUser .superAdmin (.undo 1), byUser .superAdmin (.redo 1)] ∧
      EveryStep (step id) (RedoHolds id) twoEntities
        [byUser .superAdmin .applyAll, byUser .superAdmin (.undo 1),
          byUser .superAdmin (.redo 1)] := by
  have distinct : (twoEntities.entities.map RawEntity.id).Nodup := by decide
  refine undo_redo_sound id lowers_id twoEntities _ distinct rfl rfl ⟨trivial, ?_, ?_, trivial⟩
  · have reached : Reached none (step id twoEntities (byUser .superAdmin .applyAll)).entities
        (recordsOf (step id twoEntities (byUser .superAdmin .applyAll)) 1) := by decide
    exact fun _ _ _ => reached
  · have reached : Reached none
        (step id (step id twoEntities (byUser .superAdmin .applyAll))
          (byUser .superAdmin (.undo 1))).entities
        (recordsOf (step id (step id twoEntities (byUser .superAdmin .applyAll))
          (byUser .superAdmin (.undo 1))) 1) := by decide
    exact fun _ _ _ => reached

/-- A super admin without an organization applies a step to all entities, and an editor without
one undoes it: the log is reverted, and the entity of the organization keeps the clean label. -/
theorem undo_leaves_organization :
    let final := runEvents (step id) twoEntities
      [byUser .superAdmin (.apply "normalize_labels"), byUser .editor (.undo 1)]
    final.logs.map HarmonizationLog.reverted = [true] ∧
      final.entities.map RawEntity.primaryLabel = [some "a".toList, some " b".toList] ∧
      ¬ Restored twoEntities final := by
  have logs : (runEvents (step id) twoEntities
      [byUser .superAdmin (.apply "normalize_labels"), byUser .editor (.undo 1)]).logs.map
        HarmonizationLog.reverted = [true] := by decide
  have labels : (runEvents (step id) twoEntities
      [byUser .superAdmin (.apply "normalize_labels"), byUser .editor (.undo 1)]).entities.map
        RawEntity.primaryLabel = [some "a".toList, some " b".toList] := by decide
  refine ⟨logs, labels, fun restored => ?_⟩
  have all : ∀ log ∈ (runEvents (step id) twoEntities
      [byUser .superAdmin (.apply "normalize_labels"), byUser .editor (.undo 1)]).logs,
      log.reverted = true := by
    intro log member
    have flag := List.mem_map_of_mem (f := HarmonizationLog.reverted) member
    rw [logs] at flag
    exact List.mem_singleton.mp flag
  have same := congrArg (List.map RawEntity.primaryLabel) (restored all)
  rw [labels] at same
  revert same
  decide

end Ukip.Harmonization.UndoRedo
