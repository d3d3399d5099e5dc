import Mathlib.Data.Set.Finite.Basic
import Ukip.Normalization.Rules

/-!
# Delegated and local normalization

The engine reads each original value as a pattern, runs all the patterns over it, and its
mapping is applied to the columns before any other rule.  The local path compares whole
values, one rule at a time, in the fields of `normalized_json` too.  Both leave the same
table and count the same updates where the rewrites that they come to agree on every value
that a rule names, and the order of the rules does not matter.
-/

namespace Ukip.Normalization.Equivalence

open Foundation.CountedRun Foundation.Rewriting Tenancy.Access Rules

variable (platform : Platform) (scope : Option Int)

def effect (result : List RawEntity × Option ApplyResponse) : List RawEntity × Option Nat :=
  (result.1, result.2.map ApplyResponse.recordsUpdated)

/-- For every table, the engine's client makes no difference to the effect. -/
def DelegatedEqualsLocal (engine : EngineClient) (threshold : Int) (fieldName : Option String)
    (rules : List NormalizationRule) : Prop :=
  ∀ entities : List RawEntity,
    effect (applyRules platform scope (some engine) threshold fieldName rules entities) =
      effect (applyRules platform scope none threshold fieldName rules entities)

def exactOf (rules : List NormalizationRule) : List NormalizationRule :=
  rules.filter fun rule => !rule.isRegex

def rewritesOf (rules : List NormalizationRule) : List (Rewrite String Value) :=
  rules.filterMap platform.columnRewrite

/-- An exact rule on a field of `normalized_json` that changes no row. -/
def JsonIdle (rule : NormalizationRule) : Prop :=
  platform.fieldKind rule.fieldName = .json →
    rule.originalValue = "" ∨ rule.originalValue = rule.normalizedValue

/-- No rule moves a row out of the scope. -/
def OrgKept (rules : List NormalizationRule) : Prop :=
  scope = none ∨ ∀ rule ∈ rules, rule.fieldName ≠ "org_id"

/-- Cell by cell, both lists replace each value that one of them names by the same value,
in the same number of steps. -/
def CellsAlike (first second : List NormalizationRule) : Prop :=
  ∀ rewrite ∈ rewritesOf platform first ++ rewritesOf platform second,
    rewriteValue (ownRewrites rewrite.key (rewritesOf platform first)) (some rewrite.original) =
      rewriteValue (ownRewrites rewrite.key (rewritesOf platform second)) (some rewrite.original)

def assigned (rule : NormalizationRule) : Option String :=
  match platform.fieldKind rule.fieldName with
  | .column _ => some rule.fieldName
  | .classMember => none
  | .json => some "normalized_json"

/-- A regex rule that stands before an exact rule does not meet its column. -/
def RegexesApart (rules : List NormalizationRule) : Prop :=
  rules.Pairwise fun earlier later =>
    earlier.isRegex = true → later.isRegex = false →
      platform.fieldKind later.fieldName ≠ .json →
        later.fieldName ≠ "source" ∧ assigned platform earlier ≠ some later.fieldName

/-- With this mapping, both paths refuse a rule, or neither does and their updates agree. -/
def AppliedAlike (rules : List NormalizationRule) (mapping : List (String × String)) : Prop :=
  ((exactOf rules).any (refused platform) = true ∧
      (engineRules platform mapping (exactOf rules)).any (refused platform) = true) ∨
    ((exactOf rules).any (refused platform) = false ∧
      (engineRules platform mapping (exactOf rules)).any (refused platform) = false ∧
      (∀ rule ∈ exactOf rules, JsonIdle platform rule) ∧
      CellsAlike platform (exactOf rules) (engineRules platform mapping (exactOf rules)) ∧
      OrgKept scope (exactOf rules) ∧ RegexesApart platform rules)

/-- Nothing is delegated, or the delegated updates agree with the rules. -/
def DelegationAgrees (engine : EngineClient) (threshold : Int) (fieldName : Option String)
    (rules : List NormalizationRule) : Prop :=
  ∀ mapping, delegation (some engine) threshold (exactOf (selectRules scope fieldName rules)) =
    some mapping → AppliedAlike platform scope (selectRules scope fieldName rules) mapping

/-- Objects with a given text in a field are JSON, and have more than one spelling. -/
def JsonWritable (rule : NormalizationRule) : Prop :=
  platform.fieldKind rule.fieldName = .json → rule.originalValue ≠ "" →
    ∀ avoided : List String, ∃ json, json ∉ avoided ∧
      platform.jsonField json rule.fieldName = some rule.originalValue

def effectOf (rules : List NormalizationRule) (entities : List RawEntity) :
    List RawEntity × Option Nat :=
  match runOn platform scope rules (entities.map load) with
  | none => (entities, none)
  | some (rows, updated) => (rows.map flush, some updated)

theorem effect_local (threshold : Int) (fieldName : Option String)
    (rules : List NormalizationRule) (entities : List RawEntity) :
    effect (applyRules platform scope none threshold fieldName rules entities) =
      effectOf platform scope (selectRules scope fieldName rules) entities := by
  have local_path : delegation none threshold (exactOf (selectRules scope fieldName rules)) = none := by
    unfold delegation
    split <;> rfl
  unfold applyRules effectOf
  unfold exactOf at local_path
  dsimp only
  rw [local_path]
  dsimp only
  cases runOn platform scope (selectRules scope fieldName rules) (entities.map load) <;> rfl

theorem effect_undelegated (engine : EngineClient) (threshold : Int) (fieldName : Option String)
    (rules : List NormalizationRule) (entities : List RawEntity)
    (kept : delegation (some engine) threshold (exactOf (selectRules scope fieldName rules)) = none) :
    effect (applyRules platform scope (some engine) threshold fieldName rules entities) =
      effectOf platform scope (selectRules scope fieldName rules) entities := by
  unfold applyRules effectOf
  unfold exactOf at kept
  dsimp only
  rw [kept]
  dsimp only
  cases runOn platform scope (selectRules scope fieldName rules) (entities.map load) <;> rfl

variable (first second : List NormalizationRule)

theorem runOn_append (rows : List SessionRow) :
    runOn platform scope (first ++ second) rows =
      (runOn platform scope first rows).bind fun left =>
        (runOn platform scope second left.1).map fun result => (result.1, left.2 + result.2) :=
  runTable_append (refused platform) (ruleStep platform scope) first second rows

theorem effect_delegated (engine : EngineClient) (threshold : Int) (fieldName : Option String)
    (rules : List NormalizationRule) (entities : List RawEntity) (mapping : List (String × String))
    (sent : delegation (some engine) threshold (exactOf (selectRules scope fieldName rules)) =
      some mapping) :
    effect (applyRules platform scope (some engine) threshold fieldName rules entities) =
      effectOf platform scope
        (engineRules platform mapping (exactOf (selectRules scope fieldName rules)) ++
          (selectRules scope fieldName rules).filter NormalizationRule.isRegex) entities := by
  unfold applyRules effectOf
  unfold exactOf at sent ⊢
  dsimp only
  rw [sent, runOn_append]
  dsimp only
  cases runOn platform scope (engineRules platform mapping
      ((selectRules scope fieldName rules).filter fun rule => !rule.isRegex))
      (entities.map load) with
  | none => rfl
  | some left =>
    rw [Option.bind_some]
    dsimp only
    by_cases none_left : (selectRules scope fieldName rules).filter NormalizationRule.isRegex = []
    · rw [if_pos none_left, none_left]
      rfl
    · rw [if_neg none_left]
      cases runOn platform scope
          ((selectRules scope fieldName rules).filter NormalizationRule.isRegex) left.1 <;> rfl

theorem effectOf_congr (entities : List RawEntity)
    (refusals : first.any (refused platform) = second.any (refused platform))
    (runs : first.any (refused platform) = false → ∀ entity,
      runRules (ruleStep platform scope) first (load entity) =
        runRules (ruleStep platform scope) second (load entity)) :
    effectOf platform scope first entities = effectOf platform scope second entities := by
  unfold effectOf runOn
  rw [runTable_eq, runTable_eq, ← refusals]
  cases accepted : first.any (refused platform) with
  | true => rfl
  | false =>
    have same := onEach_congr (entities.map load) fun row member => by
      obtain ⟨entity, -, rfl⟩ := List.mem_map.mp member
      exact runs accepted entity
    rw [if_neg Bool.false_ne_true, if_neg Bool.false_ne_true, same]

theorem refusals_of_effectOf
    (same : effectOf platform scope first [] = effectOf platform scope second []) :
    first.any (refused platform) = second.any (refused platform) := by
  unfold effectOf runOn at same
  rw [runTable_eq, runTable_eq] at same
  cases left : first.any (refused platform) with
  | true =>
    cases right : second.any (refused platform) with
    | true => rfl
    | false => simp [left, right, onEach] at same
  | false =>
    cases right : second.any (refused platform) with
    | true => simp [left, right, onEach] at same
    | false => rfl

variable (rules : List NormalizationRule)

theorem effectOf_singleton (entity : RawEntity) (accepted : rules.any (refused platform) = false)
    (result : SessionRow × Nat)
    (ran : runRules (ruleStep platform scope) rules (load entity) = some result) :
    effectOf platform scope rules [entity] = ([flush result.1], some result.2) := by
  unfold effectOf runOn
  rw [runTable_eq, accepted, if_neg Bool.false_ne_true, List.map_cons, List.map_nil,
    onEach_singleton, ran]
  rfl

variable {rule : NormalizationRule} {rewrite : Rewrite String Value}

theorem key_of_columnRewrite (found : platform.columnRewrite rule = some rewrite) :
    rewrite.key = rule.fieldName := by
  obtain ⟨type, -, rest⟩ := Option.bind_eq_some_iff.mp found
  obtain ⟨original, -, rest⟩ := Option.bind_eq_some_iff.mp rest
  obtain ⟨normalized, -, rfl⟩ := Option.map_eq_some_iff.mp rest
  rfl

theorem fieldKind_of_columnRewrite (found : platform.columnRewrite rule = some rewrite) :
    ∃ type, platform.fieldKind rule.fieldName = .column type := by
  obtain ⟨type, typed, -⟩ := Option.bind_eq_some_iff.mp found
  exact ⟨type, by rw [Platform.fieldKind, typed]⟩

theorem columnRewrite_json (json : platform.fieldKind rule.fieldName = .json) :
    platform.columnRewrite rule = none := by
  cases found : platform.columnRewrite rule with
  | none => rfl
  | some rewrite =>
    obtain ⟨type, column⟩ := fieldKind_of_columnRewrite platform found
    rw [column] at json
    cases json

theorem getField_ne_empty (json field : String) (original : String)
    (found : platform.getField json field = some original) : original ≠ "" := by
  unfold Platform.getField at found
  split at found
  · cases found
  · simpa using (Option.filter_eq_some_iff.mp found).2

theorem jsonChange_idle (rule : NormalizationRule) (exact : rule.isRegex = false)
    (same : rule.originalValue = "" ∨ rule.originalValue = rule.normalizedValue)
    (stored pending : Option Value) : jsonChange platform rule stored pending = some none := by
  have no_text : ∀ json, (platform.getField json rule.fieldName).bind (fun original =>
      (jsonText platform rule original).map fun changed =>
        Value.text (platform.jsonWith json rule.fieldName changed)) = none := by
    intro json
    rw [Option.bind_eq_none_iff]
    intro original found
    have nonempty := getField_ne_empty platform json rule.fieldName original found
    have idle : jsonText platform rule original = none := by
      unfold jsonText
      rw [if_neg (by simp [exact]), if_neg]
      rintro ⟨rfl, differs⟩
      rcases same with empty | same
      · exact nonempty empty
      · exact differs same.symm
    rw [idle, Option.map_none]
  unfold jsonChange
  split
  · rfl
  · split
    · rw [no_text]
    · rfl

theorem assignStep_idle (column : String)
    (change : Option Value → Option Value → Option (Option Value))
    (none_changed : ∀ stored pending, change stored pending = some none) :
    assignStep scope column change = idle := by
  funext row
  unfold assignStep idle
  rw [none_changed]
  cases visible scope row <;> rfl

theorem ruleStep_jsonIdle (rule : NormalizationRule) (exact : rule.isRegex = false)
    (json : platform.fieldKind rule.fieldName = .json) (idle_rule : JsonIdle platform rule) :
    ruleStep platform scope rule = idle := by
  unfold ruleStep
  rw [json]
  exact assignStep_idle scope _ _ (jsonChange_idle platform rule exact (idle_rule json))

theorem ruleStep_column (rule : NormalizationRule) (exact : rule.isRegex = false)
    (rewrite : Rewrite String Value) (found : platform.columnRewrite rule = some rewrite) :
    ruleStep platform scope rule = fun row => some (executeUpdate platform scope rewrite row) := by
  obtain ⟨type, column⟩ := fieldKind_of_columnRewrite platform found
  funext row
  unfold ruleStep
  rw [column]
  simp [exact, exactStep, found]

theorem exact_cases (rule : NormalizationRule) (exact : rule.isRegex = false)
    (accepted : refused platform rule = false) :
    (∃ rewrite, platform.columnRewrite rule = some rewrite) ∨
      platform.fieldKind rule.fieldName = .json := by
  by_cases json : platform.fieldKind rule.fieldName = .json
  · exact .inr json
  · left
    rw [← Option.isSome_iff_exists]
    unfold refused Platform.hasAttribute at accepted
    simpa [exact, json, Option.isSome_iff_ne_none] using accepted

theorem orgId_of_same {first second : RawEntity} (same : first "org_id" = second "org_id") :
    first.orgId = second.orgId := by
  unfold RawEntity.orgId
  rw [same]

theorem inScope_applyRewrite (rewrite : Rewrite String Value) (entity : RawEntity)
    (kept : scope = none ∨ rewrite.key ≠ "org_id") :
    inScope scope (RawEntity.orgId (applyRewrite rewrite entity).1) = inScope scope entity.orgId := by
  rcases kept with rfl | other
  · rfl
  · rw [orgId_of_same (applyRewrite_other rewrite entity "org_id" other)]

theorem executeUpdate_load (rewrite : Rewrite String Value) (entity : RawEntity)
    (inside : inScope scope entity.orgId = true) :
    executeUpdate platform scope rewrite (load entity) =
      (load (applyRewrite rewrite entity).1, (applyRewrite rewrite entity).2) := by
  unfold executeUpdate load
  rw [if_pos inside]
  simp

theorem executeUpdate_outside (rewrite : Rewrite String Value) (row : SessionRow)
    (outside : inScope scope row.stored.orgId = false) :
    executeUpdate platform scope rewrite row = (row, 0) := by
  unfold executeUpdate
  rw [if_neg (by simp [outside])]

def exactResult (rules : List NormalizationRule) (entity : RawEntity) : SessionRow × Nat :=
  if inScope scope entity.orgId then
    (load (applyAll (rewritesOf platform rules) entity).1,
      (applyAll (rewritesOf platform rules) entity).2)
  else (load entity, 0)

theorem exactResult_cons_json (rule : NormalizationRule) (rest : List NormalizationRule)
    (entity : RawEntity) (json : platform.fieldKind rule.fieldName = .json) :
    exactResult platform scope (rule :: rest) entity = exactResult platform scope rest entity := by
  unfold exactResult rewritesOf
  rw [List.filterMap_cons_none (columnRewrite_json platform json)]

theorem runRules_exact (exact : ∀ rule ∈ rules, rule.isRegex = false)
    (accepted : rules.any (refused platform) = false)
    (idle_rules : ∀ rule ∈ rules, JsonIdle platform rule) (kept : OrgKept scope rules)
    (entity : RawEntity) :
    runRules (ruleStep platform scope) rules (load entity) =
      some (exactResult platform scope rules entity) := by
  induction rules generalizing entity with
  | nil =>
    unfold exactResult
    split <;> rfl
  | cons rule rest ih =>
    rw [List.any_cons, Bool.or_eq_false_iff] at accepted
    have tail := ih (fun later member => exact later (List.mem_cons_of_mem rule member))
      accepted.2 (fun later member => idle_rules later (List.mem_cons_of_mem rule member))
      (kept.imp_right fun each later member => each later (List.mem_cons_of_mem rule member))
    have head_exact := exact rule List.mem_cons_self
    rw [runRules]
    rcases exact_cases platform rule head_exact accepted.1 with ⟨rewrite, found⟩ | json
    · have own_kept : scope = none ∨ rewrite.key ≠ "org_id" :=
        kept.imp_right fun each => by
          rw [key_of_columnRewrite platform found]
          exact each rule List.mem_cons_self
      have listed : rewritesOf platform (rule :: rest) = rewrite :: rewritesOf platform rest :=
        List.filterMap_cons_some found
      rw [ruleStep_column platform scope rule head_exact rewrite found, andThen, Option.bind_some]
      cases inside : inScope scope entity.orgId with
      | true =>
        have still : inScope scope (RawEntity.orgId (applyRewrite rewrite entity).1) = true := by
          rw [inScope_applyRewrite scope rewrite entity own_kept, inside]
        rw [executeUpdate_load platform scope rewrite entity inside]
        dsimp only
        rw [tail, Option.map_some, exactResult, exactResult, if_pos still, if_pos inside, listed]
        rfl
      | false =>
        rw [executeUpdate_outside platform scope rewrite (load entity) inside]
        dsimp only
        rw [tail, Option.map_some, exactResult, exactResult, if_neg (by simp [inside]),
          if_neg (by simp [inside])]
        rfl
    · rw [ruleStep_jsonIdle platform scope rule head_exact json
          (idle_rules rule List.mem_cons_self), idle_andThen, tail,
        exactResult_cons_json platform scope rule rest entity json]

theorem mem_engineRules {mapping : List (String × String)} {exactRules : List NormalizationRule}
    (member : rule ∈ engineRules platform mapping exactRules) :
    platform.fieldKind rule.fieldName ≠ .json ∧
      ∃ origin ∈ exactRules, origin.fieldName = rule.fieldName ∧
        origin.originalValue = rule.originalValue ∧ origin.ruleType = rule.ruleType := by
  unfold engineRules at member
  obtain ⟨item, -, member⟩ := List.mem_flatMap.mp member
  obtain ⟨origin, kept, rfl⟩ := List.mem_map.mp member
  obtain ⟨inside, passes⟩ := List.mem_filter.mp kept
  rw [Bool.and_eq_true, Platform.hasAttribute, bne_iff_ne] at passes
  exact ⟨passes.2, origin, inside, rfl, rfl, rfl⟩

theorem exact_of_mem_exactOf {rules : List NormalizationRule} (member : rule ∈ exactOf rules) :
    rule.isRegex = false := by
  simpa using (List.mem_filter.mp member).2

variable (mapping : List (String × String))

theorem engineRules_exact (rules : List NormalizationRule) (rule : NormalizationRule)
    (member : rule ∈ engineRules platform mapping (exactOf rules)) : rule.isRegex = false := by
  obtain ⟨-, origin, inside, -, -, sameType⟩ := mem_engineRules platform member
  have exact := exact_of_mem_exactOf inside
  unfold NormalizationRule.isRegex at exact ⊢
  rw [← sameType, exact]

theorem engineRules_jsonIdle (rules : List NormalizationRule) (rule : NormalizationRule)
    (member : rule ∈ engineRules platform mapping (exactOf rules)) :
    JsonIdle platform rule := fun json =>
  absurd json (mem_engineRules platform member).1

theorem engineRules_orgKept (rules : List NormalizationRule) (kept : OrgKept scope (exactOf rules)) :
    OrgKept scope (engineRules platform mapping (exactOf rules)) :=
  kept.imp_right fun each rule member => by
    obtain ⟨-, origin, inside, sameField, -⟩ := mem_engineRules platform member
    rw [← sameField]
    exact each origin inside

theorem runRules_engine (rules : List NormalizationRule)
    (accepted : (engineRules platform mapping (exactOf rules)).any (refused platform) = false)
    (kept : OrgKept scope (exactOf rules)) (entity : RawEntity) :
    runRules (ruleStep platform scope) (engineRules platform mapping (exactOf rules)) (load entity) =
      some (exactResult platform scope (engineRules platform mapping (exactOf rules)) entity) :=
  runRules_exact platform scope _ (engineRules_exact platform mapping rules) accepted
    (engineRules_jsonIdle platform mapping rules)
    (engineRules_orgKept platform scope mapping rules kept) entity

theorem exactResult_congr (first second : List NormalizationRule)
    (alike : CellsAlike platform first second) (entity : RawEntity) :
    exactResult platform scope first entity = exactResult platform scope second entity := by
  unfold exactResult
  rw [applyAll_agree (rewritesOf platform first) (rewritesOf platform second) alike entity]

theorem visible_executeUpdate (rewrite : Rewrite String Value) (row : SessionRow)
    (other : rewrite.key ≠ "source") (kept : scope = none ∨ rewrite.key ≠ "org_id") :
    visible scope (executeUpdate platform scope rewrite row).1 = visible scope row := by
  cases inside : inScope scope row.stored.orgId with
  | false => rw [executeUpdate_outside platform scope rewrite row inside]
  | true =>
    unfold visible executeUpdate
    rw [if_pos inside]
    dsimp only
    rw [inScope_applyRewrite scope rewrite row.stored kept,
      applyRewrite_other rewrite row.stored "source" other]

theorem executeUpdate_other (rewrite : Rewrite String Value) (row : SessionRow) (column : String)
    (other : rewrite.key ≠ column) :
    (executeUpdate platform scope rewrite row).1.stored column = row.stored column ∧
      (executeUpdate platform scope rewrite row).1.pending column = row.pending column := by
  cases inside : inScope scope row.stored.orgId with
  | false =>
    rw [executeUpdate_outside platform scope rewrite row inside]
    exact ⟨rfl, rfl⟩
  | true =>
    unfold executeUpdate
    rw [if_pos inside]
    exact ⟨applyRewrite_other rewrite row.stored column other,
      Function.update_of_ne (Ne.symm other) _ _⟩

theorem executeUpdate_assign (rewrite : Rewrite String Value) (row : SessionRow) (column : String)
    (other : rewrite.key ≠ column) (change : Option Value) :
    executeUpdate platform scope rewrite (row.assign column change).1 =
      (((executeUpdate platform scope rewrite row).1.assign column change).1,
        (executeUpdate platform scope rewrite row).2) := by
  cases change with
  | none => rfl
  | some value =>
    unfold executeUpdate SessionRow.assign
    dsimp only
    cases inScope scope row.stored.orgId with
    | false => rfl
    | true =>
      simp only [if_true, Function.update_of_ne other]
      rw [Function.update_comm other]

theorem assign_count (row other : SessionRow) (column : String) (change : Option Value) :
    (row.assign column change).2 = (other.assign column change).2 := by
  cases change <;> rfl

theorem assignStep_commutes (column : String)
    (change : Option Value → Option Value → Option (Option Value)) (rewrite : Rewrite String Value)
    (other : rewrite.key ≠ column) (source : rewrite.key ≠ "source")
    (kept : scope = none ∨ rewrite.key ≠ "org_id") :
    Commutes (assignStep scope column change)
      (fun row => some (executeUpdate platform scope rewrite row)) := by
  funext row
  obtain ⟨stored, pending⟩ := executeUpdate_other platform scope rewrite row column other
  unfold andThen assignStep
  rw [Option.bind_some, visible_executeUpdate platform scope rewrite row source kept, stored, pending]
  cases visible scope row with
  | false => simp
  | true =>
    rw [if_pos rfl, if_pos rfl]
    cases change (row.stored column) (row.pending column) with
    | none => rfl
    | some changed =>
      simp only [Option.map_some, Option.bind_some]
      rw [executeUpdate_assign platform scope rewrite row column other,
        assign_count row (executeUpdate platform scope rewrite row).1, Nat.add_comm]

theorem attributeStep_commutes (rule : NormalizationRule) (rewrite : Rewrite String Value)
    (source : rewrite.key ≠ "source") (kept : scope = none ∨ rewrite.key ≠ "org_id") :
    Commutes (attributeStep platform scope rule)
      (fun row => some (executeUpdate platform scope rewrite row)) := by
  funext row
  unfold andThen attributeStep
  rw [Option.bind_some, visible_executeUpdate platform scope rewrite row source kept]
  cases visible scope row with
  | false => simp
  | true =>
    cases platform.subAttribute rule with
    | none => rfl
    | some count => simp [Nat.add_comm]

theorem regex_commutes (earlier : NormalizationRule) (regex : earlier.isRegex = true)
    (rewrite : Rewrite String Value) (apart : assigned platform earlier ≠ some rewrite.key)
    (source : rewrite.key ≠ "source") (kept : scope = none ∨ rewrite.key ≠ "org_id") :
    Commutes (ruleStep platform scope earlier)
      (fun row => some (executeUpdate platform scope rewrite row)) := by
  unfold assigned at apart
  unfold ruleStep
  cases kind : platform.fieldKind earlier.fieldName with
  | column type =>
    rw [kind] at apart
    dsimp only
    rw [if_pos regex]
    exact assignStep_commutes platform scope _ _ rewrite
      (fun same => apart (by rw [same])) source kept
  | classMember =>
    dsimp only
    rw [if_pos regex]
    exact attributeStep_commutes platform scope earlier rewrite source kept
  | json =>
    rw [kind] at apart
    exact assignStep_commutes platform scope _ _ rewrite
      (fun same => apart (by rw [same])) source kept

theorem runRules_exactFirst (accepted : (exactOf rules).any (refused platform) = false)
    (idle_rules : ∀ rule ∈ exactOf rules, JsonIdle platform rule)
    (kept : OrgKept scope (exactOf rules)) (apart : RegexesApart platform rules) :
    runRules (ruleStep platform scope) rules =
      runRules (ruleStep platform scope)
        (exactOf rules ++ rules.filter NormalizationRule.isRegex) := by
  have partition := runRules_partition (ruleStep platform scope)
    (fun rule => !rule.isRegex) rules (by
      refine apart.imp_of_mem ?_
      intro earlier later _ member separate earlier_regex later_exact
      have regex : earlier.isRegex = true := by simpa using earlier_regex
      have exact : later.isRegex = false := by simpa using later_exact
      have inside : later ∈ exactOf rules := List.mem_filter.mpr ⟨member, later_exact⟩
      have unrefused : refused platform later = false := by
        simpa using List.any_eq_false.mp accepted later inside
      rcases exact_cases platform later exact unrefused with ⟨rewrite, found⟩ | json
      · obtain ⟨type, column⟩ := fieldKind_of_columnRewrite platform found
        obtain ⟨source, other⟩ := separate regex exact (by simp [column])
        have key := key_of_columnRewrite platform found
        rw [ruleStep_column platform scope later exact rewrite found]
        refine regex_commutes platform scope earlier regex rewrite ?_ ?_ ?_
        · rwa [key]
        · rwa [key]
        · rw [key]
          exact kept.imp_right fun each => each later inside
      · rw [ruleStep_jsonIdle platform scope later exact json (idle_rules later inside)]
        exact commutes_idle _)
  rw [partition, exactOf]
  congr 2
  exact List.filter_congr fun rule _ => by simp

theorem any_refused_exactOf :
    rules.any (refused platform) = (exactOf rules).any (refused platform) := by
  unfold exactOf
  rw [List.any_filter]
  congr 1
  funext rule
  unfold refused
  cases rule.isRegex <;> rfl

theorem any_refused_regexes :
    (rules.filter NormalizationRule.isRegex).any (refused platform) = false := by
  rw [List.any_eq_false]
  intro rule member
  have regex : rule.isRegex = true := (List.mem_filter.mp member).2
  simp [refused, regex]

theorem effectOf_of_appliedAlike (mapping : List (String × String))
    (alike : AppliedAlike platform scope rules mapping) (entities : List RawEntity) :
    effectOf platform scope
        (engineRules platform mapping (exactOf rules) ++ rules.filter NormalizationRule.isRegex)
        entities =
      effectOf platform scope rules entities := by
  have refusals : (engineRules platform mapping (exactOf rules) ++
      rules.filter NormalizationRule.isRegex).any (refused platform) =
        (engineRules platform mapping (exactOf rules)).any (refused platform) := by
    rw [List.any_append, any_refused_regexes, Bool.or_false]
  have own := any_refused_exactOf platform rules
  rcases alike with ⟨refuses, engine_refuses⟩ |
    ⟨accepted, engine_accepted, idle_rules, cells, kept, apart⟩
  · refine effectOf_congr platform scope _ _ entities ?_ fun accepted => ?_
    · rw [refusals, own, refuses, engine_refuses]
    · rw [refusals, engine_refuses] at accepted
      cases accepted
  · refine effectOf_congr platform scope _ _ entities ?_ fun _ entity => ?_
    · rw [refusals, own, accepted, engine_accepted]
    · have exact_run := runRules_exact platform scope (exactOf rules)
        (fun rule member => exact_of_mem_exactOf member) accepted idle_rules kept entity
      have engine_run := runRules_engine platform scope mapping rules engine_accepted kept entity
      have first : runRules (ruleStep platform scope)
          (engineRules platform mapping (exactOf rules)) (load entity) =
          runRules (ruleStep platform scope) (exactOf rules) (load entity) := by
        rw [engine_run, exact_run, exactResult_congr platform scope _ _ cells]
      rw [runRules_exactFirst platform scope rules accepted idle_rules kept apart,
        runRules_append, runRules_append, andThen, andThen, first]

theorem flush_load (entity : RawEntity) : flush (load entity) = entity := by
  funext column
  rfl

def scopeRow : RawEntity :=
  Function.update (fun _ => none) "org_id" ((persistedOrgId scope).map Value.integer)

theorem orgId_scopeRow : RawEntity.orgId (scopeRow scope) = persistedOrgId scope := by
  unfold RawEntity.orgId scopeRow
  rw [Function.update_self]
  cases persistedOrgId scope <;> rfl

theorem scopeRow_unnamed (key : String) (kept : scope = none ∨ key ≠ "org_id") :
    scopeRow scope key = none := by
  unfold scopeRow
  by_cases same : key = "org_id"
  · rcases kept with rfl | other
    · subst same
      rfl
    · exact absurd same other
  · exact Function.update_of_ne same _ _

theorem inScope_of_orgId (entity : RawEntity) (same : scope = none ∨
    entity "org_id" = scopeRow scope "org_id") : inScope scope entity.orgId = true := by
  rcases same with rfl | same
  · rfl
  · rw [orgId_of_same same, orgId_scopeRow]
    exact inScope_persistedOrgId scope

theorem key_kept {rules : List NormalizationRule} (kept : OrgKept scope rules)
    (rewrite : Rewrite String Value) (member : rewrite ∈ rewritesOf platform rules) :
    scope = none ∨ rewrite.key ≠ "org_id" := by
  obtain ⟨rule, inside, found⟩ := List.mem_filterMap.mp member
  rw [key_of_columnRewrite platform found]
  exact kept.imp_right fun each => each rule inside

theorem cellsAlike_of_effectOf (first second : List NormalizationRule)
    (first_kept : OrgKept scope first) (second_kept : OrgKept scope second)
    (first_run : ∀ entity, runRules (ruleStep platform scope) first (load entity) =
      some (exactResult platform scope first entity))
    (second_run : ∀ entity, runRules (ruleStep platform scope) second (load entity) =
      some (exactResult platform scope second entity))
    (first_accepted : first.any (refused platform) = false)
    (second_accepted : second.any (refused platform) = false)
    (same : ∀ entities, effectOf platform scope first entities =
      effectOf platform scope second entities) :
    CellsAlike platform first second := by
  intro rewrite member
  have kept : ∀ other ∈ rewritesOf platform first ++ rewritesOf platform second,
      scope = none ∨ other.key ≠ "org_id" := by
    intro other inside
    rcases List.mem_append.mp inside with inside | inside
    · exact key_kept platform scope first_kept other inside
    · exact key_kept platform scope second_kept other inside
  let entity : RawEntity := Function.update (scopeRow scope) rewrite.key (some rewrite.original)
  have inside : inScope scope (RawEntity.orgId entity) = true := by
    refine inScope_of_orgId scope entity ?_
    exact (kept rewrite member).imp_right fun other => Function.update_of_ne (Ne.symm other) _ _
  have effects := same [entity]
  rw [effectOf_singleton platform scope first entity first_accepted _ (first_run entity),
    effectOf_singleton platform scope second entity second_accepted _ (second_run entity)] at effects
  unfold exactResult at effects
  rw [if_pos inside, if_pos inside] at effects
  dsimp only at effects
  rw [flush_load, flush_load] at effects
  refine rewriteValue_of_applyAll _ _ (scopeRow scope) rewrite.key (some rewrite.original)
    (fun other named => scopeRow_unnamed scope other.key (kept other named)) ?_
  obtain ⟨rows, counts⟩ := Prod.mk.inj effects
  exact Prod.ext (List.cons.inj rows).1 (Option.some.inj counts)

theorem original_of_columnRewrite (found : platform.columnRewrite rule = some rewrite)
    (typed : columnType rule.fieldName = some .text) :
    rewrite.original = .text rule.originalValue := by
  unfold Platform.columnRewrite at found
  rw [typed, Option.bind_some] at found
  exact (congrArg Rewrite.original (Option.some.inj found)).symm

theorem exact_still (rule : NormalizationRule) (exact : rule.isRegex = false)
    (accepted : refused platform rule = false) (row left : SessionRow)
    (clean : row.pending = fun _ => none)
    (stepped : ruleStep platform scope rule row = some (left, 0)) : left = row := by
  obtain ⟨stored, pending⟩ := row
  dsimp only at clean
  subst clean
  rcases exact_cases platform rule exact accepted with ⟨rewrite, found⟩ | json
  · rw [ruleStep_column platform scope rule exact rewrite found] at stepped
    dsimp only at stepped
    cases inside : inScope scope (RawEntity.orgId stored) with
    | false =>
      rw [executeUpdate_outside platform scope rewrite _ inside] at stepped
      exact (congrArg Prod.fst (Option.some.inj stepped)).symm
    | true =>
      have updated := executeUpdate_load platform scope rewrite stored inside
      unfold load at updated
      rw [updated] at stepped
      obtain ⟨rfl, count⟩ := Prod.mk.inj (Option.some.inj stepped)
      by_cases holds : stored rewrite.key = some rewrite.original
      · rw [applyRewrite_hit rewrite stored holds] at count
        cases count
      · rw [applyRewrite_miss rewrite stored holds]
  · unfold ruleStep at stepped
    rw [json] at stepped
    dsimp only at stepped
    unfold assignStep at stepped
    split at stepped
    · obtain ⟨change, -, assigned_row⟩ := Option.map_eq_some_iff.mp stepped
      cases change with
      | none => exact (congrArg Prod.fst assigned_row).symm
      | some value => cases congrArg Prod.snd assigned_row
    · exact (congrArg Prod.fst (Option.some.inj stepped)).symm

/-- A visible row whose `normalized_json` is a given text, and which holds no other text. -/
def jsonRow (source json : String) : RawEntity :=
  Function.update (Function.update (scopeRow scope) "source" (some (.text source)))
    "normalized_json" (some (.text json))

variable (source json : String)

theorem jsonRow_json :
    jsonRow scope source json "normalized_json" = some (.text json) :=
  Function.update_self _ _ _

theorem jsonRow_source :
    jsonRow scope source json "source" = some (.text source) := by
  unfold jsonRow
  rw [Function.update_of_ne (by decide), Function.update_self]

theorem jsonRow_other (source json key : String) (notSource : key ≠ "source")
    (notJson : key ≠ "normalized_json") : jsonRow scope source json key = scopeRow scope key := by
  unfold jsonRow
  rw [Function.update_of_ne notJson, Function.update_of_ne notSource]

theorem inScope_jsonRow :
    inScope scope (RawEntity.orgId (jsonRow scope source json)) = true :=
  inScope_of_orgId scope _ (.inr (jsonRow_other scope source json "org_id" (by decide) (by decide)))

theorem visible_jsonRow (other : source ≠ "graph_materializer") :
    visible scope (load (jsonRow scope source json)) = true := by
  unfold visible load
  dsimp only
  rw [jsonRow_source, inScope_jsonRow]
  simp [other]

theorem jsonRow_miss (kept : OrgKept scope rules) (source json : String)
    (freshSource : source ∉ rules.map NormalizationRule.originalValue)
    (freshJson : json ∉ rules.map NormalizationRule.originalValue) (rewrite : Rewrite String Value)
    (member : rewrite ∈ rewritesOf platform rules) :
    jsonRow scope source json rewrite.key ≠ some rewrite.original := by
  obtain ⟨rule, inside, found⟩ := List.mem_filterMap.mp member
  have key := key_of_columnRewrite platform found
  have named : rule.originalValue ∈ rules.map NormalizationRule.originalValue :=
    List.mem_map_of_mem inside
  by_cases isJson : rewrite.key = "normalized_json"
  · have original := original_of_columnRewrite platform found (by
      rw [← key, isJson]
      decide)
    rw [isJson, jsonRow_json, original]
    intro same
    injection same with same
    injection same with same
    exact freshJson (same ▸ named)
  · by_cases isSource : rewrite.key = "source"
    · have original := original_of_columnRewrite platform found (by
        rw [← key, isSource]
        decide)
      rw [isSource, jsonRow_source, original]
      intro same
      injection same with same
      injection same with same
      exact freshSource (same ▸ named)
    · rw [jsonRow_other scope source json rewrite.key isSource isJson,
        scopeRow_unnamed scope rewrite.key (key_kept platform scope kept rewrite member)]
      exact (Option.some_ne_none _).symm

theorem jsonRule_counts (rule : NormalizationRule) (exact : rule.isRegex = false)
    (json : platform.fieldKind rule.fieldName = .json) (nonempty : rule.originalValue ≠ "")
    (differs : rule.originalValue ≠ rule.normalizedValue) (source text : String)
    (other : source ≠ "graph_materializer") (written : text ≠ "")
    (found : platform.jsonField text rule.fieldName = some rule.originalValue) :
    ruleStep platform scope rule (load (jsonRow scope source text)) ≠
      some (load (jsonRow scope source text), 0) := by
  have field : platform.getField text rule.fieldName = some rule.originalValue := by
    unfold Platform.getField
    rw [if_neg written, found]
    simp [nonempty]
  have changed : jsonText platform rule rule.originalValue = some rule.normalizedValue := by
    unfold jsonText
    rw [if_neg (by simp [exact]), if_pos ⟨rfl, Ne.symm differs⟩]
  intro stepped
  unfold ruleStep at stepped
  rw [json] at stepped
  dsimp only at stepped
  unfold assignStep at stepped
  rw [if_pos (visible_jsonRow scope source text other)] at stepped
  unfold load at stepped
  dsimp only at stepped
  rw [jsonRow_json] at stepped
  simp [jsonChange, field, changed, SessionRow.assign] at stepped

theorem exists_fresh_text (avoided : List String) : ∃ text, text ∉ avoided :=
  Infinite.exists_notMem_finset avoided.toFinset |>.imp fun _ fresh member =>
    fresh (List.mem_toFinset.mpr member)

theorem jsonIdle_of_effectOf (mapping : List (String × String))
    (kept : OrgKept scope (exactOf rules))
    (accepted : (exactOf rules).any (refused platform) = false) (engine_accepted :
      (engineRules platform mapping (exactOf rules)).any (refused platform) = false)
    (same : ∀ entities,
      effectOf platform scope (engineRules platform mapping (exactOf rules)) entities =
        effectOf platform scope (exactOf rules) entities) (rule : NormalizationRule)
    (member : rule ∈ exactOf rules) (writable : JsonWritable platform rule) :
    JsonIdle platform rule := by
  intro json
  by_contra effective
  obtain ⟨nonempty, differs⟩ := not_or.mp effective
  obtain ⟨source, freshSource⟩ := exists_fresh_text
    ("graph_materializer" :: (engineRules platform mapping (exactOf rules)).map
      NormalizationRule.originalValue)
  obtain ⟨text, freshText, found⟩ := writable json nonempty
    ("" :: (engineRules platform mapping (exactOf rules)).map NormalizationRule.originalValue)
  rw [List.mem_cons, not_or] at freshSource freshText
  let entity := jsonRow scope source text
  have engine_run := runRules_engine platform scope mapping rules engine_accepted kept entity
  have untouched : exactResult platform scope (engineRules platform mapping (exactOf rules)) entity =
      (load entity, 0) := by
    unfold exactResult
    rw [if_pos (inScope_jsonRow scope source text), applyAll_of_miss _ entity
      (jsonRow_miss platform scope _ (engineRules_orgKept platform scope mapping rules kept)
        source text freshSource.2 freshText.2)]
  have effects := same [entity]
  rw [effectOf_singleton platform scope _ entity engine_accepted _ engine_run, untouched] at effects
  unfold effectOf runOn at effects
  rw [runTable_eq, accepted, if_neg Bool.false_ne_true, List.map_cons, List.map_nil,
    onEach_singleton] at effects
  cases ran : runRules (ruleStep platform scope) (exactOf rules) (load entity) with
  | none => simp [ran] at effects
  | some result =>
    rw [ran] at effects
    have count : result.2 = 0 := (Option.some.inj (Prod.mk.inj effects).2).symm
    have zero : runRules (ruleStep platform scope) (exactOf rules) (load entity) =
        some (result.1, 0) := by rw [ran, ← count]
    have each_still : ∀ other ∈ exactOf rules, ∀ row left : SessionRow,
        (row.pending = fun _ => none) → ruleStep platform scope other row = some (left, 0) →
          left = row := fun other inside row left clean stepped =>
      exact_still platform scope other (exact_of_mem_exactOf inside)
        (by simpa using List.any_eq_false.mp accepted other inside) row left clean stepped
    have still := runRules_zero (exactOf rules) each_still (load entity) result.1 rfl zero
    exact jsonRule_counts platform scope rule (exact_of_mem_exactOf member) json nonempty differs
      source text freshSource.1 freshText.1 found (still.2 rule member)

theorem appliedAlike_of_effectOf (mapping : List (String × String))
    (all_exact : ∀ rule ∈ rules, rule.isRegex = false) (kept : OrgKept scope rules)
    (writable : ∀ rule ∈ rules, JsonWritable platform rule) (same : ∀ entities,
      effectOf platform scope
          (engineRules platform mapping (exactOf rules) ++ rules.filter NormalizationRule.isRegex)
          entities =
        effectOf platform scope rules entities) : AppliedAlike platform scope rules mapping := by
  have own : exactOf rules = rules :=
    List.filter_eq_self.mpr fun rule member => by simp [all_exact rule member]
  have no_regex : rules.filter NormalizationRule.isRegex = [] :=
    List.filter_eq_nil_iff.mpr fun rule member => by simp [all_exact rule member]
  rw [← own] at kept writable
  have alike : ∀ entities,
      effectOf platform scope (engineRules platform mapping (exactOf rules)) entities =
        effectOf platform scope (exactOf rules) entities := by
    intro entities
    have here := same entities
    rw [no_regex, List.append_nil] at here
    rw [here, own]
  have refusals := refusals_of_effectOf platform scope _ _ (alike [])
  cases accepted : (exactOf rules).any (refused platform) with
  | true =>
    rw [accepted] at refusals
    exact .inl ⟨accepted, refusals⟩
  | false =>
    rw [accepted] at refusals
    have idle_rules : ∀ rule ∈ exactOf rules, JsonIdle platform rule := fun rule member =>
      jsonIdle_of_effectOf platform scope rules mapping kept accepted refusals alike rule member
        (writable rule member)
    have cells := cellsAlike_of_effectOf platform scope (exactOf rules)
      (engineRules platform mapping (exactOf rules)) kept
      (engineRules_orgKept platform scope mapping rules kept)
      (runRules_exact platform scope (exactOf rules)
        (fun rule member => exact_of_mem_exactOf member) accepted idle_rules kept)
      (runRules_engine platform scope mapping rules refusals kept) accepted refusals
      fun entities => (alike entities).symm
    refine .inr ⟨accepted, refusals, idle_rules, cells, kept, ?_⟩
    unfold RegexesApart
    rw [List.pairwise_iff_forall_sublist]
    intro earlier later pair regex
    rw [all_exact earlier (pair.subset List.mem_cons_self)] at regex
    cases regex

/-- The engine's client makes no difference where nothing is delegated or the delegated
updates agree with the rules; without regex rules, and where no rule moves rows out of the
scope, it makes none there only. -/
theorem delegated_equals_local (engine : EngineClient) (threshold : Int)
    (fieldName : Option String) (rules : List NormalizationRule) :
    (DelegationAgrees platform scope engine threshold fieldName rules →
      DelegatedEqualsLocal platform scope engine threshold fieldName rules) ∧
    ((∀ rule ∈ selectRules scope fieldName rules, rule.isRegex = false) →
      OrgKept scope (selectRules scope fieldName rules) →
      (∀ rule ∈ selectRules scope fieldName rules, JsonWritable platform rule) →
      (DelegatedEqualsLocal platform scope engine threshold fieldName rules ↔
        DelegationAgrees platform scope engine threshold fieldName rules)) := by
  have enough : DelegationAgrees platform scope engine threshold fieldName rules →
      DelegatedEqualsLocal platform scope engine threshold fieldName rules := by
    intro agrees entities
    rw [effect_local]
    cases sent : delegation (some engine) threshold (exactOf (selectRules scope fieldName rules)) with
    | none => exact effect_undelegated platform scope engine threshold fieldName rules entities sent
    | some mapping =>
      rw [effect_delegated platform scope engine threshold fieldName rules entities mapping sent]
      exact effectOf_of_appliedAlike platform scope _ mapping (agrees mapping sent) entities
  refine ⟨enough, fun all_exact kept writable => ⟨fun equal mapping sent => ?_, enough⟩⟩
  refine appliedAlike_of_effectOf platform scope _ mapping all_exact kept writable fun entities => ?_
  rw [← effect_delegated platform scope engine threshold fieldName rules entities mapping sent,
    ← effect_local]
  exact equal entities

def objectText (field value : String) : String :=
  "\x7b\"" ++ field ++ "\": \"" ++ value ++ "\"\x7d"

def readObject (json field : String) : Option String :=
  let chars := json.toList.dropWhile fun c => c == ' '
  let opening := ("\x7b\"" ++ field ++ "\": \"").toList
  let value := String.ofList ((chars.drop opening.length).takeWhile fun c => c != '\"')
  if chars = (objectText field value).toList then some value else none

def plainPlatform : Platform where
  readInteger := String.toInt?
  readFloat := fun _ => none
  readMoment := fun _ => none
  classAttribute := fun name => name == "metadata"
  sub := fun pattern replacement text => .text (if text = pattern then replacement else text)
  subAttribute := fun _ => none
  jsonField := readObject
  jsonWith := fun _ field value => objectText field value
  synchronize := fun _ _ pending => some pending

def wordEngine : EngineClient where
  compiles := fun _ => true
  replaceAll := fun pattern replacement text => if text = pattern then replacement else text

def exactRule (fieldName originalValue canonicalValue : String) : NormalizationRule :=
  ⟨none, fieldName, originalValue, canonicalValue, "exact"⟩

def domainRules : List NormalizationRule :=
  [exactRule "domain" "sci" "science", exactRule "brand" "mikrosoft" "mikrosoft"]

def paddedText (blanks : Nat) (field value : String) : String :=
  String.ofList (List.replicate blanks ' ' ++ (objectText field value).toList)

theorem readObject_padded (blanks : Nat) (field value : String) :
    readObject (paddedText blanks field value) field = readObject (objectText field value) field := by
  have skipped : (paddedText blanks field value).toList.dropWhile (fun c => c == ' ') =
      (objectText field value).toList.dropWhile fun c => c == ' ' := by
    unfold paddedText
    rw [String.toList_ofList]
    induction blanks with
    | zero => rfl
    | succ blanks ih => rw [List.replicate_succ, List.cons_append, List.dropWhile_cons_of_pos rfl, ih]
  unfold readObject
  rw [skipped]

theorem paddedText_injective (field value : String) :
    Function.Injective fun blanks => paddedText blanks field value := by
  intro first second same
  have lengths := congrArg List.length (String.ofList_injective same)
  simpa using lengths

theorem readObject_writable (field value : String)
    (read : readObject (objectText field value) field = some value) (avoided : List String) :
    ∃ json, json ∉ avoided ∧ readObject json field = some value := by
  have infinite := Set.infinite_range_of_injective (paddedText_injective field value)
  obtain ⟨json, ⟨blanks, rfl⟩, fresh⟩ := infinite.exists_notMem_finset avoided.toFinset
  exact ⟨_, fun member => fresh (List.mem_toFinset.mpr member),
    (readObject_padded blanks field value).trans read⟩

theorem domainRules_writable :
    ∀ rule ∈ selectRules none none domainRules, JsonWritable plainPlatform rule := by
  intro rule member json _ avoided
  have listed : rule ∈ domainRules := (List.mem_filter.mp member).1
  rcases List.mem_cons.mp listed with rfl | listed
  · have column : plainPlatform.fieldKind "domain" = .column .text := by decide
    rw [exactRule, column] at json
    cases json
  · rw [List.mem_singleton.mp listed]
    exact readObject_writable "brand" "mikrosoft" (by decide) avoided

theorem domainRules_agree : DelegationAgrees plainPlatform none wordEngine 0 none domainRules := by
  intro mapping sent
  have sent_mapping : delegation (some wordEngine) 0 (exactOf (selectRules none none domainRules)) =
      some [("sci", "science")] := by decide
  rw [sent_mapping] at sent
  obtain rfl := Option.some.inj sent
  refine .inr ⟨by decide, by decide, ?_, ?_, .inl rfl, ?_⟩
  · unfold JsonIdle
    decide
  · unfold CellsAlike
    decide
  · unfold RegexesApart
    decide

/-- A domain that the engine rewrites as the rules do. -/
theorem domain_delegated_as_local :
    DelegatedEqualsLocal plainPlatform none wordEngine 0 none domainRules :=
  ((delegated_equals_local plainPlatform none wordEngine 0 none domainRules).2
    (by decide) (.inl rfl) domainRules_writable).mpr domainRules_agree

/-- One rule more than the threshold, all on a field of `normalized_json`. -/
def brandRules : List NormalizationRule :=
  (List.range 101).map fun i => exactRule "brand" ("mikrosoft" ++ toString i) "Microsoft"

theorem brand_json : plainPlatform.fieldKind "brand" = .json := by
  decide

theorem brandRules_selected : selectRules none none brandRules = brandRules := by
  refine List.filter_eq_self.mpr fun rule member => ?_
  obtain ⟨i, -, rfl⟩ := List.mem_map.mp member
  rfl

theorem brandRules_exact : exactOf brandRules = brandRules := by
  refine List.filter_eq_self.mpr fun rule member => ?_
  obtain ⟨i, -, rfl⟩ := List.mem_map.mp member
  rfl

theorem brandRules_unrefused : brandRules.any (refused plainPlatform) = false := by
  rw [List.any_eq_false]
  intro rule member
  obtain ⟨i, -, rfl⟩ := List.mem_map.mp member
  simp [refused, Platform.hasAttribute, exactRule, brand_json]

theorem brandRules_engine : engineRules plainPlatform mapping brandRules = [] := by
  rw [List.eq_nil_iff_forall_not_mem]
  intro rule member
  obtain ⟨attribute_field, origin, inside, same, -⟩ := mem_engineRules plainPlatform member
  obtain ⟨i, -, rfl⟩ := List.mem_map.mp inside
  rw [← same] at attribute_field
  exact attribute_field brand_json

/-- The local path corrects the brand, the delegated one passes over the rules of the field. -/
theorem brand_delegated_otherwise :
    ¬ DelegatedEqualsLocal plainPlatform none wordEngine 100 none brandRules := by
  intro equal
  obtain ⟨mapping, sent⟩ : ∃ mapping, delegation (some wordEngine) 100 brandRules = some mapping := by
    simp [delegation, tryEngineNormalization, EngineClient.processNormalization, brandRules,
      maxDelegationValues]
  have selected : exactOf (selectRules none none brandRules) = brandRules := by
    rw [brandRules_selected, brandRules_exact]
  have no_regex : brandRules.filter NormalizationRule.isRegex = [] := by
    refine List.filter_eq_nil_iff.mpr fun rule member => ?_
    simp [exact_of_mem_exactOf (brandRules_exact.symm ▸ member)]
  have same : ∀ entities,
      effectOf plainPlatform none (engineRules plainPlatform mapping (exactOf brandRules)) entities =
        effectOf plainPlatform none (exactOf brandRules) entities := by
    intro entities
    have effects := equal entities
    rw [effect_delegated plainPlatform none wordEngine 100 none brandRules entities mapping
        (by rw [selected, sent]), effect_local, selected, brandRules_selected, no_regex,
      List.append_nil] at effects
    rw [brandRules_exact, effects]
  have idle_rule := jsonIdle_of_effectOf plainPlatform none brandRules mapping (.inl rfl)
    (by rw [brandRules_exact, brandRules_unrefused])
    (by rw [brandRules_exact, brandRules_engine, List.any_nil]) same
    (exactRule "brand" "mikrosoft0" "Microsoft")
    (by
      rw [brandRules_exact]
      exact List.mem_map.mpr ⟨0, by decide, rfl⟩)
    (fun _ _ => readObject_writable "brand" "mikrosoft0" (by decide))
  rcases idle_rule brand_json with empty | unchanged
  · exact absurd empty (by decide)
  · exact absurd unchanged (by decide)

end Ukip.Normalization.Equivalence
