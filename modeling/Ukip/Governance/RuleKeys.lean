import Ukip.Governance.MappingSuggestions

/-!
# One rule for each field

The acceptance of a suggestion looks for an active rule of the field, while the unique
constraint counts inactive ones too, unless a NULL keeps it out.
-/

namespace Ukip.Governance.RuleKeys

open Foundation.EventRun Foundation.Relational Core.Clock
open Governance.FieldCorrespondence (RuleValues ruleClash)
open MappingSuggestions

abbrev RuleKey := Option Int × Option String × String

def ruleKey (rule : Rule) : RuleKey := (rule.orgId, rule.sourceSchema, rule.sourceField)

def suggestionKey (suggestion : MappingSuggestionRecord) : RuleKey :=
  (suggestion.orgId, suggestion.sourceSchema, suggestion.sourceField)

inductive Event where
  | suggestions (timed : Timed)
  /-- create, or one candidate of the preventive seed -/
  | put (key : RuleKey) (values : RuleValues) (fresh : Rule) (isFresh : ruleKey fresh = key)
  | update (id : Nat) (key : RuleKey) (values : RuleValues)
  | setActive (id : Nat) (orgId : Option Int) (isActive : Bool)

def assignValues (values : RuleValues) (rule : Rule) : Rule :=
  { rule with
    canonicalTarget := values.canonicalTarget
    semanticConcept := values.semanticConcept
    identifierScheme := values.identifierScheme
    confidence := values.confidence
    evidence := values.evidence
    isActive := values.isActive.getD rule.isActive }

def putSet (values : RuleValues) : SetClause ruleSchema where
  apply := assignValues values
  key_apply := fun _ => rfl
  clash_apply := fun _ _ => rfl

def activeSet (isActive : Bool) : SetClause ruleSchema where
  apply := fun rule => { rule with isActive := isActive }
  key_apply := fun _ => rfl
  clash_apply := fun _ _ => rfl

def movedTo (key : RuleKey) (values : RuleValues) : Assignment ruleSchema where
  apply := fun rule =>
    { assignValues values rule with sourceSchema := key.2.1, sourceField := key.2.2 }
  key_apply := fun _ => rfl

/-- `create_field_correspondence_rule` and the seed look the key up whatever the activity. -/
def putRule (rules : SerialTable ruleSchema) (key : RuleKey) (values : RuleValues) (fresh : Rule) :
    Option (SerialTable ruleSchema) :=
  match rules.rows.find? fun rule => ruleKey rule = key with
  | some existing => some (rules.updateWhere (fun rule => rule.id == existing.id) (putSet values))
  | none => rules.insert (assignValues values fresh)

def updateRule (rules : SerialTable ruleSchema) (id : Nat) (key : RuleKey) (values : RuleValues) :
    Option (SerialTable ruleSchema) :=
  match rules.get? id with
  | none => none
  | some rule =>
    if rule.orgId = key.1 then
      rules.updateChecked (fun stored => stored.id == rule.id) (movedTo key values)
    else none

variable (vocabulary : Vocabulary)

/-- A request that fails is rolled back. -/
def advance (db : Db) : Event → Db
  | .suggestions timed => step vocabulary db timed
  | .put key values fresh _ => { db with rules := (putRule db.rules key values fresh).getD db.rules }
  | .update id key values => { db with rules := (updateRule db.rules id key values).getD db.rules }
  | .setActive id orgId isActive =>
    { db with
      rules := db.rules.updateWhere (fun rule => rule.id == id && rule.orgId == orgId)
        (activeSet isActive) }

def KeysApart (db : Db) : Prop := SerialTable.OnePerLabel (fun rule => some (ruleKey rule)) db.rules

/-- The suggestion that an event accepts, as long as it is open. -/
def accepting (db : Db) : Event → Option (MappingSuggestionRecord × Nat × Time)
  | .suggestions ⟨now, .accept id reviewerId⟩ =>
    ((db.suggestions.get? id).filter fun suggestion =>
      suggestion.status ≠ .accepted && suggestion.status ≠ .superseded).map fun suggestion =>
        (suggestion, reviewerId, now)
  | _ => none

/-- An acceptance meets no integrity error and leaves one active rule for its key, and no two
rules have one key. -/
def RuleStands (db : Db) (event : Event) : Prop :=
  (∀ suggestion reviewerId now, accepting db event = some (suggestion, reviewerId, now) →
    (upsertRule db suggestion reviewerId now).isSome ∧
      ∃ rule ∈ (advance vocabulary db event).rules.rows, (rule.isActive = true ∧
        ruleKey rule = suggestionKey suggestion) ∧
        ∀ other ∈ (advance vocabulary db event).rules.rows, other.isActive = true →
          ruleKey other = suggestionKey suggestion → other = rule) ∧
  KeysApart (advance vocabulary db event)

/-- No inactive rule has the key of an accepted suggestion, and no rule takes another one's key
that the constraint does not guard. -/
def Unblocked (db : Db) (event : Event) : Prop :=
  (∀ suggestion reviewerId now, accepting db event = some (suggestion, reviewerId, now) →
    ∀ rule ∈ db.rules.rows, ruleKey rule = suggestionKey suggestion → rule.isActive = true) ∧
  ∀ id key values, event = .update id key values → (updateRule db.rules id key values).isSome →
    ∀ other ∈ db.rules.rows, ruleKey other = key → other.id = id

variable {db : Db}

theorem keysApart_iff : KeysApart db ↔ ∀ first ∈ db.rules.rows, ∀ second ∈ db.rules.rows,
    ruleKey first = ruleKey second → first = second := by
  constructor
  · exact fun apart first firstIn second secondIn same =>
      apart first firstIn second secondIn _ (congrArg some same) rfl
  · intro apart first firstIn second secondIn shown firstShows secondShows
    exact apart first firstIn second secondIn (Option.some.inj (firstShows.trans secondShows.symm))

theorem keysApart_updateWhere {matched : Rule → Bool} {set : SetClause ruleSchema}
    (kept : ∀ rule, ruleKey (set.apply rule) = ruleKey rule) (apart : KeysApart db) :
    KeysApart { db with rules := db.rules.updateWhere matched set } := by
  refine SerialTable.onePerLabel_updateWhere db.rules matched set (fun row _ shown shows => ?_) apart
  have same : ruleKey row = ruleKey (set.onRow matched row) := by
    unfold SetClause.onRow
    split
    · exact (kept row).symm
    · rfl
  rw [← shows]
  exact congrArg some same

theorem keysApart_insert {row : Rule} {rules : SerialTable ruleSchema}
    (inserted : db.rules.insert row = some rules) (apart : KeysApart db) :
    KeysApart { db with rules := rules } ↔ ∀ rule ∈ db.rules.rows, ruleKey rule ≠ ruleKey row := by
  obtain ⟨accepted, rfl⟩ := (db.rules.insert_eq_some_iff rules row).mp inserted
  refine (SerialTable.onePerLabel_append_iff db.rules row accepted).trans ?_
  refine (and_iff_right apart).trans ?_
  constructor
  · exact fun free rule member same => free _ rfl rule member (congrArg some same)
  · rintro free shown ⟨⟩ rule member same
    exact free rule member (Option.some.inj same)

theorem insert_isSome {row : Rule} (free : ∀ rule ∈ db.rules.rows, ruleKey rule ≠ ruleKey row) :
    (db.rules.insert row).isSome := by
  rw [Option.isSome_iff_ne_none, ne_eq, SerialTable.insert_eq_none_iff, Bool.not_eq_true]
  refine List.any_eq_false.mpr fun rule member clash => ?_
  simp only [ruleSchema, ruleClash, Bool.and_eq_true, decide_eq_true_eq] at clash
  obtain ⟨_, org, schema, field⟩ := clash
  exact free rule member (by rw [ruleKey, ruleKey, org, schema, field])

theorem keysApart_put {key : RuleKey} {values : RuleValues} {fresh : Rule}
    (isFresh : ruleKey fresh = key) (apart : KeysApart db) :
    KeysApart { db with rules := (putRule db.rules key values fresh).getD db.rules } := by
  unfold putRule
  split
  · exact keysApart_updateWhere (fun _ => rfl) apart
  · next absent =>
      have free : ∀ rule ∈ db.rules.rows, ruleKey rule ≠ ruleKey (assignValues values fresh) := by
        intro rule member same
        have missing := List.find?_eq_none.mp absent rule member
        exact missing (decide_eq_true (same.trans isFresh))
      obtain ⟨rules, inserted⟩ := Option.isSome_iff_exists.mp (insert_isSome free)
      rw [inserted, Option.getD_some]
      exact (keysApart_insert inserted apart).mpr free

theorem keysApart_update {id : Nat} {key : RuleKey} {values : RuleValues} (apart : KeysApart db) :
    KeysApart { db with rules := (updateRule db.rules id key values).getD db.rules } ↔
      ((updateRule db.rules id key values).isSome →
        ∀ other ∈ db.rules.rows, ruleKey other = key → other.id = id) := by
  cases updated : updateRule db.rules id key values with
  | none => exact iff_of_true apart (fun never => nomatch never)
  | some rules =>
    simp only [Option.isSome_some, forall_const, Option.getD_some]
    unfold updateRule at updated
    split at updated
    · cases updated
    next target found =>
      split at updated
      · next inScope =>
          obtain ⟨targetIn, targetId⟩ := (db.rules.get?_eq_some_iff id target).mp found
          have rows := SerialTable.rows_updateChecked updated
          have moves {rule : Rule} (isTarget : rule.id = id) :
              (movedTo key values).onRow (fun stored => stored.id == target.id) rule =
                (movedTo key values).apply rule :=
            if_pos (beq_iff_eq.mpr (isTarget.trans targetId.symm))
          have stays {rule : Rule} (other : rule.id ≠ id) :
              (movedTo key values).onRow (fun stored => stored.id == target.id) rule = rule :=
            if_neg fun same => other ((beq_iff_eq.mp same).trans targetId)
          have movedKey {rule : Rule} (ruleIn : rule ∈ db.rules.rows) (isTarget : rule.id = id) :
              ruleKey ((movedTo key values).apply rule) = key := by
            obtain rfl := db.rules.eq_of_key_eq ruleIn targetIn (isTarget.trans targetId.symm)
            exact Prod.ext inScope rfl
          rw [keysApart_iff, rows, List.forall_mem_map]
          simp only [List.forall_mem_map]
          constructor
          · intro after other otherIn sameKey
            by_contra different
            have same := after other otherIn target targetIn (by
              rw [stays different, moves targetId, movedKey targetIn targetId, sameKey])
            rw [stays different, moves targetId] at same
            exact different (same ▸ targetId)
          · intro free first firstIn second secondIn same
            by_cases isFirst : first.id = id
            · by_cases isSecond : second.id = id
              · rw [db.rules.eq_of_key_eq firstIn secondIn (isFirst.trans isSecond.symm)]
              · rw [moves isFirst, movedKey firstIn isFirst, stays isSecond] at same
                exact absurd (free second secondIn same.symm) isSecond
            · by_cases isSecond : second.id = id
              · rw [moves isSecond, movedKey secondIn isSecond, stays isFirst] at same
                exact absurd (free first firstIn same) isFirst
              · rw [stays isFirst, stays isSecond] at same ⊢
                exact keysApart_iff.mp apart first firstIn second secondIn same
      · cases updated

variable {suggestion : MappingSuggestionRecord}

theorem ruleFor_iff {rule : Rule} :
    ruleFor suggestion.sourceField suggestion.sourceSchema suggestion.orgId rule = true ↔
      rule.isActive = true ∧ ruleKey rule = suggestionKey suggestion := by
  simp only [ruleFor, ruleKey, suggestionKey, Bool.and_eq_true, beq_iff_eq, Prod.mk.injEq]
  constructor
  · rintro ⟨⟨⟨field, active⟩, schema⟩, org⟩
    exact ⟨active, org, schema, field⟩
  · rintro ⟨active, org, schema, field⟩
    exact ⟨⟨⟨field, active⟩, schema⟩, org⟩

def newer (best : Option Rule) (rule : Rule) : Option Rule :=
  match best with
  | none => some rule
  | some other => if other.id < rule.id then some rule else some other

theorem foldl_newer (rules : List Rule) (first : Rule) :
    ∃ rule ∈ first :: rules, rules.foldl newer (some first) = some rule := by
  induction rules generalizing first with
  | nil => exact ⟨first, List.mem_cons_self, rfl⟩
  | cons next rest ih =>
    have picked : newer (some first) next = some next ∨ newer (some first) next = some first :=
      ite_eq_or_eq (first.id < next.id) (some next) (some first)
    rw [List.foldl_cons]
    rcases picked with here | here
    · rw [here]
      obtain ⟨rule, member, found⟩ := ih next
      exact ⟨rule, List.mem_cons_of_mem first member, found⟩
    · rw [here]
      obtain ⟨rule, member, found⟩ := ih first
      exact ⟨rule, (List.mem_cons.mp member).elim (fun same => same ▸ List.mem_cons_self)
        fun later => List.mem_cons_of_mem first (List.mem_cons_of_mem next later), found⟩

theorem findActiveRule_cases (db : Db) (suggestion : MappingSuggestionRecord) :
    (∃ rule ∈ db.rules.rows, (rule.isActive = true ∧ ruleKey rule = suggestionKey suggestion) ∧
      findActiveRule db suggestion.sourceField suggestion.sourceSchema suggestion.orgId = some rule) ∨
    (findActiveRule db suggestion.sourceField suggestion.sourceSchema suggestion.orgId = none ∧
      ∀ rule ∈ db.rules.rows, ¬(rule.isActive = true ∧ ruleKey rule = suggestionKey suggestion)) := by
  simp only [← ruleFor_iff]
  change (∃ rule ∈ db.rules.rows, _ ∧ List.foldl newer none _ = some rule) ∨
    (List.foldl newer none _ = none ∧ _)
  cases candidates : db.rules.rows.filter
      (ruleFor suggestion.sourceField suggestion.sourceSchema suggestion.orgId) with
  | nil => exact .inr ⟨rfl, fun rule member => List.filter_eq_nil_iff.mp candidates rule member⟩
  | cons first rest =>
    obtain ⟨rule, member, found⟩ := foldl_newer rest first
    rw [← candidates] at member
    obtain ⟨stored, matches_⟩ := List.mem_filter.mp member
    exact .inl ⟨rule, stored, matches_, found⟩

theorem rules_acceptSuggestion {id reviewerId : Nat} {now : Time}
    (opened : accepting db (.suggestions ⟨now, .accept id reviewerId⟩) =
      some (suggestion, reviewerId, now)) :
    acceptSuggestion db now id reviewerId =
      match upsertRule db suggestion reviewerId now with
      | none => db
      | some rules => { setSuggestion db id (acceptSet now reviewerId) with rules := rules } := by
  simp only [accepting, Option.map_eq_some_iff, Option.filter_eq_some_iff] at opened
  obtain ⟨_, ⟨found, stillOpen⟩, same⟩ := opened
  cases same
  have pending : ¬(suggestion.status = .accepted ∨ suggestion.status = .superseded) := by
    simpa using stillOpen
  rw [acceptSuggestion, found]
  refine (if_neg pending).trans ?_
  cases upsertRule db suggestion reviewerId now <;> rfl

/-- An open suggestion is accepted as it should be exactly where no inactive rule has its key. -/
theorem upsert_stands_iff (apart : KeysApart db) (suggestion : MappingSuggestionRecord)
    (reviewerId : Nat) (now : Time) :
    (∃ rules, upsertRule db suggestion reviewerId now = some rules ∧
      (∃ rule ∈ rules.rows, rule.isActive = true ∧ ruleKey rule = suggestionKey suggestion) ∧
      KeysApart { db with rules := rules }) ↔
    ∀ rule ∈ db.rules.rows, ruleKey rule = suggestionKey suggestion → rule.isActive = true := by
  unfold upsertRule
  rcases findActiveRule_cases db suggestion with ⟨rule, stored, ⟨active, sameKey⟩, found⟩ | ⟨found, free⟩
  · rw [found]
    refine iff_of_true ⟨_, rfl, ⟨assigned suggestion reviewerId now rule, ?_, rfl, sameKey⟩,
      keysApart_updateWhere (fun _ => rfl) apart⟩ fun other otherIn same => ?_
    · exact (db.rules.mem_updateWhere _ _ _).mpr ⟨rule, stored, if_pos (beq_self_eq_true _)⟩
    · rw [keysApart_iff.mp apart other otherIn rule stored (same.trans sameKey.symm)]
      exact active
  · rw [found]
    have newKey : ruleKey (assigned suggestion reviewerId now (newRule suggestion now)) =
        suggestionKey suggestion := rfl
    constructor
    · rintro ⟨rules, inserted, _, after⟩ rule stored same
      exact absurd (same.trans newKey.symm) ((keysApart_insert inserted apart).mp after rule stored)
    · intro active
      have absent : ∀ rule ∈ db.rules.rows,
          ruleKey rule ≠ ruleKey (assigned suggestion reviewerId now (newRule suggestion now)) :=
        fun rule stored same => free rule stored ⟨active rule stored same, same⟩
      obtain ⟨rules, inserted⟩ := Option.isSome_iff_exists.mp (insert_isSome absent)
      refine ⟨rules, inserted, ?_, (keysApart_insert inserted apart).mpr absent⟩
      obtain ⟨accepted, rfl⟩ := (db.rules.insert_eq_some_iff rules _).mp inserted
      exact ⟨_, (db.rules.mem_append _ _ accepted).mpr (.inr rfl), rfl, rfl⟩

theorem rules_generate (db : Db) (now : Time) (profile : SourceProfile) (orgId : Option Int)
    (importBatchId : Option Nat) :
    (generateSuggestions vocabulary db now profile orgId importBatchId).rules = db.rules := by
  unfold generateSuggestions
  generalize profile.fieldProfiles = fields
  dsimp only
  generalize vocabulary.inferSourceSchema profile.sourceFormat _ = sourceSchema
  induction fields generalizing db with
  | nil => rfl
  | cons field rest ih =>
    rw [List.foldl_cons, ih]
    unfold generateField
    split
    · rfl
    · exact rules_persist db _

theorem keysApart_congr {after : Db} (same : after.rules = db.rules) (apart : KeysApart db) :
    KeysApart after := by
  rw [KeysApart, same]
  exact apart

theorem stands_iff (db : Db) (event : Event) (apart : KeysApart db) :
    RuleStands vocabulary db event ↔ Unblocked db event := by
  have quiet (none : accepting db event = none) (kept : KeysApart (advance vocabulary db event))
      (plain : ∀ id key values, event ≠ .update id key values) :
      RuleStands vocabulary db event ↔ Unblocked db event := by
    simp only [RuleStands, Unblocked, none, reduceCtorEq, false_imp_iff, implies_true, true_and]
    exact iff_of_true kept fun id key values same => absurd same (plain id key values)
  cases event with
  | put key values fresh isFresh => exact quiet rfl (keysApart_put isFresh apart) nofun
  | setActive id orgId isActive => exact quiet rfl (keysApart_updateWhere (fun _ => rfl) apart) nofun
  | update id key values =>
    simp only [RuleStands, Unblocked, accepting, reduceCtorEq, false_imp_iff, implies_true, true_and]
    refine (keysApart_update apart).trans ⟨?_, fun free => free id key values rfl⟩
    rintro free _ _ _ ⟨⟩
    exact free
  | suggestions timed =>
    obtain ⟨now, operation⟩ := timed
    cases operation with
    | generate profile orgId importBatchId =>
      exact quiet rfl (keysApart_congr (rules_generate vocabulary db now profile orgId
        importBatchId) apart) nofun
    | reject id rationale reviewerId =>
      refine quiet rfl (keysApart_congr ?_ apart) nofun
      change (rejectSuggestion db now id rationale reviewerId).rules = db.rules
      unfold rejectSuggestion
      split
      · rfl
      · split <;> rfl
    | supersede oldId newId =>
      refine quiet rfl (keysApart_congr ?_ apart) nofun
      change (supersedeSuggestion db now oldId newId).rules = db.rules
      unfold supersedeSuggestion
      split <;> rfl
    | accept id reviewerId =>
      cases opened : accepting db (.suggestions ⟨now, .accept id reviewerId⟩) with
      | none =>
        refine quiet opened (keysApart_congr ?_ apart) nofun
        change (acceptSuggestion db now id reviewerId).rules = db.rules
        unfold acceptSuggestion
        split
        · rfl
        · next suggestion found =>
            rw [if_pos]
            by_contra pending
            refine pending (Decidable.or_iff_not_imp_left.mpr ?_)
            simpa [accepting, found] using opened
      | some asked =>
        obtain ⟨suggestion, reviewer, moment⟩ := asked
        have same : reviewer = reviewerId ∧ moment = now := by
          simp only [accepting, Option.map_eq_some_iff, Prod.mk.injEq] at opened
          obtain ⟨_, _, _, rfl, rfl⟩ := opened
          exact ⟨rfl, rfl⟩
        obtain ⟨rfl, rfl⟩ := same
        have moved : advance vocabulary db (.suggestions ⟨moment, .accept id reviewer⟩) = _ :=
          rules_acceptSuggestion opened
        have noUpdate : ∀ other key values, Event.suggestions ⟨moment, .accept id reviewer⟩ ≠
            .update other key values := nofun
        have asks (holds : MappingSuggestionRecord → Nat → Time → Prop) :
            (∀ asked judge moment',
              some (suggestion, reviewer, moment) = some (asked, judge, moment') →
              holds asked judge moment') ↔ holds suggestion reviewer moment :=
          ⟨fun all => all _ _ _ rfl, by rintro here _ _ _ ⟨⟩; exact here⟩
        rw [RuleStands, Unblocked, opened, asks, asks]
        simp only [noUpdate, false_imp_iff, implies_true, and_true]
        refine Iff.trans ?_ (upsert_stands_iff apart suggestion reviewer moment)
        rw [moved]
        cases upsertRule db suggestion reviewer moment with
        | none => simp
        | some rules =>
          simp only [Option.isSome_some, true_and, Option.some.injEq, exists_eq_left']
          constructor
          · rintro ⟨⟨rule, stored, shows, _⟩, after⟩
            exact ⟨⟨rule, stored, shows⟩, keysApart_congr rfl after⟩
          · rintro ⟨⟨rule, stored, shows⟩, after⟩
            refine ⟨⟨rule, stored, shows, fun other otherIn _ same => ?_⟩, keysApart_congr rfl after⟩
            exact keysApart_iff.mp after other otherIn rule stored (same.trans shows.2.symm)

theorem rules_stand_iff (vocabulary : Vocabulary) (events : List Event) :
    EveryStep (advance vocabulary) (RuleStands vocabulary) emptyDb events ↔
      EveryStep (advance vocabulary) Unblocked emptyDb events :=
  everyStep_iff_everyStep
    (fun db event apart meets => ((stands_iff vocabulary db event apart).mpr meets).2)
    (stands_iff vocabulary) emptyDb events SerialTable.onePerLabel_empty

def csvVocabulary : Vocabulary :=
  { nameVocabulary with inferSourceSchema := fun _ _ => some "csv" }

/-- The steward retires the rule of `title`, and a second upload proposes it anew. -/
def mappedAgain : List Event :=
  [.suggestions ⟨0, .generate ⟨"upload-1", "csv", [⟨"title", [], [], []⟩]⟩ (some 7) none⟩,
    .suggestions ⟨1, .accept 1 7⟩, .setActive 1 (some 7) false,
    .suggestions ⟨2, .generate ⟨"upload-2", "csv", [⟨"title", [], [], []⟩]⟩ (some 7) none⟩]

theorem retired_rule_blocks_acceptance :
    ¬ EveryStep (advance csvVocabulary) (RuleStands csvVocabulary) emptyDb
      (mappedAgain ++ [.suggestions ⟨3, .accept 2 7⟩]) := by
  intro every
  have last := ((everyStep_append emptyDb mappedAgain _).mp every).2.1.1
  have refused : (accepting (runEvents (advance csvVocabulary) emptyDb mappedAgain)
      (.suggestions ⟨3, .accept 2 7⟩)).any (fun asked =>
        (upsertRule (runEvents (advance csvVocabulary) emptyDb mappedAgain) asked.1 asked.2.1
          asked.2.2).isNone) = true := by
    decide +kernel
  obtain ⟨⟨suggestion, reviewer, moment⟩, asked, blocked⟩ := (Option.any_eq_true _ _).mp refused
  have accepted := (last suggestion reviewer moment asked).1
  rw [Option.isNone_iff_eq_none.mp blocked] at accepted
  cases accepted

end Ukip.Governance.RuleKeys
