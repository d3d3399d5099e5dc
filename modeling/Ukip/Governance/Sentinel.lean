import Ukip.Governance.FieldCorrespondence

/-!
# Stored organizations

Every stored organization is one that exists, so none is the sentinel of the legacy
scope, as long as no admin without an organization creates or seeds rules and no rule
writes anything else into `org_id`.  Foreign keys that are enforced rule both out.
-/

namespace Ukip.Governance.Sentinel

open Foundation.EventRun Foundation.Relational FieldCorrespondence Tenancy.Access

variable (platform : Platform)

/-- Every stored `org_id` is NULL or the id of a stored organization. -/
structure OrganizationsNamed (db : GovernanceDb) : Prop where
  rules : ∀ rule ∈ db.rules.rows, namesOrganization db.directory.organizations rule.orgId = true
  entities : ∀ entity ∈ db.entities,
    namesOrganizationValue db.directory.organizations entity.orgId = true
  logs : ∀ log ∈ db.logs, namesOrganization db.directory.organizations log.orgId = true

/-- No stored row has the sentinel, and all of them name an organization or none. -/
def SentinelFree (db : GovernanceDb) : Prop :=
  (∀ rule ∈ db.rules.rows, rule.orgId ≠ some legacyGlobalOrgId) ∧
    (∀ entity ∈ db.entities, entity.orgId ≠ some (.id legacyGlobalOrgId)) ∧
      (∀ log ∈ db.logs, log.orgId ≠ some legacyGlobalOrgId) ∧ OrganizationsNamed db

variable (organizations : List Organization)

theorem legacy_not_named : namesOrganization organizations (some legacyGlobalOrgId) = false := by
  rw [namesOrganization, List.any_eq_false]
  intro org _ same
  exact organization_ne_legacy org.id (beq_iff_eq.mp same)

theorem sentinelFree_iff (db : GovernanceDb) : SentinelFree db ↔ OrganizationsNamed db := by
  constructor
  · rintro ⟨_, _, _, named⟩
    exact named
  · intro named
    have unnamed := legacy_not_named db.directory.organizations
    refine ⟨fun rule member sentinel => ?_, fun entity member sentinel => ?_,
      fun log member sentinel => ?_, named⟩
    · have := named.rules rule member
      rw [sentinel, unnamed] at this
      cases this
    · have := named.entities entity member
      rw [sentinel, namesOrganizationValue, unnamed] at this
      cases this
    · have := named.logs log member
      rw [sentinel, unnamed] at this
      cases this

/-- An administrator whose scope is the sentinel. -/
def LacksOrganization (user : User) : Prop := user.role = .admin ∧ user.orgId = none

def candidates (db : GovernanceDb) (scope : Option Int) (rule : FieldCorrespondenceRule)
    (payload : ApplyPayload) : List Entity :=
  (db.entities.filter (isCandidate platform scope rule.sourceField)).take payload.limit

/-- Applying a rule to `org_id` raises, or writes existing organizations only. -/
def WritesOrganizations (db : GovernanceDb) (scope : Option Int)
    (rule : FieldCorrespondenceRule) (payload : ApplyPayload) : Prop :=
  (∃ entity ∈ candidates platform db scope rule payload,
      candidateOutcome platform rule "org_id" payload.overwriteExisting entity = none) ∨
    ∀ entity ∈ candidates platform db scope rule payload, ∀ text,
      candidateOutcome platform rule "org_id" payload.overwriteExisting entity =
          some (.write text) →
        namesOrganizationValue db.directory.organizations (some (storedOrgValue platform text)) = true

/-- The request stores nothing, or foreign keys are enforced, or it stores no sentinel as
a scope and no text that is no organization. -/
def StoresOrganizations (db : GovernanceDb) : GovernanceRequest → Prop
  | .create user payload commits =>
    platform.enforcesForeignKeys = true ∨ commits = false ∨ payload.valid = false ∨
      ¬ LacksOrganization user
  | .seed user commits =>
    platform.enforcesForeignKeys = true ∨ commits = false ∨ ¬ LacksOrganization user
  | .apply user ruleId payload commits =>
    platform.enforcesForeignKeys = true ∨ commits = false ∨ payload.valid = false ∨
      payload.dryRun = true ∨
      ∀ scope rule, applicableRule platform db user ruleId = .ok (scope, rule, "org_id") →
        WritesOrganizations platform db scope rule payload

theorem authorized_scope (directory : Directory) (user : User) (scope : Option Int)
    (resolved : authorized directory user = .ok scope) :
    (LacksOrganization user ∧ scope = some legacyGlobalOrgId) ∨
      (¬ LacksOrganization user ∧ namesOrganization directory.organizations scope = true) := by
  unfold authorized at resolved
  split at resolved
  · cases resolved
  rename_i governs
  rcases requestScope_cases directory user scope resolved with
    ⟨none, super, rfl⟩ | ⟨none, notSuper, rfl⟩ | ⟨orgId, belongs, rfl, org, member, sameId⟩
  · refine .inr ⟨fun lacks => ?_, rfl⟩
    have admin := lacks.1
    rw [super] at admin
    cases admin
  · refine .inl ⟨⟨?_, none⟩, rfl⟩
    cases role : user.role with
    | superAdmin => exact absurd role notSuper
    | admin => rfl
    | editor => simp [mayGovern, role] at governs
    | viewer => simp [mayGovern, role] at governs
  · refine .inr ⟨fun lacks => ?_, ?_⟩
    · rw [lacks.2] at belongs
      cases belongs
    · rw [namesOrganization, List.any_eq_true]
      exact ⟨org, member, by simp [sameId]⟩

theorem authorized_of_lacks (directory : Directory) (user : User)
    (lacks : LacksOrganization user) :
    authorized directory user = .ok (some legacyGlobalOrgId) := by
  simp [authorized, mayGovern, lacks.1, requestScope, resolveRequestOrgId, lacks.2]

theorem upsertRule_named (rules after : RuleTable) (scope : Option Int) (schema : Option String)
    (field : String) (values : RuleValues) (fresh : FieldCorrespondenceRule)
    (freshScope : fresh.orgId = scope)
    (named : ∀ rule ∈ rules.rows, namesOrganization organizations rule.orgId = true)
    (allowed : platform.enforcesForeignKeys = true ∨ namesOrganization organizations scope = true)
    (upserted : upsertRule platform organizations rules scope schema field values fresh =
      some after) : ∀ rule ∈ after.rows, namesOrganization organizations rule.orgId = true := by
  unfold upsertRule at upserted
  split at upserted
  · rw [← Option.some.inj upserted]
    refine (SerialTable.forall_updateWhere_iff _ rules _ _).mpr ?_
    intro rule member
    unfold SetClause.onRow
    split
    · exact named rule member
    · exact named rule member
  · split at upserted
    · cases upserted
    rename_i accepted
    obtain ⟨unclashing, rfl⟩ := (SerialTable.insert_eq_some_iff rules after _).mp upserted
    refine (SerialTable.forall_append_iff _ rules _ unclashing).mpr ⟨named, ?_⟩
    change namesOrganization organizations fresh.orgId = true
    rw [freshScope]
    rcases allowed with enforced | names
    · simpa [refusesOrg, enforced] using accepted
    · exact names

variable (scope : Option Int)

theorem seedRules_named (userId : Nat) (wanted : List RuleCandidate) (rules after : RuleTable)
    (created total : Nat)
    (named : ∀ rule ∈ rules.rows, namesOrganization organizations rule.orgId = true)
    (allowed : platform.enforcesForeignKeys = true ∨ namesOrganization organizations scope = true)
    (seeded : seedRules platform organizations scope userId wanted rules created =
      some (after, total)) :
    ∀ rule ∈ after.rows, namesOrganization organizations rule.orgId = true := by
  induction wanted generalizing rules created with
  | nil =>
    obtain ⟨rfl, _⟩ := Prod.mk.inj (Option.some.inj seeded)
    exact named
  | cons candidate rest ih =>
    unfold seedRules at seeded
    split at seeded
    · cases seeded
    rename_i next upserted
    refine ih next _ ?_ seeded
    exact upsertRule_named platform organizations rules next scope candidate.sourceSchema
      candidate.sourceField (candidateValues candidate) _ rfl named allowed upserted

theorem upsertRule_stores (rules : RuleTable) (scope : Option Int) (schema : Option String)
    (field : String) (values : RuleValues) (userId : Nat) (isActive : Bool)
    (unenforced : platform.enforcesForeignKeys = false) :
    ∃ after, upsertRule platform organizations rules scope schema field values
        (freshRule scope schema field userId isActive) = some after ∧
      ∃ rule ∈ after.rows, rule.orgId = scope := by
  unfold upsertRule
  cases found : rules.rows.find? (isRuleOf scope schema field) with
  | some existing =>
    refine ⟨_, rfl, (assignRule values).onRow (fun rule => rule.id == existing.id) existing,
      (SerialTable.mem_updateWhere _ _ _ _).mpr
        ⟨existing, List.mem_of_find?_eq_some found, rfl⟩, ?_⟩
    have matching := List.find?_some found
    simp only [isRuleOf, decide_eq_true_eq] at matching
    simpa [SetClause.onRow, assignRule] using matching.1
  | none =>
    have unclashing : rules.rejects
        ((assignRule values).apply (freshRule scope schema field userId isActive)) = false := by
      rw [SerialTable.rejects, List.any_eq_false]
      intro rule member clashes
      have absent := List.find?_eq_none.mp found rule member
      refine absent ?_
      have same : ruleClash rule ((assignRule values).apply
        (freshRule scope schema field userId isActive)) = true := clashes
      simp only [ruleClash, Bool.and_eq_true, decide_eq_true_eq] at same
      simp only [isRuleOf, decide_eq_true_eq]
      exact same.2
    refine ⟨rules.append _ unclashing, ?_, rules.keyed _,
      (SerialTable.mem_append _ _ _ unclashing).mpr (.inr rfl), rfl⟩
    simp only [refusesOrg, unenforced, Bool.false_and, Bool.false_eq_true, if_false]
    exact (SerialTable.insert_eq_some_iff rules _ _).mpr ⟨unclashing, rfl⟩

theorem seedRules_stores (userId : Nat) (wanted : List RuleCandidate) (rules : RuleTable)
    (created : Nat) (unenforced : platform.enforcesForeignKeys = false)
    (stored : wanted ≠ [] ∨ ∃ rule ∈ rules.rows, rule.orgId = scope) :
    ∃ after total, seedRules platform organizations scope userId wanted rules created =
        some (after, total) ∧ ∃ rule ∈ after.rows, rule.orgId = scope := by
  induction wanted generalizing rules created with
  | nil => exact ⟨rules, created, rfl, stored.resolve_left fun nonempty => nonempty rfl⟩
  | cons candidate rest ih =>
    obtain ⟨next, upserted, found⟩ := upsertRule_stores platform organizations rules scope
      candidate.sourceSchema candidate.sourceField (candidateValues candidate) userId false
      unenforced
    unfold seedRules
    simp only [upserted]
    exact ih next _ (.inr found)

theorem storeAttribute_named (target text : String) (entity stored : Entity)
    (named : namesOrganizationValue organizations entity.orgId = true)
    (allowed : platform.enforcesForeignKeys = true ∨ target ≠ "org_id" ∨
      namesOrganizationValue organizations (some (storedOrgValue platform text)) = true)
    (stores : storeAttribute platform organizations target text entity = some stored) :
    namesOrganizationValue organizations stored.orgId = true := by
  unfold storeAttribute at stores
  split at stores
  · obtain ⟨value, _, rfl⟩ := Option.map_eq_some_iff.mp stores
    exact named
  · split at stores
    · rename_i isOrg
      simp only at stores
      split at stores
      · cases stores
      rename_i accepted
      rw [← Option.some.inj stores]
      rcases allowed with enforced | other | names
      · simpa [enforced] using accepted
      · exact absurd isOrg other
      · exact names
    · split at stores
      · rw [← Option.some.inj stores]
        exact named
      · rw [← Option.some.inj stores]
        exact named

variable (rule : FieldCorrespondenceRule) (target : String) (overwrite : Bool)

theorem storeCandidate_cases (entity stored : Entity)
    (stores : storeCandidate platform organizations rule target overwrite entity = some stored) :
    stored = entity ∨ ∃ text,
      candidateOutcome platform rule target overwrite entity = some (.write text) ∧
        storeAttribute platform organizations target text entity = some stored := by
  obtain ⟨outcome, outcomeIs, next⟩ := Option.bind_eq_some_iff.mp stores
  cases outcome with
  | write text => exact .inr ⟨text, outcomeIs, next⟩
  | absent => exact .inl (Option.some.inj next).symm
  | missingValue => exact .inl (Option.some.inj next).symm
  | existing => exact .inl (Option.some.inj next).symm

theorem storeWrites_source (limit : Nat) (entities after : List Entity)
    (stores : storeWrites platform organizations scope rule target overwrite limit entities =
      some after) :
    ∀ stored ∈ after, stored ∈ entities ∨
      ∃ entity ∈ (entities.filter (isCandidate platform scope rule.sourceField)).take limit,
        ∃ text, candidateOutcome platform rule target overwrite entity = some (.write text) ∧
          storeAttribute platform organizations target text entity = some stored := by
  induction entities generalizing limit after with
  | nil =>
    unfold storeWrites at stores
    rw [← Option.some.inj stores]
    intro stored member
    cases member
  | cons entity rest ih =>
    cases limit with
    | zero =>
      rw [← Option.some.inj stores]
      exact fun stored member => .inl member
    | succ limit =>
      unfold storeWrites at stores
      split at stores
      · rename_i candidate
        rw [List.filter_cons_of_pos candidate, List.take_succ_cons]
        obtain ⟨head, headStored, tail⟩ := Option.bind_eq_some_iff.mp stores
        obtain ⟨others, othersStored, rfl⟩ := Option.map_eq_some_iff.mp tail
        intro stored member
        rcases List.mem_cons.mp member with rfl | later
        · rcases storeCandidate_cases platform organizations rule target overwrite entity stored
            headStored with rfl | written
          · exact .inl List.mem_cons_self
          · exact .inr ⟨entity, List.mem_cons_self, written⟩
        · rcases ih limit others othersStored stored later with old | ⟨source, isSource, written⟩
          · exact .inl (List.mem_cons_of_mem entity old)
          · exact .inr ⟨source, List.mem_cons_of_mem entity isSource, written⟩
      · rename_i notCandidate
        rw [List.filter_cons_of_neg notCandidate]
        obtain ⟨others, othersStored, rfl⟩ := Option.map_eq_some_iff.mp stores
        intro stored member
        rcases List.mem_cons.mp member with rfl | later
        · exact .inl List.mem_cons_self
        · rcases ih (limit + 1) others othersStored stored later with old | written
          · exact .inl (List.mem_cons_of_mem entity old)
          · exact .inr written

theorem storeWrites_stores (limit : Nat) (entities : List Entity) (taken : ∀ text entity, ∃ stored,
      storeAttribute platform organizations target text entity = some stored) (sound : ∀ entity ∈
        (entities.filter (isCandidate platform scope rule.sourceField)).take limit,
      candidateOutcome platform rule target overwrite entity ≠ none) :
    ∃ after, storeWrites platform organizations scope rule target overwrite limit entities =
        some after ∧
      ∀ entity ∈ (entities.filter (isCandidate platform scope rule.sourceField)).take limit,
        ∀ text, candidateOutcome platform rule target overwrite entity = some (.write text) →
          ∃ stored ∈ after,
            storeAttribute platform organizations target text entity = some stored := by
  induction entities generalizing limit with
  | nil =>
    refine ⟨[], by unfold storeWrites; rfl, fun entity member => ?_⟩
    rw [List.filter_nil, List.take_nil] at member
    cases member
  | cons entity rest ih =>
    cases limit with
    | zero => exact ⟨entity :: rest, rfl, nofun⟩
    | succ limit =>
      unfold storeWrites
      by_cases candidate : isCandidate platform scope rule.sourceField entity = true
      · rw [if_pos candidate]
        rw [List.filter_cons_of_pos candidate, List.take_succ_cons] at sound ⊢
        obtain ⟨others, othersStored, written⟩ := ih limit fun other member =>
          sound other (List.mem_cons_of_mem entity member)
        have next : ∃ stored,
            storeCandidate platform organizations rule target overwrite entity = some stored ∧
              ∀ text, candidateOutcome platform rule target overwrite entity =
                  some (.write text) →
                storeAttribute platform organizations target text entity = some stored := by
          unfold storeCandidate
          cases outcomeIs : candidateOutcome platform rule target overwrite entity with
          | none => exact absurd outcomeIs (sound entity List.mem_cons_self)
          | some outcome =>
            cases outcome with
            | write text =>
              obtain ⟨stored, storedIs⟩ := taken text entity
              refine ⟨stored, storedIs, fun other same => ?_⟩
              cases same
              exact storedIs
            | absent => exact ⟨entity, rfl, nofun⟩
            | missingValue => exact ⟨entity, rfl, nofun⟩
            | existing => exact ⟨entity, rfl, nofun⟩
        obtain ⟨stored, storedIs, headWritten⟩ := next
        rw [storedIs, othersStored]
        refine ⟨stored :: others, rfl, fun other member text writes => ?_⟩
        rcases List.mem_cons.mp member with rfl | later
        · exact ⟨stored, List.mem_cons_self, headWritten text writes⟩
        · obtain ⟨found, foundMember, foundIs⟩ := written other later text writes
          exact ⟨found, List.mem_cons_of_mem stored foundMember, foundIs⟩
      · rw [if_neg candidate]
        rw [List.filter_cons_of_neg candidate] at sound ⊢
        obtain ⟨others, othersStored, written⟩ := ih (limit + 1) sound
        rw [othersStored]
        refine ⟨entity :: others, rfl, fun other member text writes => ?_⟩
        obtain ⟨found, foundMember, foundIs⟩ := written other member text writes
        exact ⟨found, List.mem_cons_of_mem entity foundMember, foundIs⟩

variable {db : GovernanceDb}

theorem named_of_rules (named : OrganizationsNamed db) (rules : RuleTable)
    (rulesNamed : ∀ rule ∈ rules.rows,
      namesOrganization db.directory.organizations rule.orgId = true) :
    OrganizationsNamed { db with rules := rules } :=
  ⟨rulesNamed, named.entities, named.logs⟩

theorem not_named_of_sentinel {rules : RuleTable}
    (stored : ∃ rule ∈ rules.rows, rule.orgId = some legacyGlobalOrgId) :
    ¬ OrganizationsNamed { db with rules := rules } := by
  rintro named
  obtain ⟨rule, member, sentinel⟩ := stored
  have names := named.rules rule member
  rw [sentinel, legacy_not_named] at names
  cases names

variable {user : User} {scope : Option Int} {directory : Directory}

theorem scope_allowed (resolved : authorized directory user = .ok scope)
    (allowed : platform.enforcesForeignKeys = true ∨ ¬ LacksOrganization user) :
    platform.enforcesForeignKeys = true ∨
      namesOrganization directory.organizations scope = true := by
  rcases allowed with enforced | organized
  · exact .inl enforced
  · rcases authorized_scope directory user scope resolved with ⟨lacks, _⟩ | ⟨_, names⟩
    · exact absurd lacks organized
    · exact .inr names

theorem written_rules_iff (named : OrganizationsNamed db)
    (resolved : authorized db.directory user = .ok scope) (rules : RuleTable)
    (underScope : platform.enforcesForeignKeys = false → ∃ rule ∈ rules.rows, rule.orgId = scope)
    (keeps : platform.enforcesForeignKeys = true ∨
        namesOrganization db.directory.organizations scope = true →
      ∀ rule ∈ rules.rows, namesOrganization db.directory.organizations rule.orgId = true) :
    OrganizationsNamed { db with rules := rules } ↔
      platform.enforcesForeignKeys = true ∨ ¬ LacksOrganization user := by
  constructor
  · intro after
    cases enforced : platform.enforcesForeignKeys with
    | true => exact .inl rfl
    | false =>
      refine .inr fun lacks => ?_
      rw [authorized_of_lacks db.directory user lacks] at resolved
      obtain rfl := Except.ok.inj resolved
      exact not_named_of_sentinel (underScope enforced) after
  · intro allowed
    exact named_of_rules named rules (keeps (scope_allowed platform resolved allowed))

theorem organized_of_refused {error : HttpError}
    (refused : authorized directory user = .error error) : ¬ LacksOrganization user := by
  intro lacks
  rw [authorized_of_lacks directory user lacks] at refused
  cases refused

theorem create_step (db : GovernanceDb) (named : OrganizationsNamed db) (user : User)
    (payload : RulePayload) (commits : Bool) :
    OrganizationsNamed (step platform db (.create user payload commits)) ↔
      StoresOrganizations platform db (.create user payload commits) := by
  simp only [step, respond, createFieldCorrespondenceRule, StoresOrganizations]
  cases resolved : authorized db.directory user with
  | error error => exact iff_of_true named (.inr (.inr (.inr (organized_of_refused resolved))))
  | ok scope =>
    cases valid : payload.valid with
    | false => exact iff_of_true named (.inr (.inr (.inl rfl)))
    | true =>
      simp only [Bool.not_true, Bool.false_eq_true, if_false]
      generalize schemaIs : strippedOrNone payload.sourceSchema = schema
      generalize fieldIs : stripText payload.sourceField = field
      generalize valuesAre : RuleValues.mk _ _ _ _ _ _ = values
      have stores := upsertRule_stores platform db.directory.organizations db.rules scope schema
        field values user.id true
      cases upserted : upsertRule platform db.directory.organizations db.rules scope schema field
          values (freshRule scope schema field user.id true) with
      | none =>
        refine iff_of_true named (.inl ?_)
        cases enforced : platform.enforcesForeignKeys with
        | true => rfl
        | false =>
          obtain ⟨after, stored, _⟩ := stores enforced
          rw [stored] at upserted
          cases upserted
      | some rules =>
        cases commits with
        | false => exact iff_of_true named (.inr (.inl rfl))
        | true =>
          refine (written_rules_iff platform named resolved rules (fun enforced => ?_)
            fun allowed => ?_).trans (by simp)
          · obtain ⟨after, stored, underScope⟩ := stores enforced
            rw [upserted] at stored
            obtain rfl := Option.some.inj stored
            exact underScope
          · exact upsertRule_named platform _ db.rules rules scope schema field values _ rfl
              named.rules allowed upserted

theorem seed_step (db : GovernanceDb) (named : OrganizationsNamed db) (user : User)
    (commits : Bool) :
    OrganizationsNamed (step platform db (.seed user commits)) ↔
      StoresOrganizations platform db (.seed user commits) := by
  simp only [step, respond, seedPreventiveFieldCorrespondenceRules, StoresOrganizations]
  cases resolved : authorized db.directory user with
  | error error => exact iff_of_true named (.inr (.inr (organized_of_refused resolved)))
  | ok scope =>
    have nonempty : preventiveRuleCandidates ≠ [] := by decide
    have stores := fun unenforced => seedRules_stores platform db.directory.organizations scope
      user.id preventiveRuleCandidates db.rules 0 unenforced (.inl nonempty)
    dsimp only
    cases seeded : seedRules platform db.directory.organizations scope user.id
        preventiveRuleCandidates db.rules 0 with
    | none =>
      refine iff_of_true named (.inl ?_)
      cases enforced : platform.enforcesForeignKeys with
      | true => rfl
      | false =>
        obtain ⟨after, total, stored, _⟩ := stores enforced
        rw [stored] at seeded
        cases seeded
    | some result =>
      obtain ⟨rules, created⟩ := result
      cases commits with
      | false => exact iff_of_true named (.inr (.inl rfl))
      | true =>
        refine (written_rules_iff platform named resolved rules (fun enforced => ?_)
          fun allowed => ?_).trans (by simp)
        · obtain ⟨after, total, stored, underScope⟩ := stores enforced
          rw [seeded] at stored
          obtain ⟨rfl, _⟩ := Prod.mk.inj (Option.some.inj stored)
          exact underScope
        · exact seedRules_named platform _ scope user.id _ db.rules rules 0 created named.rules
            allowed seeded

theorem applicableRule_stored {ruleId : Nat} {rule : FieldCorrespondenceRule} {target : String}
    (applicable : applicableRule platform db user ruleId = .ok (scope, rule, target)) :
    rule ∈ db.rules.rows ∧ rule.orgId = scope := by
  unfold applicableRule at applicable
  cases resolved : authorized db.directory user with
  | error error => simp [resolved] at applicable
  | ok resolvedScope =>
    simp only [resolved] at applicable
    cases found : db.rules.get? ruleId with
    | none => simp [found] at applicable
    | some stored =>
      simp only [found] at applicable
      split at applicable
      · cases applicable
      rename_i sameScope
      split at applicable
      · cases applicable
      split at applicable
      · cases applicable
      split at applicable
      · cases applicable
      obtain ⟨rfl, rest⟩ := Prod.mk.inj (Except.ok.inj applicable)
      obtain ⟨rfl, _⟩ := Prod.mk.inj rest
      exact ⟨((SerialTable.get?_eq_some_iff db.rules ruleId _).mp found).1,
        not_not.mp sameScope⟩

theorem candidateOutcomes_eq_none_iff (db : GovernanceDb) (scope : Option Int)
    (rule : FieldCorrespondenceRule) (target : String) (payload : ApplyPayload) :
    candidateOutcomes platform scope rule target payload db.entities = none ↔
      ∃ entity ∈ candidates platform db scope rule payload,
        candidateOutcome platform rule target payload.overwriteExisting entity = none := by
  unfold candidateOutcomes candidates
  induction (db.entities.filter (isCandidate platform scope rule.sourceField)).take payload.limit with
  | nil => simp
  | cons entity rest ih =>
    rw [List.mapM_cons, List.exists_mem_cons_iff, ← ih]
    cases candidateOutcome platform rule target payload.overwriteExisting entity with
    | none => simp
    | some outcome =>
      simp only [Option.map_some, Option.bind_eq_bind, Option.bind_some, reduceCtorEq, false_or,
        Option.bind_eq_none_iff, Option.pure_def]
      exact Option.eq_none_iff_forall_ne_some.symm

theorem storeAttribute_org (text : String) (entity : Entity)
    (unenforced : platform.enforcesForeignKeys = false) :
    storeAttribute platform organizations "org_id" text entity =
      some { entity with orgId := some (storedOrgValue platform text) } := by
  simp [storeAttribute, unenforced]

theorem writes_of_named (db : GovernanceDb) (scope : Option Int) (rule : FieldCorrespondenceRule)
    (payload : ApplyPayload) (unenforced : platform.enforcesForeignKeys = false)
    (entities : List Entity)
    (sound : ∀ entity ∈ candidates platform db scope rule payload,
      candidateOutcome platform rule "org_id" payload.overwriteExisting entity ≠ none)
    (stores : storeWrites platform db.directory.organizations scope rule "org_id"
      payload.overwriteExisting payload.limit db.entities = some entities)
    (named : ∀ entity ∈ entities,
      namesOrganizationValue db.directory.organizations entity.orgId = true) :
    WritesOrganizations platform db scope rule payload := by
  obtain ⟨after, afterStored, written⟩ := storeWrites_stores platform db.directory.organizations
    scope rule "org_id" payload.overwriteExisting payload.limit db.entities
    (fun text entity => ⟨_, storeAttribute_org platform _ text entity unenforced⟩) sound
  rw [stores] at afterStored
  obtain rfl := Option.some.inj afterStored
  right
  intro entity member text writes
  obtain ⟨stored, storedMember, storedIs⟩ := written entity member text writes
  rw [storeAttribute_org platform _ text entity unenforced] at storedIs
  have names := named stored storedMember
  rw [← Option.some.inj storedIs] at names
  exact names

theorem written_named (db : GovernanceDb) (named : OrganizationsNamed db) (scope : Option Int)
    (rule : FieldCorrespondenceRule) (target : String) (payload : ApplyPayload)
    (entities : List Entity)
    (stores : storeWrites platform db.directory.organizations scope rule target
      payload.overwriteExisting payload.limit db.entities = some entities)
    (allowed : platform.enforcesForeignKeys = true ∨ target ≠ "org_id" ∨
      ∀ entity ∈ candidates platform db scope rule payload, ∀ text,
        candidateOutcome platform rule target payload.overwriteExisting entity =
            some (.write text) →
          namesOrganizationValue db.directory.organizations (some (storedOrgValue platform text)) =
            true) :
    ∀ entity ∈ entities, namesOrganizationValue db.directory.organizations entity.orgId = true := by
  intro stored member
  rcases storeWrites_source platform db.directory.organizations scope rule target
      payload.overwriteExisting payload.limit db.entities entities stores stored member with
    old | ⟨entity, isCandidate, text, writes, storedIs⟩
  · exact named.entities stored old
  · have entityMember := (List.mem_filter.mp (List.mem_of_mem_take isCandidate)).1
    refine storeAttribute_named platform _ target text entity stored
      (named.entities entity entityMember) ?_ storedIs
    rcases allowed with enforced | other | names
    · exact .inl enforced
    · exact .inr (.inl other)
    · exact .inr (.inr (names entity isCandidate text writes))

theorem applied_named_iff (named : OrganizationsNamed db) (scope : Option Int)
    (rule : FieldCorrespondenceRule) (target : String) (payload : ApplyPayload)
    (sound : ∀ entity ∈ candidates platform db scope rule payload,
      candidateOutcome platform rule target payload.overwriteExisting entity ≠ none)
    (entities : List Entity)
    (stores : storeWrites platform db.directory.organizations scope rule target
      payload.overwriteExisting payload.limit db.entities = some entities) (log : HarmonizationLog)
    (logNamed : namesOrganization db.directory.organizations log.orgId = true) (nextLogId : Nat)
    (changes : List HarmonizationChangeRecord) :
    OrganizationsNamed
        { db with
          entities := entities
          logs := db.logs ++ [log]
          nextLogId := nextLogId
          changes := changes } ↔
      platform.enforcesForeignKeys = true ∨
        (target = "org_id" → WritesOrganizations platform db scope rule payload) := by
  constructor
  · intro after
    cases enforced : platform.enforcesForeignKeys with
    | true => exact .inl rfl
    | false =>
      refine .inr fun isOrg => ?_
      subst isOrg
      exact writes_of_named platform db scope rule payload enforced entities sound stores
        after.entities
  · intro guarded
    refine ⟨named.rules, ?_, ?_⟩
    · apply written_named platform db named scope rule target payload entities stores
      rcases guarded with enforced | writes
      · exact .inl enforced
      · by_cases isOrg : target = "org_id"
        · subst isOrg
          rcases writes rfl with ⟨entity, member, raises⟩ | names
          · exact absurd raises (sound entity member)
          · exact .inr (.inr names)
        · exact .inr (.inl isOrg)
    · intro other member
      rcases List.mem_append.mp member with old | new
      · exact named.logs other old
      · rw [List.mem_singleton.mp new]
        exact logNamed

theorem forall_applicable_iff (scope : Option Int) (rule : FieldCorrespondenceRule)
    (target : String) (Holds : Option Int → FieldCorrespondenceRule → Prop) :
    (∀ otherScope otherRule, (Except.ok (scope, rule, target) :
        Except HttpError (Option Int × FieldCorrespondenceRule × String)) =
          .ok (otherScope, otherRule, "org_id") → Holds otherScope otherRule) ↔
      (target = "org_id" → Holds scope rule) := by
  constructor
  · intro all isOrg
    exact all scope rule (by rw [isOrg])
  · intro here otherScope otherRule same
    obtain ⟨rfl, rest⟩ := Prod.mk.inj (Except.ok.inj same)
    obtain ⟨rfl, isOrg⟩ := Prod.mk.inj rest
    exact here isOrg

theorem apply_step (db : GovernanceDb) (named : OrganizationsNamed db) (user : User)
    (ruleId : Nat) (payload : ApplyPayload) (commits : Bool) :
    OrganizationsNamed (step platform db (.apply user ruleId payload commits)) ↔
      StoresOrganizations platform db (.apply user ruleId payload commits) := by
  simp only [step, respond, applyFieldCorrespondenceRule, StoresOrganizations]
  cases valid : payload.valid with
  | false => exact iff_of_true named (.inr (.inr (.inl rfl)))
  | true =>
    simp only [Bool.not_true, Bool.false_eq_true, if_false]
    cases applicable : applicableRule platform db user ruleId with
    | error error =>
      refine iff_of_true named (.inr (.inr (.inr (.inr fun scope rule same => ?_))))
      cases same
    | ok found =>
      obtain ⟨scope, rule, target⟩ := found
      obtain ⟨ruleMember, ruleScope⟩ := applicableRule_stored platform applicable
      rw [forall_applicable_iff]
      dsimp only
      cases outcomesAre : candidateOutcomes platform scope rule target payload db.entities with
      | none =>
        refine iff_of_true named (.inr (.inr (.inr (.inr fun isOrg => ?_))))
        subst isOrg
        exact .inl ((candidateOutcomes_eq_none_iff platform db scope rule _ payload).mp
          outcomesAre)
      | some outcomes =>
        have sound : ∀ entity ∈ candidates platform db scope rule payload,
            candidateOutcome platform rule target payload.overwriteExisting entity ≠ none := by
          intro entity member raises
          rw [(candidateOutcomes_eq_none_iff platform db scope rule target payload).mpr
            ⟨entity, member, raises⟩] at outcomesAre
          cases outcomesAre
        cases dry : payload.dryRun with
        | true => exact iff_of_true named (.inr (.inr (.inr (.inl rfl))))
        | false =>
          simp only [Bool.false_eq_true, if_false]
          cases refused : refusesOrg platform db.directory.organizations scope with
          | true => exact iff_of_true named (.inl (Bool.and_eq_true_iff.mp refused).1)
          | false =>
            simp only [Bool.false_eq_true, if_false]
            cases stores : storeWrites platform db.directory.organizations scope rule target
              payload.overwriteExisting payload.limit db.entities with
            | none =>
              cases enforced : platform.enforcesForeignKeys with
              | true => exact iff_of_true named (.inl rfl)
              | false =>
                refine iff_of_true named (.inr (.inr (.inr (.inr fun isOrg => ?_))))
                subst isOrg
                obtain ⟨after, afterStored, _⟩ := storeWrites_stores platform
                  db.directory.organizations scope rule "org_id"
                  payload.overwriteExisting payload.limit db.entities
                  (fun text entity =>
                    ⟨_, storeAttribute_org platform _ text entity enforced⟩) sound
                rw [stores] at afterStored
                cases afterStored
            | some entities =>
              cases commits with
              | false => exact iff_of_true named (.inr (.inl rfl))
              | true =>
                have logNamed := named.rules rule ruleMember
                rw [ruleScope] at logNamed
                exact (applied_named_iff platform named scope rule target payload sound
                  entities stores _ logNamed _ _).trans (by simp)

theorem step_sentinelFree_iff (db : GovernanceDb) (request : GovernanceRequest)
    (sound : SentinelFree db) :
    SentinelFree (step platform db request) ↔ StoresOrganizations platform db request := by
  have named := (sentinelFree_iff db).mp sound
  rw [sentinelFree_iff]
  cases request with
  | create user payload commits => exact create_step platform db named user payload commits
  | seed user commits => exact seed_step platform db named user commits
  | apply user ruleId payload commits => exact apply_step platform db named user ruleId payload commits

/-- A run keeps the sentinel out of every stored row exactly where each of its requests
stores organizations only. -/
theorem sentinel_free_iff_stores_organizations (start : GovernanceDb)
    (requests : List GovernanceRequest) (initial : SentinelFree start) :
    EveryState (step platform) SentinelFree start requests ↔
      EveryStep (step platform) (StoresOrganizations platform) start requests :=
  everyState_iff_everyStep (fun db request => step_sentinelFree_iff platform db request) start
    requests initial

def plainPlatform : Platform where
  python :=
    { loads := fun _ => none
      shown := fun _ => ""
      casefold := String.toLower }
  enforcesForeignKeys := false
  readInteger := String.toInt?
  like := fun _ _ => false
  classAttribute := fun _ => none

def oneOrganization : GovernanceDb where
  directory := ⟨[⟨1, true⟩], [⟨1, 7⟩]⟩
  rules := SerialTable.empty ruleSchema
  entities := []
  logs := []
  nextLogId := 1
  changes := []

theorem oneOrganization_sound : SentinelFree oneOrganization := by
  rw [sentinelFree_iff]
  refine ⟨?_, ?_, ?_⟩ <;> (intro row member; cases member)

def doiPayload : RulePayload where
  sourceSchema := some "csv"
  sourceField := "DOI"
  canonicalTarget := some "canonical_id"
  semanticConcept := none
  identifierScheme := some "doi"
  confidence := 1
  evidence := []

theorem member_creates_no_sentinel :
    EveryState (step plainPlatform) SentinelFree oneOrganization
      [.create ⟨7, .admin, some 1⟩ doiPayload true] := by
  refine (sentinel_free_iff_stores_organizations plainPlatform oneOrganization _
    oneOrganization_sound).mpr ⟨.inr (.inr (.inr fun lacks => ?_)), trivial⟩
  cases lacks.2

/-- An admin without an organization creates a rule. -/
theorem legacy_admin_stores_sentinel :
    ¬ EveryState (step plainPlatform) SentinelFree oneOrganization
      [.create ⟨8, .admin, none⟩ doiPayload true] := by
  rintro ⟨_, after⟩
  have stores := (step_sentinelFree_iff plainPlatform oneOrganization _ oneOrganization_sound).mp
    after
  rcases stores with enforced | fails | invalid | organized
  · cases enforced
  · cases fails
  · exact absurd invalid (by decide)
  · exact organized ⟨rfl, rfl⟩

end Ukip.Governance.Sentinel
