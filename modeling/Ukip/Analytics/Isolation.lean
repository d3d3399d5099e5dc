import Ukip.Analytics.Analyzers

/-!
# Tenant isolation of the analyzers

Two runs of the endpoints, over two databases that agree on the rows of one
organization, with the same requests of that organization's users and anything at all
in between.  Its users are answered alike where none of their requests reaches the
engine: the cache then holds, under that organization's keys, what the local path
computes for it.  A request that reaches the engine is answered from every
organization's rows.
-/

namespace Ukip.Analytics.Isolation

open Foundation.EventRun Foundation.NonInterference Foundation.Tally Analyzers Corpus Correlation
open Delegation Analytics.Engine TopicModeling Tenancy.Access

def ownRows (orgId : Nat) (entities : List RawEntity) : List RawEntity :=
  entities.filter fun row => row.orgId == some (orgId : Int)

/-- Two databases with the same rows of an organization, in the same order. -/
structure AgreeOn (orgId : Nat) (first second : AnalyticsDb) : Prop where
  organizations : (first.directory.organizations.filter fun org => org.id == orgId) =
    second.directory.organizations.filter fun org => org.id == orgId
  members : (first.directory.members.filter fun member => member.orgId == orgId) =
    second.directory.members.filter fun member => member.orgId == orgId
  entities : ownRows orgId first.entities = ownRows orgId second.entities

variable {Number : Type} (deployment : Deployment Number)

def isOwn (orgId : Nat) : AnalyzerEvent Number → Bool
  | .request user _ _ => user.orgId == some orgId
  | .forget _ => false

def ownAnswers (orgId : Nat) (server : Server Number) : List (User × Answer Number) :=
  server.answers.filter fun entry => entry.1.orgId == some orgId

structure OwnRequest (Number : Type) where
  userId : Nat
  role : Role
  request : AnalyzerRequest
  client : Option (EngineClient Number)

def OwnRequest.toEvent (orgId : Nat) (asked : OwnRequest Number) : AnalyzerEvent Number :=
  .request ⟨asked.userId, asked.role, some orgId⟩ asked.request asked.client

/-- A request that its endpoint sends to the engine when nothing is cached: normalized
co-occurrence is always computed locally. -/
def reachesEngine (request : AnalyzerRequest) : Bool :=
  withinBounds request && isDomainId (requestDomain request) &&
    match request with
    | .cooccurrence _ _ normalizeSimilar _ => !normalizeSimilar
    | _ => true

/-- There is no engine, or the request does not reach it. -/
def AnsweredLocally (request : AnalyzerRequest) (client : Option (EngineClient Number)) : Prop :=
  client = none ∨ reachesEngine request = false

/-- The organization's users who ask `asked`, in this order, are answered the same over
any two databases that agree on its rows, whatever else happened in between. -/
def Isolated (orgId : Nat) (asked : List (OwnRequest Number)) : Prop :=
  ∀ first second : AnalyticsDb, AgreeOn orgId first second →
    ∀ events others : List (AnalyzerEvent Number),
      events.filter (isOwn orgId) = asked.map (OwnRequest.toEvent orgId) →
      others.filter (isOwn orgId) = asked.map (OwnRequest.toEvent orgId) →
      ownAnswers orgId (runEvents (step deployment) (Server.start first) events) =
        ownAnswers orgId (runEvents (step deployment) (Server.start second) others)

theorem any_of_filter {Row : Type} (keep test : Row → Bool) (rows : List Row)
    (within : ∀ row, test row = true → keep row = true) :
    rows.any test = (rows.filter keep).any test := by
  rw [List.any_filter]
  congr 1
  funext row
  cases passes : test row with
  | false => rw [Bool.and_false]
  | true => rw [within row passes, Bool.and_self]

theorem filter_ownRows (orgId : Nat) (condition : RawEntity → Bool) (rows : List RawEntity) :
    (rows.filter fun row => condition row && inScope (some (orgId : Int)) row.orgId) =
      (ownRows orgId rows).filter condition := by
  rw [ownRows, List.filter_filter]
  simp only [inScope_organization]

theorem computeLocally_ownRows (orgId : Nat) (rows : List RawEntity) (request : AnalyzerRequest) :
    computeLocally deployment rows (some (orgId : Int)) request =
      computeLocally deployment (ownRows orgId rows) (some (orgId : Int)) request := by
  have idempotent : ownRows orgId (ownRows orgId rows) = ownRows orgId rows := by
    simp only [ownRows, List.filter_filter, Bool.and_self]
  have concepts : ∀ domainId, loadConcepts rows domainId (some (orgId : Int)) =
      loadConcepts (ownRows orgId rows) domainId (some (orgId : Int)) := by
    intro domainId
    rw [loadConcepts, filter_ownRows, loadConcepts, filter_ownRows, idempotent]
  have known : ∀ domainId, knownDomain deployment.registry rows domainId (some (orgId : Int)) =
      knownDomain deployment.registry (ownRows orgId rows) domainId (some (orgId : Int)) := by
    intro domainId
    unfold knownDomain
    congr 1
    apply any_of_filter
    intro row passes
    rw [Bool.and_eq_true, inScope_organization] at passes
    exact passes.2
  have corpus : ∀ domainId,
      loadCorpus deployment.python deployment.registry rows domainId (some (orgId : Int)) =
        loadCorpus deployment.python deployment.registry (ownRows orgId rows) domainId
          (some (orgId : Int)) := by
    intro domainId
    rw [loadCorpus, known, concepts, loadCorpus]
  cases request with
  | topics domainId topN =>
    simp only [computeLocally, TopicModeling.topTopics, corpus]
  | cooccurrence domainId topN normalizeSimilar minSimilarity =>
    simp only [computeLocally, cooccurrence, corpus]
  | clusters domainId nClusters =>
    simp only [computeLocally, TopicModeling.topicClusters, corpus]
  | correlation domainId topN =>
    simp only [computeLocally, topCorrelations, filter_ownRows, idempotent]

variable {orgId : Nat} {first second : AnalyticsDb}

theorem computeLocally_of_agree (agree : AgreeOn orgId first second) (request : AnalyzerRequest) :
    computeLocally deployment first.entities (some (orgId : Int)) request =
      computeLocally deployment second.entities (some (orgId : Int)) request := by
  rw [computeLocally_ownRows, agree.entities, ← computeLocally_ownRows]

theorem requestScope_of_agree (agree : AgreeOn orgId first second) (user : User)
    (belongs : user.orgId = some orgId) :
    requestScope first.directory user = requestScope second.directory user := by
  have organizations : (first.directory.organizations.any fun org =>
      org.id == orgId && org.isActive) =
      second.directory.organizations.any fun org => org.id == orgId && org.isActive := by
    rw [any_of_filter (fun org => org.id == orgId) _ first.directory.organizations,
      any_of_filter (fun org => org.id == orgId) _ second.directory.organizations,
      agree.organizations]
    · intro org passes
      exact (Bool.and_eq_true_iff.mp passes).1
    · intro org passes
      exact (Bool.and_eq_true_iff.mp passes).1
  have members : (first.directory.members.any fun member =>
      member.orgId == orgId && member.userId == user.id) =
      second.directory.members.any fun member =>
        member.orgId == orgId && member.userId == user.id := by
    rw [any_of_filter (fun member => member.orgId == orgId) _ first.directory.members,
      any_of_filter (fun member => member.orgId == orgId) _ second.directory.members,
      agree.members]
    · intro member passes
      exact (Bool.and_eq_true_iff.mp passes).1
    · intro member passes
      exact (Bool.and_eq_true_iff.mp passes).1
  simp only [requestScope, resolveRequestOrgId, belongs, organizations, members]

/-- Under the organization's keys the cache holds what the local path computes. -/
def CacheHonest (orgId : Nat) (server : Server Number) : Prop :=
  ∀ request result, cacheGet server.cache (cacheKey (some (orgId : Int)) request) = some result →
    computeLocally deployment server.db.entities (some (orgId : Int)) request = .ok result

theorem cacheGet_set (cache : Cache Number) (key other : String) (value : AnalyzerResult Number) :
    cacheGet (cacheSet cache key value) other =
      if key = other then some value else cacheGet cache other := by
  by_cases same : key = other
  · subst same
    simp [cacheGet, cacheSet]
  · rw [if_neg same]
    simp only [cacheGet, cacheSet]
    rw [List.find?_cons_of_neg (by simpa using same), List.find?_filter]
    congr 2
    funext entry
    by_cases found : entry.1 = other
    · simp [found, Ne.symm same]
    · simp [found]

theorem cacheGet_forget (cache : Cache Number) (kept : String → Bool) (key : String) :
    cacheGet (cache.filter fun entry => kept entry.1) key =
      if kept key then cacheGet cache key else none := by
  simp only [cacheGet, List.find?_filter]
  split
  · rename_i stays
    congr 2
    funext entry
    by_cases found : entry.1 = key
    · simp [found, stays]
    · simp [found]
  · rename_i lost
    rw [Option.map_eq_none_iff, List.find?_eq_none]
    intro entry _ found
    simp only [beq_iff_eq, decide_eq_true_eq] at found
    exact lost (by rw [← found.2]; exact found.1)

theorem requestScope_occurs (directory : Directory) (user : User) (scope : Option Int)
    (resolved : requestScope directory user = .ok scope) :
    Occurs scope ∧ ∀ orgId : Nat, scope = some (orgId : Int) ↔ user.orgId = some orgId := by
  rcases requestScope_cases directory user scope resolved with
    ⟨none, _, rfl⟩ | ⟨none, _, rfl⟩ | ⟨orgId, some, rfl, _⟩
  · exact ⟨.inl rfl, fun orgId => by simp [none]⟩
  · refine ⟨.inr (.inl rfl), fun orgId => ?_⟩
    simp [none, (organization_ne_legacy orgId).symm]
  · refine ⟨.inr (.inr ⟨orgId, rfl⟩), fun other => ?_⟩
    simp [some]

theorem respond_cache (db : AnalyticsDb) (cache : Cache Number) (user : User)
    (request : AnalyzerRequest) (client : Option (EngineClient Number)) :
    (respond deployment db cache user request client).2 = cache ∨
      ∃ scope result, requestScope db.directory user = .ok scope ∧
        (respond deployment db cache user request client).2 =
          cacheSet cache (cacheKey scope request) result := by
  unfold respond
  split
  · exact .inl rfl
  · split
    · exact .inl rfl
    · cases requestScope db.directory user with
      | error error => exact .inl rfl
      | ok scope =>
        cases cached : cacheGet cache (cacheKey scope request) with
        | some result => exact .inl (by simp [cached])
        | none =>
          cases delegated : delegate deployment client db.entities scope request with
          | some result =>
            exact .inr ⟨scope, result, rfl, by simp [cached, delegated]⟩
          | none =>
            cases computed : computeLocally deployment db.entities scope request with
            | ok result =>
              exact .inr ⟨scope, result, rfl, by simp [cached, delegated, computed]⟩
            | error error =>
              exact .inl (by simp [cached, delegated, computed])

theorem respond_other (orgId : Nat) (db : AnalyticsDb) (cache : Cache Number) (user : User)
    (request own : AnalyzerRequest) (client : Option (EngineClient Number))
    (other : user.orgId ≠ some orgId) :
    cacheGet (respond deployment db cache user request client).2
        (cacheKey (some (orgId : Int)) own) =
      cacheGet cache (cacheKey (some (orgId : Int)) own) := by
  rcases respond_cache deployment db cache user request client with
    same | ⟨scope, result, resolved, stored⟩
  · rw [same]
  · rw [stored, cacheGet_set, if_neg]
    intro sameKey
    obtain ⟨occurs, organization⟩ := requestScope_occurs db.directory user scope resolved
    obtain ⟨scopes, _⟩ := cacheKey_injective orgId scope occurs request own sameKey
    exact other ((organization orgId).mp scopes)

def localAnswer (db : AnalyticsDb) (user : User) (request : AnalyzerRequest) : Answer Number :=
  (respond deployment db [] user request none).1

theorem delegate_of_local (rows : List RawEntity) (scope : Option Int) (request : AnalyzerRequest)
    (client : Option (EngineClient Number)) (answered : AnsweredLocally request client)
    (bounded : withinBounds request = true)
    (named : isDomainId (requestDomain request) = true) :
    delegate deployment client rows scope request = none := by
  rcases answered with rfl | unreached
  · cases request with
    | topics domainId topN => rfl
    | cooccurrence domainId topN normalizeSimilar minSimilarity =>
      cases normalizeSimilar <;> rfl
    | clusters domainId nClusters => rfl
    | correlation domainId topN => rfl
  · unfold reachesEngine at unreached
    rw [bounded, named, Bool.and_self, Bool.true_and] at unreached
    cases request with
    | topics domainId topN => cases unreached
    | cooccurrence domainId topN normalizeSimilar minSimilarity =>
      cases normalizeSimilar with
      | true => rfl
      | false => cases unreached
    | clusters domainId nClusters => cases unreached
    | correlation domainId topN => cases unreached

theorem respond_own (orgId : Nat) (server : Server Number) (user : User)
    (request : AnalyzerRequest) (client : Option (EngineClient Number))
    (belongs : user.orgId = some orgId) (answered : AnsweredLocally request client)
    (honest : CacheHonest deployment orgId server) :
    (respond deployment server.db server.cache user request client).1 =
        localAnswer deployment server.db user request ∧
      CacheHonest deployment orgId { server with
        cache := (respond deployment server.db server.cache user request client).2 } := by
  unfold localAnswer respond
  cases bounded : withinBounds request with
  | false => exact ⟨rfl, honest⟩
  | true =>
    cases named : isDomainId (requestDomain request) with
    | false => exact ⟨rfl, honest⟩
    | true =>
      simp only [Bool.not_true, Bool.false_eq_true, if_false]
      cases resolved : requestScope server.db.directory user with
      | error error => exact ⟨rfl, honest⟩
      | ok scope =>
        have scopeIs : scope = some (orgId : Int) :=
          ((requestScope_occurs _ user scope resolved).2 orgId).mpr belongs
        subst scopeIs
        have undelegated := fun sent => delegate_of_local deployment server.db.entities
          (some (orgId : Int)) request sent
        have nothingCached : cacheGet ([] : Cache Number)
            (cacheKey (some (orgId : Int)) request) = none := rfl
        simp only [nothingCached, undelegated none (.inl rfl) bounded named,
          undelegated client answered bounded named]
        cases cached : cacheGet server.cache (cacheKey (some (orgId : Int)) request) with
        | some result =>
          rw [honest request result cached]
          exact ⟨rfl, honest⟩
        | none =>
          cases computed : computeLocally deployment server.db.entities
              (some (orgId : Int)) request with
          | error error => exact ⟨rfl, honest⟩
          | ok result =>
            refine ⟨rfl, fun other stored found => ?_⟩
            simp only [cacheGet_set] at found
            split at found
            · rename_i sameKey
              obtain ⟨_, rfl⟩ := cacheKey_injective orgId _
                (.inr (.inr ⟨orgId, rfl⟩)) request other sameKey
              rw [← Option.some.inj found]
              exact computed
            · exact honest other stored found

theorem localAnswer_of_agree (agree : AgreeOn orgId first second) (user : User)
    (belongs : user.orgId = some orgId) (request : AnalyzerRequest) :
    localAnswer deployment first user request = localAnswer deployment second user request := by
  unfold localAnswer respond
  rw [requestScope_of_agree agree user belongs]
  split
  · rfl
  · split
    · rfl
    · cases resolved : requestScope second.directory user with
      | error error => rfl
      | ok scope =>
        have scopeIs : scope = some (orgId : Int) :=
          ((requestScope_occurs _ user scope resolved).2 orgId).mpr belongs
        subst scopeIs
        have nothingCached : cacheGet ([] : Cache Number)
            (cacheKey (some (orgId : Int)) request) = none := rfl
        have undelegated : ∀ rows, delegate deployment none rows (some (orgId : Int)) request =
            none := by
          intro rows
          rename_i bounded named
          simp only [Bool.not_eq_true, Bool.not_eq_false'] at bounded named
          exact delegate_of_local deployment rows _ request none (.inl rfl) bounded named
        simp only [nothingCached, undelegated, computeLocally_of_agree deployment agree]

structure Alike (orgId : Nat) (first second : Server Number) : Prop where
  agree : AgreeOn orgId first.db second.db
  firstHonest : CacheHonest deployment orgId first
  secondHonest : CacheHonest deployment orgId second
  answers : ownAnswers orgId first = ownAnswers orgId second

variable {first second : Server Number}

theorem Alike.symm (alike : Alike deployment orgId first second) :
    Alike deployment orgId second first where
  agree :=
    { organizations := alike.agree.organizations.symm
      members := alike.agree.members.symm
      entities := alike.agree.entities.symm }
  firstHonest := alike.secondHonest
  secondHonest := alike.firstHonest
  answers := alike.answers.symm

theorem alike_of_others (event : AnalyzerEvent Number) (others : isOwn orgId event = false)
    (alike : Alike deployment orgId first second) :
    Alike deployment orgId (step deployment first event) second := by
  obtain ⟨agree, firstHonest, secondHonest, answers⟩ := alike
  cases event with
  | request user request client =>
    have foreign : user.orgId ≠ some orgId := by simpa [isOwn] using others
    refine ⟨agree, fun own result found => ?_, secondHonest, ?_⟩
    · simp only [step, respond_other deployment orgId first.db first.cache user request own client
        foreign] at found
      exact firstHonest own result found
    · rw [← answers]
      simp [ownAnswers, step, List.filter_append, foreign]
  | forget kept =>
    refine ⟨agree, fun own result found => ?_, secondHonest, answers⟩
    simp only [step, cacheGet_forget] at found
    split at found
    · exact firstHonest own result found
    · cases found

/-- The organization's own request, answered locally on both servers. -/
def AnsweredLocallyEvent : AnalyzerEvent Number → Prop
  | .request _ request client => AnsweredLocally request client
  | .forget _ => True

theorem alike_of_own (event : AnalyzerEvent Number) (own : isOwn orgId event = true)
    (answered : AnsweredLocallyEvent event) (alike : Alike deployment orgId first second) :
    Alike deployment orgId (step deployment first event) (step deployment second event) := by
  obtain ⟨agree, firstHonest, secondHonest, answers⟩ := alike
  cases event with
  | request user request client =>
    have belongs : user.orgId = some orgId := by simpa [isOwn] using own
    obtain ⟨firstAnswer, firstNext⟩ :=
      respond_own deployment orgId first user request client belongs answered firstHonest
    obtain ⟨secondAnswer, secondNext⟩ :=
      respond_own deployment orgId second user request client belongs answered secondHonest
    refine ⟨agree, firstNext, secondNext, ?_⟩
    unfold ownAnswers at answers ⊢
    simp only [step, List.filter_append, answers, firstAnswer, secondAnswer,
      localAnswer_of_agree deployment agree user belongs]
  | forget kept => cases own

theorem start_honest (orgId : Nat) (db : AnalyticsDb) :
    CacheHonest deployment orgId (Server.start db) := by
  intro request result found
  cases found

theorem isolated_of_answered_locally (orgId : Nat) (asked : List (OwnRequest Number))
    (answered : ∀ own ∈ asked, AnsweredLocally own.request own.client) :
    Isolated deployment orgId asked := by
  intro first second agree events others eventsAsked othersAsked
  have start : Alike deployment orgId (Server.start first) (Server.start second) :=
    ⟨agree, start_honest deployment orgId first, start_honest deployment orgId second, rfl⟩
  have ended := @related_of_same_events _ _ (step deployment) (isOwn orgId)
    (Alike deployment orgId) AnsweredLocallyEvent
    (fun _ _ => Alike.symm deployment)
    (fun _ _ event => alike_of_others deployment event)
    (fun _ _ event => alike_of_own deployment event)
    (Server.start first) (Server.start second) events others start
    (eventsAsked.trans othersAsked.symm) (by
      intro event member own
      have isAsked : event ∈ events.filter (isOwn orgId) := List.mem_filter.mpr ⟨member, own⟩
      rw [eventsAsked] at isAsked
      obtain ⟨request, requestMember, rfl⟩ := List.mem_map.mp isAsked
      exact answered request requestMember)
  exact ended.answers

def foreignRow (orgId : Nat) (domainId : String) (entry : String × Nat) : RawEntity where
  id := entry.2
  orgId := some ((orgId + 1 : Nat) : Int)
  domain := some domainId
  entityType := some entry.1
  secondaryLabel := some entry.1
  attributesJson := none
  validationStatus := none
  enrichmentCitationCount := none
  enrichmentConcepts := some "AI, ML"
  enrichmentStatus := none
  source := none

def foreignValues : List String := ["b", "a", "a", "a", "a"]

def foreignRows (orgId : Nat) (domainId : String) : List RawEntity :=
  foreignValues.zipIdx.map (foreignRow orgId domainId)

theorem ownRows_foreign (orgId : Nat) (domainId : String) :
    ownRows orgId (foreignRows orgId domainId) = [] := by
  rw [ownRows, List.filter_eq_nil_iff]
  intro row member
  obtain ⟨entry, _, rfl⟩ := List.mem_map.mp member
  simp [foreignRow]

theorem loadConceptLists_foreign (orgId : Nat) (domainId : String) :
    loadConceptLists (foreignRows orgId domainId) domainId =
      [["AI", "ML"], ["AI", "ML"], ["AI", "ML"], ["AI", "ML"], ["AI", "ML"]] := by
  have parsed : parseParts isWhiteSpace "AI, ML" = ["AI", "ML"] := by decide
  have selected : ∀ row ∈ foreignRows orgId domainId,
      ((domainId == "all" || Foundation.SqlTruth.selects (Foundation.SqlTruth.compare
        (fun stored wanted => stored == wanted) row.domain (some domainId))) &&
          hasConceptText row) = true := by
    intro row member
    obtain ⟨entry, _, rfl⟩ := List.mem_map.mp member
    simp [foreignRow, hasConceptText, Foundation.SqlTruth.selects, Foundation.SqlTruth.compare,
      Foundation.SqlTruth.isNotNull, Foundation.SqlTruth.both]
  unfold loadConceptLists
  rw [List.filter_eq_self.mpr selected]
  simp [foreignRows, foreignValues, foreignRow, parsed]

theorem foreign_correlated {x y : List String} (first : x.Perm foreignValues)
    (second : y.Perm foreignValues) : 500 ≤ cramersV x y := by
  have arrangements : ∀ x ∈ foreignValues.permutations'.dedup,
      ∀ y ∈ foreignValues.permutations'.dedup, 500 ≤ cramersV x y := by decide +kernel
  exact arrangements x (List.mem_dedup.mpr (List.mem_permutations'.mpr first)) y
    (List.mem_dedup.mpr (List.mem_permutations'.mpr second))

theorem selectField_foreign (rowOrder : RowOrder) (orgId : Nat) (domainId : String)
    (field : String) {cell : RawEntity → Option String} {values : List String}
    (known : column field = some cell)
    (read : (foreignRows orgId domainId).filterMap cell = values) :
    ∃ listed, selectField rowOrder (foreignRows orgId domainId) domainId field = .ok listed ∧
      listed.Perm values := by
  have selected : ((foreignRows orgId domainId).filter fun row => row.domain == some domainId) =
      foreignRows orgId domainId := by
    rw [List.filter_eq_self]
    intro row member
    obtain ⟨entry, _, rfl⟩ := List.mem_map.mp member
    simp [foreignRow]
  unfold selectField
  rw [known, ← read]
  exact ⟨_, rfl, ((rowOrder.perm field _).filterMap cell).trans (by rw [selected])⟩

theorem loadFieldData_foreign (rowOrder : RowOrder) (orgId : Nat) (domainId : String) :
    ∃ labels types, labels.Perm foreignValues ∧ types.Perm foreignValues ∧
      loadFieldData rowOrder (foreignRows orgId domainId) domainId [] = .ok
        [("secondary_label", labels), ("entity_type", types),
          ("domain", List.replicate 5 domainId)] := by
  obtain ⟨labels, secondaryLabels, labelled⟩ := selectField_foreign rowOrder orgId domainId
    "secondary_label" rfl (rfl : _ = foreignValues)
  obtain ⟨types, entityTypes, typed⟩ := selectField_foreign rowOrder orgId domainId
    "entity_type" rfl (rfl : _ = foreignValues)
  obtain ⟨_, domains, placed⟩ := selectField_foreign rowOrder orgId domainId
    "domain" rfl (rfl : _ = List.replicate 5 domainId)
  obtain rfl := List.perm_replicate.mp placed
  have read : queriedFields ["secondary_label", "entity_type", "enrichment_source", "domain",
      "enrichment_status", "validation_status"] =
      ["secondary_label", "entity_type", "domain"] := by decide
  have filled : ∀ listed : List String, listed.Perm foreignValues → listed.isEmpty = false := by
    rintro listed perm
    rw [List.isEmpty_eq_false_iff]
    rintro rfl
    exact nomatch perm.length_eq
  refine ⟨labels, types, labelled, typed, ?_⟩
  simp only [loadFieldData, candidateFields, if_true, bind, Except.bind]
  rw [read]
  simp only [List.mapM_cons, List.mapM_nil, secondaryLabels, entityTypes, domains, Except.map,
    bind, Except.bind, pure, Except.pure, List.filter_cons, filled labels labelled,
    filled types typed]
  rfl

theorem engineCorrelations_foreign (order : HashOrder) (domainId : String)
    {labels types : List String} (labelled : labels.Perm foreignValues)
    (typed : types.Perm foreignValues) (limit : Nat) (positive : 0 < limit) :
    engineCorrelations order [("secondary_label", labels), ("entity_type", types),
      ("domain", List.replicate 5 domainId)] limit ≠ [] := by
  intro empty
  unfold engineCorrelations at empty
  generalize usableIs : ((order.visit [("secondary_label", labels), ("entity_type", types),
      ("domain", List.replicate 5 domainId)]).filter fun entry =>
    entry.1 ∉ engineSkipFields && entry.2.dedup.length ≤ maxCardinality &&
      1 < entry.2.dedup.length) = usable at empty
  have perm : usable.Perm [("secondary_label", labels), ("entity_type", types)] := by
    rw [← usableIs]
    refine ((order.perm _).filter _).trans ?_
    have one : (List.replicate 5 domainId).dedup.length = 1 := by
      rw [List.replicate_dedup (by decide)]
      rfl
    have two : foreignValues.dedup.length = 2 := by decide
    have labelCount := labelled.dedup.length_eq.trans two
    have typeCount := typed.dedup.length_eq.trans two
    simp [-List.reduceReplicate, one, labelCount, typeCount, engineSkipFields, maxCardinality]
  obtain ⟨first, second, rfl⟩ := List.length_eq_two.mp perm.length_eq
  have values : ∀ entry ∈ [first, second], entry.2.Perm foreignValues := by
    intro entry member
    have among := perm.mem_iff.mp member
    simp only [List.mem_cons, List.not_mem_nil, or_false] at among
    rcases among with rfl | rfl
    · exact labelled
    · exact typed
  have firstValues := values first (by simp)
  have secondValues := values second (by simp)
  rw [List.take_eq_nil_iff, strongestFirst, sortedBy_eq_nil_iff] at empty
  rcases empty with zero | none
  · omega
  · have long : ¬first.2.length < 5 := by
      rw [firstValues.length_eq]
      decide
    have strong : correlationEntry first.1 second.1 first.2 second.2 ≠ Option.none := by
      rw [correlationEntry, if_neg long]
      simp [Nat.not_lt.mpr (foreign_correlated firstValues secondValues)]
    rw [List.filterMap_eq_nil_iff] at none
    have here := none (first, second) (by simp [combinations])
    rw [if_pos (firstValues.trans secondValues.symm).length_eq] at here
    exact strong here

theorem visit_ne_nil {Entry : Type} (order : HashOrder) {entries : List Entry}
    (nonempty : entries ≠ []) : order.visit entries ≠ [] := fun empty =>
  nonempty ((visit_eq_nil_iff order entries).mp empty)

variable (engine : EngineClient Number)

theorem enginePairs_foreign (orgId : Nat) (domainId : String) (limit : Nat) (positive : 0 < limit) :
    cooccurrencePmi engine.order engine.arithmetic
      (loadConceptLists (foreignRows orgId domainId) domainId) limit ≠ [] := by
  rw [loadConceptLists_foreign, cooccurrencePmi, ne_eq, List.take_eq_nil_iff, not_or,
    sortedBy_eq_nil_iff, List.map_eq_nil_iff]
  exact ⟨by omega, visit_ne_nil engine.order (by decide)⟩

theorem engineClusters_foreign (order : HashOrder) (orgId : Nat) (domainId : String)
    (nClusters : Nat) (positive : 0 < nClusters) :
    Engine.topicClusters order (loadConceptLists (foreignRows orgId domainId) domainId)
      nClusters ≠ [] := by
  rw [loadConceptLists_foreign, Engine.topicClusters, ne_eq, sortedBy_eq_nil_iff,
    List.map_eq_nil_iff, List.take_eq_nil_iff, not_or, List.map_eq_nil_iff, sortedBy_eq_nil_iff]
  exact ⟨by omega, visit_ne_nil order (by decide)⟩

theorem loadFieldData_empty (rowOrder : RowOrder) (domainId : String) :
    loadFieldData rowOrder [] domainId [] = .ok [] := by
  have nothing : ∀ field, rowOrder.list field [] = [] :=
    fun field => List.perm_nil.mp (rowOrder.perm field [])
  have read : queriedFields ["secondary_label", "entity_type", "enrichment_source", "domain",
      "enrichment_status", "validation_status"] =
      ["secondary_label", "entity_type", "domain"] := by decide
  simp only [loadFieldData, candidateFields, if_true, bind, Except.bind]
  rw [read]
  simp [selectField, nothing, column, Except.map, bind, Except.bind, pure, Except.pure]

theorem delegate_leaks (orgId : Nat) (scope : Option Int) (request : AnalyzerRequest)
    (reached : reachesEngine request = true) :
    ∃ empty foreign, delegate deployment (some engine) [] scope request = some empty ∧
      delegate deployment (some engine) (foreignRows orgId (requestDomain request)) scope request =
        some foreign ∧ empty ≠ foreign := by
  cases request with
  | topics domainId topN =>
    obtain ⟨empty, emptySent, _, emptyIff⟩ :=
      delegated_topics deployment.arithmetic engine [] domainId topN scope
    obtain ⟨foreign, foreignSent, _, foreignIff⟩ :=
      delegated_topics deployment.arithmetic engine (foreignRows orgId domainId) domainId topN scope
    refine ⟨_, _, emptySent, foreignSent, fun same => ?_⟩
    obtain rfl := AnalyzerResult.topics.inj same
    have nothing := foreignIff.mp (emptyIff.mpr (by simp [loadConceptLists]))
    rw [loadConceptLists_foreign] at nothing
    cases nothing _ List.mem_cons_self
  | cooccurrence domainId topN normalizeSimilar minSimilarity =>
    cases normalizeSimilar with
    | true => simp [reachesEngine] at reached
    | false =>
      obtain ⟨empty, emptySent, _, noPairs⟩ := delegated_pairs deployment.arithmetic engine []
        domainId topN scope (by simp [loadConceptLists])
      refine ⟨_, _, emptySent, rfl, fun same => ?_⟩
      have pairs := congrArg CooccurrenceResult.pairs (AnalyzerResult.cooccurrence.inj same)
      rw [noPairs] at pairs
      exact enginePairs_foreign engine orgId domainId _ (effectiveLimit_pos topN)
        (List.map_eq_nil_iff.mp pairs.symm)
  | clusters domainId nClusters =>
    obtain ⟨empty, emptySent, noClusters⟩ := delegated_clusters deployment.arithmetic engine []
      domainId nClusters scope (by simp [loadConceptLists])
    refine ⟨_, _, emptySent, rfl, fun same => ?_⟩
    have clusters := congrArg ClustersResult.clusters (AnalyzerResult.clusters.inj same)
    rw [noClusters] at clusters
    have none := List.zipIdx_eq_nil_iff.mp (List.map_eq_nil_iff.mp clusters.symm)
    have positive := effectiveLimit_pos nClusters
    exact engineClusters_foreign engine.order orgId domainId _
      (Nat.lt_min.mpr ⟨positive, by decide⟩)
      (List.map_eq_nil_iff.mp none)
  | correlation domainId topN =>
    have answered : ∀ rows data, loadFieldData engine.rowOrder rows domainId [] = .ok data →
        delegate deployment (some engine) rows scope (.correlation domainId topN) =
          some (.correlation (convertCorrelation
            (⟨[], [], [], engineCorrelations engine.order data (effectiveLimit topN)⟩ :
              AnalyticsResponse Number))) := by
      intro rows data loaded
      simp [delegate, tryEngineAnalytics, processAnalytics, loaded, bind, Except.bind,
        Except.toOption, convertAnalytics]
    obtain ⟨labels, types, labelled, typed, read⟩ :=
      loadFieldData_foreign engine.rowOrder orgId domainId
    refine ⟨_, _, answered [] [] (loadFieldData_empty engine.rowOrder domainId),
      answered _ _ read, fun same => ?_⟩
    have correlations := congrArg CorrelationResult.correlations
      (AnalyzerResult.correlation.inj same)
    have nothing : engineCorrelations engine.order [] (effectiveLimit topN) = [] := by
      have none := (visit_eq_nil_iff engine.order ([] : List (String × List String))).mpr rfl
      simp [engineCorrelations, none, combinations, strongestFirst, sortedBy]
    simp only [convertCorrelation, nothing] at correlations
    exact engineCorrelations_foreign engine.order domainId labelled typed _
      (effectiveLimit_pos topN) correlations.symm

theorem runEvents_db (server : Server Number) (events : List (AnalyzerEvent Number)) :
    (runEvents (step deployment) server events).db = server.db := by
  have kept : ∀ (reached : Server Number) (event : AnalyzerEvent Number),
      reached.db = server.db → (step deployment reached event).db = server.db := by
    intro reached event same
    cases event with
    | request user request client => exact same
    | forget kept => exact same
  exact runEvents_of_invariant kept server events rfl

theorem ownAnswers_run (orgId : Nat) (server : Server Number)
    (events : List (AnalyzerEvent Number)) :
    ∃ added, ownAnswers orgId (runEvents (step deployment) server events) =
        ownAnswers orgId server ++ added ∧
      added.length = (events.filter (isOwn orgId)).length := by
  induction events generalizing server with
  | nil => exact ⟨[], by simp [runEvents], rfl⟩
  | cons event rest ih =>
    obtain ⟨added, ended, count⟩ := ih (step deployment server event)
    cases event with
    | request user request client =>
      by_cases own : user.orgId = some orgId
      · refine ⟨(user, (respond deployment server.db server.cache user request client).1) ::
          added, ?_, ?_⟩
        · rw [runEvents, ended]
          simp [ownAnswers, step, List.filter_append, own]
        · simp [isOwn, own, count]
      · refine ⟨added, ?_, ?_⟩
        · rw [runEvents, ended]
          simp [ownAnswers, step, List.filter_append, own]
        · simp [isOwn, own, count]
    | forget kept => exact ⟨added, ended, by simpa [isOwn] using count⟩

/-- The history that asks `asked` and loses the cache before `own`. -/
def historyOf (orgId : Nat) (before after : List (OwnRequest Number)) (own : OwnRequest Number) :
    List (AnalyzerEvent Number) :=
  before.map (OwnRequest.toEvent orgId) ++
    .forget (fun _ => false) :: own.toEvent orgId :: after.map (OwnRequest.toEvent orgId)

theorem historyOf_own (orgId : Nat) (before after : List (OwnRequest Number))
    (own : OwnRequest Number) :
    (historyOf orgId before after own).filter (isOwn orgId) =
      (before ++ own :: after).map (OwnRequest.toEvent orgId) := by
  have kept : ∀ asked : List (OwnRequest Number),
      (asked.map (OwnRequest.toEvent orgId)).filter (isOwn orgId) =
        asked.map (OwnRequest.toEvent orgId) := by
    intro asked
    rw [List.filter_eq_self]
    intro event member
    obtain ⟨request, _, rfl⟩ := List.mem_map.mp member
    simp [OwnRequest.toEvent, isOwn]
  have ownKept : isOwn orgId (own.toEvent orgId) = true := by simp [OwnRequest.toEvent, isOwn]
  have forgetting : ¬ isOwn orgId (AnalyzerEvent.forget fun _ => false : AnalyzerEvent Number) = true := by
    simp [isOwn]
  rw [historyOf, List.filter_append, kept, List.filter_cons_of_neg forgetting,
    List.filter_cons_of_pos ownKept, kept, List.map_append, List.map_cons]

theorem ownAnswers_history (orgId : Nat) (db : AnalyticsDb)
    (before after : List (OwnRequest Number)) (own : OwnRequest Number) :
    ∃ earlier later, ownAnswers orgId
        (runEvents (step deployment) (Server.start db) (historyOf orgId before after own)) =
      earlier ++ ((⟨own.userId, own.role, some orgId⟩ : User),
        (respond deployment db [] ⟨own.userId, own.role, some orgId⟩ own.request own.client).1) ::
          later ∧ earlier.length = before.length := by
  obtain ⟨earlier, reached, count⟩ := ownAnswers_run deployment orgId (Server.start db)
    (before.map (OwnRequest.toEvent orgId))
  have sameDb := runEvents_db deployment (Server.start db)
    (before.map (OwnRequest.toEvent orgId))
  unfold historyOf
  rw [runEvents_append]
  generalize runEvents (step deployment) (Server.start db)
    (before.map (OwnRequest.toEvent orgId)) = server at reached sameDb ⊢
  have forgotten : (step deployment server (.forget fun _ => false)).cache = [] := by
    simp [step]
  obtain ⟨later, ended, _⟩ := ownAnswers_run deployment orgId
    (step deployment (step deployment server (.forget fun _ => false)) (own.toEvent orgId))
    (after.map (OwnRequest.toEvent orgId))
  refine ⟨earlier, later, ?_, ?_⟩
  · rw [runEvents, runEvents, ended]
    have answered : ownAnswers orgId
        (step deployment (step deployment server (.forget fun _ => false)) (own.toEvent orgId)) =
        ownAnswers orgId server ++ [((⟨own.userId, own.role, some orgId⟩ : User),
          (respond deployment server.db [] ⟨own.userId, own.role, some orgId⟩ own.request
            own.client).1)] := by
      simp [ownAnswers, step, OwnRequest.toEvent, List.filter_append]
    rw [answered, reached, sameDb]
    simp [Server.start, ownAnswers]
  · rw [count, List.filter_eq_self.mpr, List.length_map]
    intro event member
    obtain ⟨request, _, rfl⟩ := List.mem_map.mp member
    simp [OwnRequest.toEvent, isOwn]

def homeDirectory (orgId userId : Nat) : Directory where
  organizations := [⟨orgId, true⟩]
  members := [⟨orgId, userId⟩]

theorem requestScope_home (orgId userId : Nat) (role : Role) :
    requestScope (homeDirectory orgId userId) ⟨userId, role, some orgId⟩ =
      .ok (some (orgId : Int)) := by
  simp [requestScope, resolveRequestOrgId, homeDirectory]

theorem respond_leaks (orgId userId : Nat) (role : Role) (request : AnalyzerRequest)
    (reached : reachesEngine request = true) :
    (respond deployment ⟨homeDirectory orgId userId, []⟩ [] ⟨userId, role, some orgId⟩ request
        (some engine)).1 ≠
      (respond deployment ⟨homeDirectory orgId userId, foreignRows orgId (requestDomain request)⟩ []
        ⟨userId, role, some orgId⟩ request (some engine)).1 := by
  obtain ⟨empty, foreign, emptySent, foreignSent, differ⟩ :=
    delegate_leaks deployment engine orgId (some (orgId : Int)) request reached
  unfold reachesEngine at reached
  rw [Bool.and_eq_true, Bool.and_eq_true] at reached
  have nothingCached : cacheGet ([] : Cache Number) (cacheKey (some (orgId : Int)) request) =
      none := rfl
  simp only [respond, reached.1.1, reached.1.2, Bool.not_true, Bool.false_eq_true, if_false,
    requestScope_home, nothingCached, emptySent, foreignSent]
  exact fun same => differ (Answer.result.inj same)

theorem answered_locally_of_isolated (orgId : Nat) (asked : List (OwnRequest Number))
    (isolated : Isolated deployment orgId asked) (own : OwnRequest Number) (member : own ∈ asked) :
    AnsweredLocally own.request own.client := by
  by_contra unanswered
  unfold AnsweredLocally at unanswered
  rw [not_or, Bool.not_eq_false] at unanswered
  obtain ⟨someClient, reached⟩ := unanswered
  obtain ⟨engine, clientIs⟩ := Option.ne_none_iff_exists'.mp someClient
  obtain ⟨before, after, rfl⟩ := List.append_of_mem member
  have agree : AgreeOn orgId ⟨homeDirectory orgId own.userId, []⟩
      ⟨homeDirectory orgId own.userId, foreignRows orgId (requestDomain own.request)⟩ :=
    ⟨rfl, rfl, (ownRows_foreign orgId (requestDomain own.request)).symm⟩
  have same := isolated _ _ agree _ _ (historyOf_own orgId before after own)
    (historyOf_own orgId before after own)
  obtain ⟨earlier, later, first, firstCount⟩ := ownAnswers_history deployment orgId
    ⟨homeDirectory orgId own.userId, []⟩ before after own
  obtain ⟨otherEarlier, otherLater, second, secondCount⟩ := ownAnswers_history deployment orgId
    ⟨homeDirectory orgId own.userId, foreignRows orgId (requestDomain own.request)⟩
    before after own
  rw [first, second] at same
  obtain ⟨_, rests⟩ := List.append_inj same (firstCount.trans secondCount.symm)
  rw [clientIs] at rests
  exact respond_leaks deployment engine orgId own.userId own.role own.request reached
    (Prod.mk.inj (List.cons.inj rests).1).2

/-- The organization's users are answered without regard to other organizations exactly
where none of their requests can reach the engine. -/
theorem isolated_iff_answered_locally (orgId : Nat) (asked : List (OwnRequest Number)) :
    Isolated deployment orgId asked ↔
      ∀ own ∈ asked, AnsweredLocally own.request own.client :=
  ⟨answered_locally_of_isolated deployment orgId asked,
    isolated_of_answered_locally deployment orgId asked⟩

def plainDeployment : Deployment Nat where
  python := plainPython
  arithmetic := centArithmetic
  ofText := fun _ => 0
  conceptKey := id
  registry := plainRegistry

/-- A viewer of organization 1 asks for the topics of a domain through the engine. -/
theorem topics_not_isolated :
    ¬ Isolated plainDeployment 1 [⟨7, .viewer, .topics "science" 10, some plainEngine⟩] := by
  intro isolated
  have answered := answered_locally_of_isolated plainDeployment 1 _ isolated _ List.mem_cons_self
  rcases answered with none | unreached
  · cases none
  · exact absurd unreached (by decide)

end Ukip.Analytics.Isolation
