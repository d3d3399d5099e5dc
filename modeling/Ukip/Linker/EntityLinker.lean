import Ukip.Entities.Table
import Ukip.Foundation.Tally

/-!
# The entity linker

`routers/entity_linker.py`: candidates, merge and dismiss.  Scores are in thousandths,
computed from the percentages that `thefuzz` gives.
-/

namespace Ukip.Linker.EntityLinker

open Foundation.Relational Foundation.Tally Analytics.Corpus Entities.Table Tenancy.Access

/-- What the linker asks of `thefuzz` and of `str.lower`. -/
structure Fuzz where
  tokenSortRatio : String → String → Nat
  ratio : String → String → Nat
  lower : String → String
  /-- a word of ASCII letters is equal to itself -/
  identical : ∀ word : String, word ≠ "" → word.toList.all Char.isAlpha = true →
    tokenSortRatio word word = 100

/-- A row of `link_dismissals`: the smaller id first. -/
structure LinkDismissal where
  id : Nat
  entityAId : Int
  entityBId : Int

def dismissalSchema : Schema LinkDismissal where
  key := LinkDismissal.id
  withKey := fun value row => { row with id := value }
  key_withKey := fun _ _ => rfl
  clash := fun _ _ => false
  clash_comm := fun _ _ => rfl
  clash_withKey := fun _ _ _ => rfl

/-- A row of `audit_logs` as the linker writes it. -/
structure AuditEntry where
  action : String
  userId : Nat
  entityType : String
  entityId : Nat
  absorbed : Nat

structure LinkerDb where
  entities : EntityTable
  relationships : List EntityRelationship
  dismissals : SerialTable dismissalSchema
  audit : List AuditEntry

def scanLimit : Nat := 1000

def maxPairs : Nat := 50

structure EntitySnap where
  id : Nat
  primaryLabel : Option String
  secondaryLabel : Option String
  canonicalId : Option String
  entityType : Option String
  enrichmentStatus : String
  validationStatus : String
  deriving DecidableEq

structure LinkCandidate where
  entityA : EntitySnap
  entityB : EntitySnap
  /-- in thousandths -/
  score : Nat
  matchedFields : List String
  deriving DecidableEq

inductive LinkerRequest where
  | candidates (threshold : Rat) (limit : Int)
  | merge (winnerId loserId : Int)
  | dismiss (entityAId entityBId : Int)

inductive Answer where
  /-- a query parameter out of its bounds: FastAPI answers 422 -/
  | rejected
  | failed (error : HttpError)
  | candidates (found : List LinkCandidate)
  | merged (winner : RawEntity)
  | dismissed (id : Nat)
  deriving DecidableEq

def internalServerError : HttpError where
  statusCode := 500
  detail := "Internal Server Error"

/-- `_snap`; `none` is the ValidationError of a NULL status. -/
def snap (row : RawEntity) : Option EntitySnap :=
  match row.enrichmentStatus, row.validationStatus with
  | some enrichmentStatus, some validationStatus =>
    some
      { id := row.id
        primaryLabel := row.primaryLabel
        secondaryLabel := row.secondaryLabel
        canonicalId := row.canonicalId
        entityType := row.entityType
        enrichmentStatus := enrichmentStatus
        validationStatus := validationStatus }
  | _, _ => none

def truthy (text : Option String) : Bool := !(text == none || text == some "")

/-- `round`: to the nearest integer, halves to the even one. -/
def roundedRatio (numerator denominator : Nat) : Nat :=
  let floor := numerator / denominator
  let twice := 2 * (numerator % denominator)
  if twice < denominator ∨ (twice = denominator ∧ floor % 2 = 0) then floor else floor + 1

/-- A field that both rows have: its percentage, weight in tenths and name, which is
matched from `bound` on. -/
structure FieldScore where
  name : String
  percent : Nat
  weight : Nat
  bound : Nat

def fieldScore (name : String) (similarity : String → String → Nat) (weight bound : Nat)
    (first second : Option String) : List FieldScore :=
  match first, second with
  | some a, some b =>
    if a ≠ "" ∧ b ≠ "" then [⟨name, similarity a b, weight, bound⟩] else []
  | _, _ => []

variable (fuzz : Fuzz)

def fieldScores (a b : RawEntity) : List FieldScore :=
  fieldScore "primary_label" fuzz.tokenSortRatio 5 75 a.primaryLabel b.primaryLabel ++
    fieldScore "secondary_label" fuzz.tokenSortRatio 3 75 a.secondaryLabel b.secondaryLabel ++
    fieldScore "canonical_id" fuzz.ratio 2 90 a.canonicalId b.canonicalId

/-- The mean is rounded half to even on exact numbers; the code rounds the nearest binary64, which
may go the other way at a half. -/
def pairScore (a b : RawEntity) : Nat × List String :=
  let scores := fieldScores fuzz a b
  if scores.isEmpty then (0, [])
  else
    (roundedRatio (10 * (scores.map fun field => field.percent * field.weight).sum)
        (scores.map FieldScore.weight).sum,
      (scores.filter fun field => field.bound ≤ field.percent).map FieldScore.name)

def blockKey (row : RawEntity) : String :=
  let stripped := String.ofList
    (strip isPythonSpace (fuzz.lower (row.secondaryLabel.getD "")).toList)
  if stripped = "" then "_ungrouped" else stripped

/-- One more item of the group of `key`; groups stay in the order of their first items. -/
def addToGroup (groups : List (String × List RawEntity)) (key : String) (row : RawEntity) :
    List (String × List RawEntity) :=
  match groups with
  | [] => [(key, [row])]
  | (other, members) :: rest =>
    if other = key then (other, members ++ [row]) :: rest
    else (other, members) :: addToGroup rest key row

def buckets (rows : List RawEntity) : List (String × List RawEntity) :=
  rows.foldl (fun groups row => addToGroup groups (blockKey fuzz row) row) []

def pairKey (a b : Int) : Int × Int := (min a b, max a b)

/-- One turn of the inner loop; `none` once a snapshot has failed.  `seen` has the keys
of the candidates so far. -/
def considerPair (threshold : Rat) (limit : Int) (dismissed : List (Int × Int))
    (found : Option (List LinkCandidate)) (pair : RawEntity × RawEntity) :
    Option (List LinkCandidate) := do
  let candidates ← found
  if limit ≤ candidates.length then some candidates
  else
    let key := pairKey pair.1.id pair.2.id
    let seen := candidates.map fun candidate =>
      pairKey candidate.entityA.id candidate.entityB.id
    if key ∈ seen ∨ key ∈ dismissed then some candidates
    else
      let score := pairScore fuzz pair.1 pair.2
      if threshold ≤ (score.1 : Rat) / 1000 then do
        let entityA ← snap pair.1
        let entityB ← snap pair.2
        some (candidates ++ [⟨entityA, entityB, score.1, score.2⟩])
      else some candidates

def dismissedSet (db : LinkerDb) : List (Int × Int) :=
  db.dismissals.rows.map fun row => (row.entityAId, row.entityBId)

def scanned (db : LinkerDb) : List RawEntity :=
  (db.entities.rows.filter fun row => row.primaryLabel.isSome).take scanLimit

def withinBounds (threshold : Rat) (limit : Int) : Bool :=
  0 ≤ threshold && threshold ≤ 1 && 1 ≤ limit && limit ≤ maxPairs

def getCandidates (db : LinkerDb) (threshold : Rat) (limit : Int) : Answer :=
  if !withinBounds threshold limit then .rejected
  else
    let pairs := (buckets fuzz (scanned db)).flatMap fun bucket => combinations bucket.2
    match pairs.foldl (considerPair fuzz threshold limit (dismissedSet db)) (some []) with
    | none => .failed internalServerError
    | some candidates =>
      .candidates ((sortedBy (fun first second => decide (second.score ≤ first.score))
        candidates).take limit.toNat)

def roleText : Role → String
  | .superAdmin => "super_admin"
  | .admin => "admin"
  | .editor => "editor"
  | .viewer => "viewer"

/-- `require_role("super_admin", "admin", "editor")` -/
def mayEdit (role : Role) : Bool := role ∈ [.superAdmin, .admin, .editor]

def roleRefused (role : Role) : HttpError where
  statusCode := 403
  detail := "Role '" ++ roleText role ++ "' is not authorized for this action"

def entityNotFound (entityId : Int) : HttpError where
  statusCode := 404
  detail := "Entity " ++ toString entityId ++ " not found"

def idsMustDiffer : HttpError where
  statusCode := 422
  detail := "winner_id and loser_id must differ"

/-- `db.get(models.RawEntity, entity_id)` -/
def entityById (db : LinkerDb) (entityId : Int) : Option RawEntity :=
  db.entities.rows.find? fun row => (row.id : Int) == entityId

def filled (kept absorbed : Option String) : Option String :=
  if !truthy kept && truthy absorbed then absorbed else kept

def absorb (winner loser : RawEntity) : RawEntity :=
  let adopts := winner.enrichmentStatus ≠ some "completed" ∧
    loser.enrichmentStatus = some "completed"
  { winner with
    primaryLabel := filled winner.primaryLabel loser.primaryLabel
    secondaryLabel := filled winner.secondaryLabel loser.secondaryLabel
    canonicalId := filled winner.canonicalId loser.canonicalId
    entityType := filled winner.entityType loser.entityType
    domain := filled winner.domain loser.domain
    validationStatus := filled winner.validationStatus loser.validationStatus
    enrichmentDoi := filled winner.enrichmentDoi loser.enrichmentDoi
    enrichmentConcepts := filled winner.enrichmentConcepts loser.enrichmentConcepts
    enrichmentSource := filled winner.enrichmentSource loser.enrichmentSource
    enrichmentStatus := if adopts then loser.enrichmentStatus else winner.enrichmentStatus
    enrichmentCitationCount :=
      if adopts then loser.enrichmentCitationCount else winner.enrichmentCitationCount }

def absorbing (loser : RawEntity) : Assignment entitySchema where
  apply := fun row => absorb row loser
  key_apply := fun _ => rfl

def flushMerge (db : LinkerDb) (userId : Nat) (winner loser : RawEntity) : Option LinkerDb :=
  (db.entities.updateChecked (fun row => entitySchema.key row == winner.id)
      (absorbing loser)).map fun updated =>
    { entities := updated.deleteWhere fun row => row.id == loser.id
      relationships := cascadeRelationships db.relationships loser.id
      dismissals := db.dismissals
      audit := db.audit ++ [⟨"MERGE", userId, "entity", winner.id, loser.id⟩] }

def mergeEntities (db : LinkerDb) (user : User) (winnerId loserId : Int) : Answer × LinkerDb :=
  if !mayEdit user.role then (.failed (roleRefused user.role), db)
  else if winnerId = loserId then (.failed idsMustDiffer, db)
  else
    match entityById db winnerId with
    | none => (.failed (entityNotFound winnerId), db)
    | some winner =>
      match entityById db loserId with
      | none => (.failed (entityNotFound loserId), db)
      | some loser =>
        match flushMerge db user.id winner loser with
        | none => (.failed internalServerError, db)
        | some after => (.merged (absorb winner loser), after)

def dismissPair (db : LinkerDb) (user : User) (entityAId entityBId : Int) : Answer × LinkerDb :=
  if !mayEdit user.role then (.failed (roleRefused user.role), db)
  else
    let pair := pairKey entityAId entityBId
    match db.dismissals.rows.find? fun row => (row.entityAId, row.entityBId) == pair with
    | some existing => (.dismissed existing.id, db)
    | none =>
      (.dismissed db.dismissals.nextKey,
        { db with dismissals := db.dismissals.append ⟨0, pair.1, pair.2⟩ (by
            simp [SerialTable.rejects, dismissalSchema]) })

def respond (db : LinkerDb) (user : User) : LinkerRequest → Answer × LinkerDb
  | .candidates threshold limit => (getCandidates fuzz db threshold limit, db)
  | .merge winnerId loserId => mergeEntities db user winnerId loserId
  | .dismiss entityAId entityBId => dismissPair db user entityAId entityBId

end Ukip.Linker.EntityLinker
