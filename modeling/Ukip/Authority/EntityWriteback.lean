import Ukip.Authority.OrderIndependence
import Ukip.Entities.Table
import Ukip.Foundation.JsonValue

/-!
# Confirmed identities written back

`authority/entity_writeback.py`.  The confirmed identity becomes the canonical id of every
author and affiliation row with the label whose own id is weak.  An authority record has no
column for the kind of entity its value was taken from, and the rows are found by label
alone.
-/

namespace Ukip.Authority.EntityWriteback

open Foundation.JsonValue Foundation.Words
open Analytics.Corpus (RawEntity isPythonSpace)
open Entities.Table Tenancy.Access

/-- The columns of `authority_records` that are read here. -/
structure AuthorityRecord where
  id : Nat
  orgId : Option Int
  originalValue : Option String
  authoritySource : Option String
  authorityId : Option String
  canonicalLabel : Option String
  confidence : Json
  uri : Option String

/-- What the interpreter brings: case mapping, and the parser and printer of JSON. -/
structure Python where
  lower : List Char → List Char
  upper : List Char → List Char
  loads : String → Option Json
  dumps : Json → String

def weakPrefixes : List String := ["author:", "affiliation:"]

def strongPrefixes : List String :=
  ["orcid:", "wikidata:", "viaf:", "openalex:", "dbpedia:", "ror:", "doi:"]

def eligibleEntityTypes : List String := ["author", "affiliation"]

def nilSource : String := "internal_nil"

/-- `text.strip()` -/
def strip (text : String) : String := String.ofList (trim isPythonSpace text.toList)

section Promotion

variable (python : Python)

/-- `text.strip().lower()` -/
def stripLower (text : String) : String :=
  String.ofList (python.lower (trim isPythonSpace text.toList))

def startsWithOneOf (prefixes : List String) (text : String) : Bool :=
  prefixes.any fun start => start.toList.isPrefixOf text.toList

def isWeak (canonicalId : Option String) : Bool :=
  match canonicalId with
  | none => true
  | some text =>
    if text = "" then true
    else
      let cid := stripLower python text
      if startsWithOneOf strongPrefixes cid then false else startsWithOneOf weakPrefixes cid

def buildAuthorityCanonicalId (source authorityId : Option String) : Option String :=
  let src := stripLower python (source.getD "")
  let aid := strip (authorityId.getD "")
  if src = "" ∨ aid = "" ∨ src = nilSource ∨ String.ofList (python.upper aid.toList) = "NIL" then none
  else some (src ++ ":" ++ aid)

def textOrNull : Option String → Json
  | none => .null
  | some text => .text text

/-- `_merge_authority_provenance`: the new `attributes_json`. -/
def mergeAuthorityProvenance (attributesJson : Option String) (record : AuthorityRecord)
    (newCid promotedAt : String) : Option String :=
  let attrs :=
    match attributesJson with
    | none => []
    | some text =>
      if text = "" then []
      else
        match python.loads text with
        | some (.object entries) => entries
        | _ => []
  let authority : Entries :=
    [("canonical_id", .text newCid), ("source", textOrNull record.authoritySource),
      ("authority_id", textOrNull record.authorityId),
      ("canonical_label", textOrNull record.canonicalLabel), ("uri", textOrNull record.uri),
      ("confidence", record.confidence), ("authority_record_id", .integer record.id),
      ("promoted_at", .text promotedAt)]
  some (python.dumps (.object (assign attrs "authority" (.object authority))))

def matched (scope : Option Int) (label : String) (row : RawEntity) : Bool :=
  inScope scope row.orgId && eligibleEntityTypes.any (fun kind => row.entityType == some kind) &&
    row.primaryLabel == some label

def promotable (newCid : String) (row : RawEntity) : Bool :=
  row.canonicalId != some newCid && isWeak python row.canonicalId

/-- What the call is about, once its early returns are past: the identity, the label and the
scope. -/
structure Target where
  newCid : String
  label : String
  scope : Option Int
  deriving DecidableEq

def target (enabled : Bool) (record : AuthorityRecord) (orgId : Option Int) : Option Target :=
  if enabled then
    match buildAuthorityCanonicalId python record.authoritySource record.authorityId with
    | none => none
    | some newCid =>
      let label := strip (record.originalValue.getD "")
      if label = "" then none
      else some { newCid := newCid, label := label, scope := orgId.or record.orgId }
  else none

def Target.promotes (target : Target) (row : RawEntity) : Bool :=
  matched target.scope target.label row && promotable python target.newCid row

def Target.promoteRow (target : Target) (record : AuthorityRecord) (promotedAt : String)
    (row : RawEntity) : RawEntity :=
  if target.promotes python row then
    { row with
      canonicalId := some target.newCid
      attributesJson :=
        mergeAuthorityProvenance python row.attributesJson record target.newCid promotedAt }
  else row

/-- `promote_confirmed_identity`: the rows as they are in the session after it, and its
answer. -/
def promoteConfirmedIdentity (enabled : Bool) (rows : List RawEntity) (record : AuthorityRecord)
    (orgId : Option Int) (promotedAt : String) : List RawEntity × Nat :=
  match target python enabled record orgId with
  | none => (rows, 0)
  | some target =>
    (rows.map (target.promoteRow python record promotedAt), rows.countP (target.promotes python))

/-- What a promotion should leave: only rows of the record's own kind have a new canonical
id, a strong id stays, and no two rows have one canonical key. -/
structure SoundPromotion (before after : List RawEntity) (ownType : String) : Prop where
  typed : ∀ old ∈ before, ∀ new ∈ after, new.id = old.id → new.canonicalId ≠ old.canonicalId →
    old.entityType = some ownType
  strong : ∀ old ∈ before, ∀ new ∈ after, new.id = old.id → isWeak python old.canonicalId = false →
    new.canonicalId = old.canonicalId
  unique : ∀ first ∈ after, ∀ second ∈ after, first.id ≠ second.id →
    canonicalClash first second = false

/-- Rows that could not have one canonical id. -/
def SamePlace (first second : RawEntity) : Prop :=
  first.orgId = second.orgId ∧ first.domain = second.domain ∧ first.domain ≠ none ∧
    first.entityType = second.entityType

instance (first second : RawEntity) : Decidable (SamePlace first second) :=
  inferInstanceAs (Decidable (_ ∧ _ ∧ _ ∧ _))

/-- Every row that is promoted is of the record's own kind, and no other row of its place is
promoted or has the identity already. -/
def Unambiguous (target : Target) (rows : List RawEntity) (ownType : String) : Prop :=
  ∀ row ∈ rows, target.promotes python row = true → row.entityType = some ownType ∧
    ∀ other ∈ rows, other.id ≠ row.id → SamePlace row other →
      target.promotes python other = false ∧ other.canonicalId ≠ some target.newCid

variable {python} {target : Target} {record : AuthorityRecord} {promotedAt : String}

@[simp] theorem id_promoteRow (row : RawEntity) :
    (target.promoteRow python record promotedAt row).id = row.id := by
  unfold Target.promoteRow
  split <;> rfl

variable {row : RawEntity}

variable (record promotedAt) in
theorem promoteRow_of_promotes (promotes : target.promotes python row = true) :
    (target.promoteRow python record promotedAt row).canonicalId = some target.newCid ∧
      (target.promoteRow python record promotedAt row).orgId = row.orgId ∧
      (target.promoteRow python record promotedAt row).domain = row.domain ∧
      (target.promoteRow python record promotedAt row).entityType = row.entityType := by
  unfold Target.promoteRow
  rw [if_pos promotes]
  exact ⟨rfl, rfl, rfl, rfl⟩

theorem promoteRow_of_not (skips : target.promotes python row = false) :
    target.promoteRow python record promotedAt row = row := by
  unfold Target.promoteRow
  rw [if_neg (by simp [skips])]

theorem promotes_cases (promotes : target.promotes python row = true) :
    (∃ kind, row.entityType = some kind) ∧ row.canonicalId ≠ some target.newCid ∧
      isWeak python row.canonicalId = true := by
  simp only [Target.promotes, matched, promotable, Bool.and_eq_true, List.any_eq_true, beq_iff_eq,
    bne_iff_ne] at promotes
  obtain ⟨⟨⟨_, kind, _, typed⟩, _⟩, differs, weak⟩ := promotes
  exact ⟨⟨kind, typed⟩, differs, weak⟩

theorem canonicalClash_iff {first second : RawEntity} {kind cid : String}
    (typed : first.entityType = some kind) (identified : first.canonicalId = some cid) :
    canonicalClash first second = true ↔ SamePlace first second ∧ second.canonicalId = some cid := by
  unfold canonicalClash canonicalKey SamePlace
  rw [typed, identified]
  cases first.domain <;> cases second.domain <;> cases second.entityType <;>
    cases second.canonicalId <;> simp
  grind

theorem clash_promoted_iff {row other : RawEntity} (promotes : target.promotes python row = true) :
    canonicalClash (target.promoteRow python record promotedAt row)
        (target.promoteRow python record promotedAt other) = true ↔
      SamePlace row other ∧
        (target.promotes python other = true ∨ other.canonicalId = some target.newCid) := by
  obtain ⟨⟨kind, typed⟩, _⟩ := promotes_cases promotes
  obtain ⟨identified, sameOrg, sameDomain, sameType⟩ :=
    promoteRow_of_promotes record promotedAt promotes
  rw [canonicalClash_iff (sameType.trans typed) identified]
  unfold SamePlace
  rw [sameOrg, sameDomain, sameType]
  cases joins : target.promotes python other with
  | true =>
    obtain ⟨otherIdentified, otherOrg, otherDomain, otherType⟩ :=
      promoteRow_of_promotes record promotedAt joins
    rw [otherIdentified, otherOrg, otherDomain, otherType]
    simp
  | false =>
    rw [promoteRow_of_not joins]
    simp

theorem promoted_eq (table : EntityTable) {old new : RawEntity}
    (inTable : old ∈ table.rows)
    (inAfter : new ∈ table.rows.map (target.promoteRow python record promotedAt))
    (sameId : new.id = old.id) : new = target.promoteRow python record promotedAt old := by
  obtain ⟨row, member, rfl⟩ := List.mem_map.mp inAfter
  rw [id_promoteRow] at sameId
  rw [table.eq_of_key_eq member inTable sameId]

theorem sound_promoteRows_iff (table : EntityTable) (ownType : String) :
    SoundPromotion python table.rows (table.rows.map (target.promoteRow python record promotedAt))
        ownType ↔ Unambiguous python target table.rows ownType := by
  constructor
  · intro sound row member promotes
    have inAfter := List.mem_map_of_mem (f := target.promoteRow python record promotedAt) member
    refine ⟨?_, fun other otherMember apart place => ?_⟩
    · refine sound.typed row member _ inAfter (id_promoteRow row) ?_
      rw [(promoteRow_of_promotes record promotedAt promotes).1]
      exact (promotes_cases promotes).2.1.symm
    · have free := sound.unique _ inAfter _ (List.mem_map_of_mem otherMember)
        (by simpa using apart.symm)
      constructor
      · by_contra joins
        rw [(clash_promoted_iff promotes).mpr ⟨place, .inl (by simpa using joins)⟩] at free
        cases free
      · intro holds
        rw [(clash_promoted_iff promotes).mpr ⟨place, .inr holds⟩] at free
        cases free
  · intro unambiguous
    refine
      { typed := ?_
        strong := ?_
        unique := ?_ }
    · intro old inTable new inAfter sameId changed
      rw [promoted_eq table inTable inAfter sameId] at changed
      cases promotes : target.promotes python old with
      | true => exact (unambiguous old inTable promotes).1
      | false => exact absurd (by rw [promoteRow_of_not promotes]) changed
    · intro old inTable new inAfter sameId isStrong
      rw [promoted_eq table inTable inAfter sameId]
      cases promotes : target.promotes python old with
      | true =>
        rw [(promotes_cases promotes).2.2] at isStrong
        cases isStrong
      | false => rw [promoteRow_of_not promotes]
    · intro first inFirst second inSecond apart
      obtain ⟨row, member, rfl⟩ := List.mem_map.mp inFirst
      obtain ⟨other, otherMember, rfl⟩ := List.mem_map.mp inSecond
      rw [id_promoteRow, id_promoteRow] at apart
      cases promotes : target.promotes python row with
      | true =>
        rw [← Bool.not_eq_true, clash_promoted_iff promotes]
        rintro ⟨place, taken⟩
        obtain ⟨stays, free⟩ := (unambiguous row member promotes).2 other otherMember apart.symm place
        rcases taken with joins | holds
        · rw [stays] at joins
          cases joins
        · exact free holds
      | false =>
        cases joins : target.promotes python other with
        | true =>
          rw [canonicalClash_comm, ← Bool.not_eq_true, clash_promoted_iff joins]
          rintro ⟨place, taken⟩
          obtain ⟨stays, free⟩ := (unambiguous other otherMember joins).2 row member apart place
          rcases taken with both | holds
          · rw [promotes] at both
            cases both
          · exact free holds
        | false =>
          rw [promoteRow_of_not promotes, promoteRow_of_not joins]
          by_contra clashes
          exact apart (congrArg RawEntity.id
            (table.eq_of_clash member otherMember (Bool.eq_true_of_not_eq_false clashes)))

/-- For every table and every record, whatever kind of entity the record's value was taken
from: the promotion is sound exactly if there is nothing to promote or its target is
unambiguous. -/
theorem promotion_sound_iff (python : Python) (table : EntityTable) (enabled : Bool)
    (record : AuthorityRecord) (orgId : Option Int) (promotedAt ownType : String) :
    SoundPromotion python table.rows
        (promoteConfirmedIdentity python enabled table.rows record orgId promotedAt).1 ownType ↔
      ∀ target, EntityWriteback.target python enabled record orgId = some target →
        Unambiguous python target table.rows ownType := by
  unfold promoteConfirmedIdentity
  cases about : EntityWriteback.target python enabled record orgId with
  | some target =>
    refine (sound_promoteRows_iff table ownType).trans ⟨?_, fun all => all target rfl⟩
    rintro unambiguous _ ⟨⟩
    exact unambiguous
  | none =>
    refine ⟨fun _ target absent => (by cases absent), fun _ => ?_⟩
    have same : ∀ old ∈ table.rows, ∀ new ∈ table.rows, new.id = old.id → new = old :=
      fun old inTable new inAfter sameId => table.eq_of_key_eq inAfter inTable sameId
    exact
      { typed := fun old inTable new inAfter sameId changed =>
          absurd (by rw [same old inTable new inAfter sameId]) changed
        strong := fun old inTable new inAfter sameId _ => by
          rw [same old inTable new inAfter sameId]
        unique := fun first inFirst second inSecond apart => by
          by_contra clashes
          exact apart (congrArg RawEntity.id
            (table.eq_of_clash inFirst inSecond (Bool.eq_true_of_not_eq_false clashes))) }

end Promotion

def samplePython : Python where
  lower text := text.map Char.toLower
  upper text := text.map Char.toUpper
  loads _ := none
  dumps _ := ""

def derivedRow (id : Nat) (entityType label canonicalId : String) : RawEntity where
  id := id
  orgId := some 1
  domain := some "science"
  entityType := some entityType
  primaryLabel := some label
  canonicalId := some canonicalId
  attributesJson := none
  validationStatus := some "derived"
  enrichmentCitationCount := none
  enrichmentStatus := some "derived"
  source := some "graph_materializer"

/-- An author of two spellings, the first one confirmed already, and an institution that has
the author's name. -/
def maxPlancks : EntityTable where
  rows :=
    [derivedRow 1 "author" "M. Planck" "wikidata:Q9021",
      derivedRow 2 "author" "Max Planck" "author:max-planck",
      derivedRow 3 "affiliation" "Max Planck" "affiliation:max-planck"]
  nextKey := 4
  key_lt := by decide
  distinct := by decide
  unclashing := by decide

def maxPlanckRecord : AuthorityRecord where
  id := 7
  orgId := some 1
  originalValue := some "Max Planck"
  authoritySource := some "wikidata"
  authorityId := some "Q9021"
  canonicalLabel := some "Max Planck"
  confidence := .decimal "0.97" false
  uri := some "https://www.wikidata.org/wiki/Q9021"

def afterMaxPlanck : List RawEntity :=
  (promoteConfirmedIdentity samplePython true maxPlancks.rows maxPlanckRecord (some 1)
    "2026-05-15T12:00:00+00:00").1

/-- The institution takes the identity of the author, and two rows of the author have it. -/
theorem max_planck_unsound :
    ¬ SoundPromotion samplePython maxPlancks.rows afterMaxPlanck "author" ∧
      (afterMaxPlanck.map fun row => (row.entityType, row.canonicalId)) =
        [(some "author", some "wikidata:Q9021"), (some "author", some "wikidata:Q9021"),
          (some "affiliation", some "wikidata:Q9021")] := by
  refine ⟨fun sound => ?_, by decide⟩
  have apart := sound.unique (derivedRow 1 "author" "M. Planck" "wikidata:Q9021")
    (by decide)
    { derivedRow 2 "author" "Max Planck" "wikidata:Q9021" with attributesJson := some "" }
    (by decide) (by decide)
  revert apart
  decide

end Ukip.Authority.EntityWriteback
