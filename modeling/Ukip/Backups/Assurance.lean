import Ukip.Foundation.LikePattern
import Ukip.Foundation.Tally
import Ukip.Analytics.Corpus

/-!
# Scopes of backup events

`backup_assurance.py`.  An event without a scope is classified from its provider and its
backup id, once in SQL (`scope_filter`) and once in Python (`classify_legacy_scope`).
-/

namespace Ukip.Backups.Assurance

open Foundation.LikePattern Foundation.SqlTruth
open Foundation.Tally (sortedBy sortedBy_perm)
open Analytics.Corpus (isPythonSpace)

abbrev Text := List Char

/-- `VALID_SCOPES`: every writer checks its scope against them. -/
inductive Scope where
  | database
  | volume
  deriving DecidableEq

def defaultScope : Scope := .database

inductive EventType where
  | backup
  | restoreDrill
  deriving DecidableEq

inductive Status where
  | completed
  | failed
  | passed
  | passedWithRisk
  deriving DecidableEq

structure BackupAssuranceEvent where
  id : Nat
  eventType : EventType
  status : Status
  environment : String
  provider : Option Text
  backupId : Option Text
  scope : Option Scope
  completedAt : Option Int
  deriving DecidableEq

def IsAscii (text : Text) : Prop := ∀ char ∈ text, char.toNat < 128

instance decidableIsAscii (text : Text) : Decidable (IsAscii text) :=
  List.decidableBAll (fun char : Char => char.toNat < 128) text

/-- The database's `lower` and `str.casefold`: on ASCII text both map the capital letters. -/
structure Folding where
  lower : Text → Text
  casefold : Text → Text
  lower_ascii : ∀ text, IsAscii text → lower text = text.map Char.toLower
  casefold_ascii : ∀ text, IsAscii text → casefold text = text.map Char.toLower

variable (folding : Folding)

def volumeWord : Text := ['v', 'o', 'l', 'u', 'm', 'e']

def tarSuffix : Text := ['.', 't', 'a', 'r']

def coalesce (operand : Option Text) (fallback : Text) : Option Text :=
  some (operand.getD fallback)

def likes (operand : Option Text) (pattern : Text) : Option Bool :=
  operand.map (matchesLike pattern)

def legacyVolumeExpression (event : BackupAssuranceEvent) : Option Bool :=
  let provider := (coalesce event.provider []).map folding.lower
  let backupId := (coalesce event.backupId []).map folding.lower
  either (likes provider ('%' :: (volumeWord ++ ['%']))) (likes backupId ('%' :: tarSuffix))

def scopeFilter (scope : Scope) (event : BackupAssuranceEvent) : Option Bool :=
  let legacyVolume := legacyVolumeExpression folding event
  let isNull : Option Bool := some event.scope.isNone
  match scope with
  | .volume =>
    either (compare (fun stored wanted => stored == wanted) event.scope (some .volume))
      (both isNull legacyVolume)
  | .database =>
    either (compare (fun stored wanted => stored == wanted) event.scope (some defaultScope))
      (both isNull (negate legacyVolume))

def rstrip (text : Text) : Text := text.rdropWhile isPythonSpace

def classifyLegacyScope (provider backupId : Option Text) : Scope :=
  let haystack := folding.casefold (provider.getD [] ++ ' ' :: backupId.getD [])
  if volumeWord <:+: haystack ∨ tarSuffix <:+ rstrip haystack then .volume else defaultScope

/-- The scope that `_event_response` shows. -/
def shownScope (event : BackupAssuranceEvent) : Scope :=
  event.scope.getD (classifyLegacyScope folding event.provider event.backupId)

/-- `completed_at DESC, id DESC` -/
def newerFirst (first second : BackupAssuranceEvent) : Bool :=
  match first.completedAt, second.completedAt with
  | some firstTime, some secondTime =>
    decide (secondTime < firstTime) || (firstTime == secondTime && decide (second.id ≤ first.id))
  | none, some _ => false
  | _, none => true

def latestCompletedBackup (events : List BackupAssuranceEvent) (environment : String)
    (scope : Scope) : Option BackupAssuranceEvent :=
  (sortedBy newerFirst (events.filter fun event =>
    event.eventType == .backup && event.status == .completed &&
      event.environment == environment && selects (scopeFilter folding scope event) &&
      event.completedAt.isSome)).head?

def folded (column : Option Text) : Text := (column.getD []).map Char.toLower

def AsciiEvent (event : BackupAssuranceEvent) : Prop :=
  IsAscii (event.provider.getD []) ∧ IsAscii (event.backupId.getD [])

instance decidableAsciiEvent (event : BackupAssuranceEvent) : Decidable (AsciiEvent event) :=
  inferInstanceAs (Decidable (_ ∧ _))

/-- The two rules can only differ where SQL sees no volume: the id may not name one, nor end
in the suffix before white space, and a blank id may not leave it to the provider. -/
def RulesAgree (provider backupId : Option Text) : Prop :=
  volumeWord <:+: folded provider ∨ tarSuffix <:+ folded backupId ∨
    (¬ volumeWord <:+: folded backupId ∧ ¬ tarSuffix <:+ rstrip (folded backupId) ∧
      (rstrip (folded backupId) = [] → ¬ tarSuffix <:+ rstrip (folded provider)))

instance decidableRulesAgree (provider backupId : Option Text) :
    Decidable (RulesAgree provider backupId) :=
  inferInstanceAs (Decidable (_ ∨ _ ∨ _))

variable {event : BackupAssuranceEvent}

theorem legacyVolume_definite (ascii : AsciiEvent event) :
    ∃ volume : Bool, legacyVolumeExpression folding event = some volume ∧
      (volume = true ↔
        volumeWord <:+: folded event.provider ∨ tarSuffix <:+ folded event.backupId) := by
  have named := matchesLike_contains volumeWord (folded event.provider)
    (by simp [Literal, volumeWord])
  have ends := matchesLike_endsWith tarSuffix (folded event.backupId)
    (by simp [Literal, tarSuffix])
  have unfolded : legacyVolumeExpression folding event =
      either (some (matchesLike ('%' :: (volumeWord ++ ['%'])) (folded event.provider)))
        (some (matchesLike ('%' :: tarSuffix) (folded event.backupId))) := by
    unfold legacyVolumeExpression folded
    simp only [coalesce, likes, Option.map_some, folding.lower_ascii _ ascii.1,
      folding.lower_ascii _ ascii.2]
  refine ⟨_, unfolded.trans ?_, by rw [← named, ← ends, ← Bool.or_eq_true]⟩
  generalize matchesLike ('%' :: (volumeWord ++ ['%'])) (folded event.provider) = first
  generalize matchesLike ('%' :: tarSuffix) (folded event.backupId) = second
  cases first <;> cases second <;> rfl

theorem rstrip_joined (first second : Text) :
    rstrip (first ++ ' ' :: second) =
      if rstrip second = [] then rstrip first else first ++ ' ' :: rstrip second := by
  have blank : isPythonSpace ' ' = true := by decide
  unfold rstrip List.rdropWhile
  rw [List.reverse_append, List.reverse_cons, List.append_assoc, List.dropWhile_append]
  by_cases empty : List.dropWhile isPythonSpace second.reverse = []
  · simp [empty, blank]
  · simp [empty]

theorem classify_iff (ascii : AsciiEvent event) :
    classifyLegacyScope folding event.provider event.backupId = .volume ↔
      volumeWord <:+: folded event.provider ∨ volumeWord <:+: folded event.backupId ∨
        tarSuffix <:+ rstrip (folded event.backupId) ∨
        (rstrip (folded event.backupId) = [] ∧ tarSuffix <:+ rstrip (folded event.provider)) := by
  have joinedAscii : IsAscii (event.provider.getD [] ++ ' ' :: event.backupId.getD []) := by
    intro char member
    rcases List.mem_append.mp member with inFirst | inRest
    · exact ascii.1 char inFirst
    · rcases List.mem_cons.mp inRest with rfl | inSecond
      · decide
      · exact ascii.2 char inSecond
  have haystack : folding.casefold (event.provider.getD [] ++ ' ' :: event.backupId.getD []) =
      folded event.provider ++ ' ' :: folded event.backupId := by
    rw [folding.casefold_ascii _ joinedAscii, List.map_append, List.map_cons]
    rfl
  have ends : tarSuffix <:+ rstrip (folded event.provider ++ ' ' :: folded event.backupId) ↔
      tarSuffix <:+ rstrip (folded event.backupId) ∨
        (rstrip (folded event.backupId) = [] ∧ tarSuffix <:+ rstrip (folded event.provider)) := by
    rw [rstrip_joined]
    by_cases blank : rstrip (folded event.backupId) = []
    · simp [blank, tarSuffix]
    · rw [if_neg blank, suffix_joined (by decide)]
      simp [blank]
  have named : volumeWord <:+: folded event.provider ++ ' ' :: folded event.backupId ↔
      volumeWord <:+: folded event.provider ∨ volumeWord <:+: folded event.backupId :=
    infix_joined (by decide)
  unfold classifyLegacyScope
  dsimp only
  split
  · rename_i holds
    rw [haystack, named, ends] at holds
    exact ⟨fun _ => or_assoc.mp holds, fun _ => rfl⟩
  · rename_i fails
    rw [haystack, named, ends] at fails
    exact ⟨nofun, fun holds => absurd (or_assoc.mpr holds) fails⟩

theorem rstrip_of_tarSuffix {text : Text} (ends : tarSuffix <:+ text) : rstrip text = text := by
  obtain ⟨front, rfl⟩ := ends
  have shape : front ++ tarSuffix = (front ++ ['.', 't', 'a']) ++ ['r'] := by simp [tarSuffix]
  rw [shape]
  exact List.rdropWhile_concat_neg isPythonSpace _ 'r' (by decide)

theorem rules_agree_iff (ascii : AsciiEvent event) :
    (selects (legacyVolumeExpression folding event) = true ↔
      classifyLegacyScope folding event.provider event.backupId = .volume) ↔
      RulesAgree event.provider event.backupId := by
  obtain ⟨volume, value, volumeIff⟩ := legacyVolume_definite folding ascii
  rw [value, selects_some, volumeIff, classify_iff folding ascii]
  have trimmed : tarSuffix <:+ folded event.backupId →
      tarSuffix <:+ rstrip (folded event.backupId) := by
    intro ends
    rw [rstrip_of_tarSuffix ends]
    exact ends
  unfold RulesAgree
  tauto

theorem selects_scopeFilter (ascii : AsciiEvent event) (scope : Scope) :
    selects (scopeFilter folding scope event) = true ↔
      event.scope.getD (if selects (legacyVolumeExpression folding event) = true then .volume
        else .database) = scope := by
  obtain ⟨volume, value, _⟩ := legacyVolume_definite folding ascii
  unfold scopeFilter
  rw [value]
  cases event.scope with
  | none => cases scope <;> cases volume <;> decide
  | some stored => cases scope <;> cases stored <;> cases volume <;> decide

variable {events : List BackupAssuranceEvent}

theorem latest_mem {environment : String} {scope : Scope}
    (latest : latestCompletedBackup folding events environment scope = some event) :
    event ∈ events ∧ selects (scopeFilter folding scope event) = true := by
  have sorted := List.mem_of_mem_head? latest
  have passes := (sortedBy_perm newerFirst _).mem_iff.mp sorted
  obtain ⟨stored, conditions⟩ := List.mem_filter.mp passes
  simp only [Bool.and_eq_true] at conditions
  exact ⟨stored, conditions.1.2⟩

/-- What the query for the database scope returns is shown as such exactly where the two
rules agree. -/
theorem latest_shown_iff {environment : String} (ascii : AsciiEvent event)
    (latest : latestCompletedBackup folding events environment .database = some event) :
    shownScope folding event ≠ .volume ↔
      (event.scope = none → RulesAgree event.provider event.backupId) := by
  have selected := (selects_scopeFilter folding ascii .database).mp (latest_mem folding latest).2
  have agree := rules_agree_iff folding ascii
  unfold shownScope
  cases stored : event.scope with
  | some scope =>
    rw [stored] at selected
    simp only [Option.getD_some] at selected ⊢
    simp [selected]
  | none =>
    rw [stored] at selected
    simp only [Option.getD_none] at selected ⊢
    have notVolume : ¬ selects (legacyVolumeExpression folding event) = true := by
      intro volume
      rw [if_pos volume] at selected
      cases selected
    rw [forall_const, ← agree, iff_false_left notVolume]

/-- The two rules classify an event without a scope alike exactly under `RulesAgree`; each
event has one scope in SQL; and the newest event of the database scope is shown as a volume
exactly where the rules part. -/
theorem legacy_scopes_agree_iff (folding : Folding) (events : List BackupAssuranceEvent)
    (environment : String) (ascii : ∀ event ∈ events, AsciiEvent event) :
    (∀ event ∈ events, event.scope = none →
      ((selects (scopeFilter folding .volume event) = true ↔
          classifyLegacyScope folding event.provider event.backupId = .volume) ↔
        RulesAgree event.provider event.backupId)) ∧
    (∀ event ∈ events, ∃! scope, selects (scopeFilter folding scope event) = true) ∧
    ∀ event, latestCompletedBackup folding events environment .database = some event →
      (shownScope folding event ≠ .volume ↔
        (event.scope = none → RulesAgree event.provider event.backupId)) := by
  refine ⟨?_, ?_, ?_⟩
  · intro event member unscoped
    have selected := selects_scopeFilter folding (ascii event member) .volume
    rw [unscoped, Option.getD_none] at selected
    rw [selected, ← rules_agree_iff folding (ascii event member)]
    by_cases volume : selects (legacyVolumeExpression folding event) = true <;> simp [volume]
  · intro event member
    refine ⟨_, (selects_scopeFilter folding (ascii event member) _).mpr rfl, ?_⟩
    intro other selected
    exact ((selects_scopeFilter folding (ascii event member) other).mp selected).symm
  · intro event latest
    exact latest_shown_iff folding (ascii event (latest_mem folding latest).1) latest

def asciiFolding : Folding where
  lower := List.map Char.toLower
  casefold := List.map Char.toLower
  lower_ascii := fun _ _ => rfl
  casefold_ascii := fun _ _ => rfl

def unnamedArchive : BackupAssuranceEvent where
  id := 1
  eventType := .backup
  status := .completed
  environment := "production"
  provider := some ['d', 'o', 'k', 'p', 'l', 'o', 'y']
  backupId := some ['V', 'o', 'l', 'u', 'm', 'e', '.', 't', 'g', 'z']
  scope := none
  completedAt := some 10

theorem legacy_scopes_agree_iff_archive :
    (∀ event ∈ [unnamedArchive], AsciiEvent event) ∧
      ∀ event, latestCompletedBackup asciiFolding [unnamedArchive] "production" .database =
          some event →
        (shownScope asciiFolding event ≠ .volume ↔
          (event.scope = none → RulesAgree event.provider event.backupId)) :=
  ⟨by decide,
    (legacy_scopes_agree_iff asciiFolding [unnamedArchive] "production" (by decide)).2.2⟩

/-- The query for the newest database backup returns an event that is classified as a
volume. -/
theorem archive_governs_freshness :
    unnamedArchive.scope = none ∧ AsciiEvent unnamedArchive ∧
      classifyLegacyScope asciiFolding unnamedArchive.provider unnamedArchive.backupId = .volume ∧
      ¬ selects (scopeFilter asciiFolding .volume unnamedArchive) = true ∧
      latestCompletedBackup asciiFolding [unnamedArchive] "production" .database =
        some unnamedArchive := by
  decide

end Ukip.Backups.Assurance
