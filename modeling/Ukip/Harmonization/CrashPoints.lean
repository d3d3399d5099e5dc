import Ukip.Harmonization.UndoRedo

/-!
# Crash points of a harmonization request

A step function commits the fields that it has cleaned; the log and its change records follow
in the same request and are committed later.  The request is a script of what its session does,
and a crash leaves what the last commit before it has written, as does a commit that
`uq_raw_entities_canonical` refuses.
-/

namespace Ukip.Harmonization.CrashPoints

open Foundation.EventRun Foundation.Toggling Steps UndoRedo

/-- The tables as they are committed and as the session has them, with the changes that the
last step function has returned. -/
structure Session where
  committed : HarmonizationDb
  working : HarmonizationDb
  changes : List FieldChange

def opened (db : HarmonizationDb) : Session := ⟨db, db, []⟩

inductive Action where
  /-- the loop of a step function over its entities -/
  | stepFunction (step : HarmonizationStep)
  | commit
  /-- the log entry, flushed for its id -/
  | addLog (step : HarmonizationStep) (withSample : Bool)
  | addChangeRecords

def perform (scope : Option Int) (session : Session) : Action → Session
  | .stepFunction step =>
    let changes := step.function scope session.working.entities
    { session with
      changes := changes
      working := { session.working with
        entities := changes.foldl
          (fun entities change => setField entities change.recordId change.field change.newValue)
          session.working.entities } }
  | .commit => { session with committed := session.working }
  | .addLog step withSample =>
    let log : HarmonizationLog :=
      { id := session.working.lastLogId + 1
        orgId := Tenancy.Access.persistedOrgId scope
        stepId := step.stepId
        stepName := step.name
        recordsUpdated := session.changes.length
        fieldsModified := (session.changes.map FieldChange.field).eraseDups
        sample := if withSample then some (session.changes.take 20) else none
        reverted := false }
    { session with
      working := { session.working with
        logs := session.working.logs ++ [log]
        lastLogId := log.id } }
  | .addChangeRecords =>
    { session with
      working := { session.working with
        changes := session.working.changes ++
          session.changes.map fun change => ⟨session.working.lastLogId, change⟩ } }

def stepScript (withSample : Bool) (step : HarmonizationStep) : List Action :=
  [.stepFunction step, .commit, .addLog step withSample, .addChangeRecords]

def script (withSample : Bool) (steps : List HarmonizationStep) : List Action :=
  steps.flatMap (stepScript withSample) ++ [.commit]

/-- `apply_harmonization_step` -/
def applyScript (step : HarmonizationStep) : List Action := script true [step]

/-- `apply_all_harmonization_steps` -/
def applyAllScript (lower : Text → Text) : List Action := script false (harmonizationSteps lower)

variable {lower : Text → Text} {scope : Option Int} {start : HarmonizationDb}

theorem stepScript_working (withSample : Bool) (step : HarmonizationStep) (session : Session) :
    (runEvents (perform scope) session (stepScript withSample step)).working =
      (logStep scope withSample session.working step).2 := rfl

theorem script_committed (withSample : Bool) (steps : List HarmonizationStep) (session : Session) :
    (runEvents (perform scope) session (script withSample steps)).committed =
      steps.foldl (fun db step => (logStep scope withSample db step).2) session.working := by
  induction steps generalizing session with
  | nil => rfl
  | cons step rest ih =>
    have split : script withSample (step :: rest) =
        stepScript withSample step ++ script withSample rest := by simp [script]
    rw [split, runEvents_append, ih, stepScript_working]
    rfl

theorem scripts_complete (scope : Option Int) (db : HarmonizationDb) (step : HarmonizationStep) :
    (runEvents (perform scope) (opened db) (applyScript step)).committed =
        (logStep scope true db step).2 ∧
      (runEvents (perform scope) (opened db) (applyAllScript lower)).committed =
        (applyAllHarmonizationSteps lower scope db).2 :=
  ⟨script_committed true [step] (opened db),
    script_committed false (harmonizationSteps lower) (opened db)⟩

/-- Every field that has changed since the start has a change record, behind a log of its own,
with the value it had. -/
def Undoable (start db : HarmonizationDb) : Prop :=
  ∀ cell, valueOf db.entities cell ≠ valueOf start.entities cell →
    ∃ log ∈ db.logs.drop start.logs.length, ∃ record ∈ db.changes.drop start.changes.length,
      record.logId = log.id ∧ (record.change.recordId, record.change.field) = cell ∧
        record.change.oldValue = valueOf start.entities cell

structure Untouched (start : HarmonizationDb) (session : Session) : Prop where
  committed : session.committed.entities = start.entities
  working : session.working.entities = start.entities
  records : session.working.changes = start.changes
  changes : session.changes = []

variable {session : Session}

theorem Untouched.undoable (untouched : Untouched start session) :
    Undoable start session.committed := by
  intro cell changed
  rw [untouched.committed] at changed
  exact absurd rfl changed

/-- A step function without changes leaves the session untouched, and so does all that follows
it. -/
theorem Untouched.perform (untouched : Untouched start session) (scope : Option Int)
    (action : Action)
    (calm : ∀ step, action = .stepFunction step → step.function scope start.entities = []) :
    Untouched start (perform scope session action) := by
  cases action with
  | stepFunction step =>
    have nothing : step.function scope session.working.entities = [] := by
      rw [untouched.working]
      exact calm step rfl
    refine ⟨untouched.committed, ?_, untouched.records, nothing⟩
    change List.foldl _ _ (step.function scope session.working.entities) = _
    rw [nothing]
    exact untouched.working
  | commit => exact ⟨untouched.working, untouched.working, untouched.records, untouched.changes⟩
  | addLog step withSample =>
    exact ⟨untouched.committed, untouched.working, untouched.records, untouched.changes⟩
  | addChangeRecords =>
    refine ⟨untouched.committed, untouched.working, ?_, untouched.changes⟩
    change session.working.changes ++ session.changes.map _ = start.changes
    rw [untouched.changes, untouched.records, List.map_nil, List.append_nil]

variable {step : HarmonizationStep}

theorem written_cells (scope : Option Int) (distinct : (start.entities.map RawEntity.id).Nodup)
    (member : step ∈ harmonizationSteps lower) :
    (∀ record ∈ step.function scope start.entities, record.newValue ≠ record.oldValue ∧
      record.oldValue = valueOf start.entities (record.recordId, record.field)) ∧
    ∀ cell, valueOf ((step.function scope start.entities).foldl
        (fun entities change => setField entities change.recordId change.field change.newValue)
        start.entities) cell =
      if ∃ change ∈ (step.function scope start.entities).map toChange, change.cell = cell
      then target lower start cell else valueOf start.entities cell := by
  obtain ⟨reached, recorded⟩ := step_recorded distinct member scope
  refine ⟨fun record changed => ?_, fun cell => ?_⟩
  · obtain ⟨fields, cleaning, function, _⟩ := step_cleans member
    have old := (recorded (toChange record) (List.mem_map_of_mem changed)).1
    rw [function] at changed
    exact ⟨(mem_fieldStep changed).2.2.1, old⟩
  · rw [(foldl_setField FieldChange.newValue Change.after (fun _ => rfl) _ reached.known).2]
    exact writeBack_apply (fun change listed => (recorded change listed).2)
      (valueOf start.entities) cell

theorem changed_cell (distinct : (start.entities.map RawEntity.id).Nodup)
    (member : step ∈ harmonizationSteps lower) (effective : step.function scope start.entities ≠ []) :
    ∃ cell, valueOf ((step.function scope start.entities).foldl
        (fun entities change => setField entities change.recordId change.field change.newValue)
        start.entities) cell ≠ valueOf start.entities cell := by
  obtain ⟨fields, cleaning, function, cleans⟩ := step_cleans member
  obtain ⟨records, cells⟩ := written_cells scope distinct member
  obtain ⟨record, changed⟩ := List.exists_mem_of_ne_nil _ effective
  obtain ⟨differs, old⟩ := records record changed
  refine ⟨(record.recordId, record.field), ?_⟩
  rw [cells, if_pos ⟨_, List.mem_map_of_mem changed, rfl⟩, ← old]
  rw [function] at changed
  obtain ⟨ofField, new, _⟩ := mem_fieldStep changed
  have after : record.newValue = target lower start (record.recordId, record.field) := by
    rw [new, cleans record.field ofField, old]
    rfl
  rw [← after]
  exact differs

theorem not_undoable_after_commit (distinct : (start.entities.map RawEntity.id).Nodup)
    (untouched : Untouched start session) (member : step ∈ harmonizationSteps lower)
    (effective : step.function scope start.entities ≠ []) :
    ¬ Undoable start
      (perform scope (perform scope session (.stepFunction step)) .commit).committed := by
  intro undoable
  obtain ⟨cell, changed⟩ := changed_cell distinct member effective
  have entities : (perform scope (perform scope session (.stepFunction step))
      .commit).committed.entities = (step.function scope start.entities).foldl
        (fun entities change => setField entities change.recordId change.field change.newValue)
        start.entities := by
    rw [← untouched.working]
    rfl
  rw [← entities] at changed
  obtain ⟨_, _, record, listed, _⟩ := undoable cell changed
  have records : (perform scope (perform scope session (.stepFunction step))
      .commit).committed.changes = start.changes := untouched.records
  rw [records, List.drop_length] at listed
  exact nomatch listed

/-- From an untouched session, a script is undoable at each of its crash points exactly if none
of its steps has anything to change. -/
theorem script_undoable_iff (distinct : (start.entities.map RawEntity.id).Nodup) (withSample : Bool)
    (steps : List HarmonizationStep) (members : ∀ step ∈ steps, step ∈ harmonizationSteps lower)
    (untouched : Untouched start session) :
    EveryState (perform scope) (fun session => Undoable start session.committed) session
        (script withSample steps) ↔
      ∀ step ∈ steps, step.function scope start.entities = [] := by
  induction steps generalizing session with
  | nil =>
    have committed : Untouched start (perform scope session .commit) :=
      untouched.perform scope .commit nofun
    exact iff_of_true ⟨untouched.undoable, committed.undoable⟩ nofun
  | cons step rest ih =>
    obtain ⟨member, members⟩ := List.forall_mem_cons.mp members
    rw [List.forall_mem_cons]
    by_cases calm : step.function scope start.entities = []
    · have ran := untouched.perform scope (.stepFunction step) (by
        rintro _ ⟨⟩
        exact calm)
      have committed := ran.perform scope .commit nofun
      have logged := committed.perform scope (.addLog step withSample)
        nofun
      have recorded := logged.perform scope .addChangeRecords
        nofun
      constructor
      · rintro ⟨_, _, _, _, every⟩
        exact ⟨calm, (ih members recorded).mp every⟩
      · rintro ⟨_, calmRest⟩
        exact ⟨untouched.undoable, ran.undoable, committed.undoable, logged.undoable,
          (ih members recorded).mpr calmRest⟩
    · refine iff_of_false ?_ fun both => calm both.1
      rintro ⟨_, _, undoable, _⟩
      exact not_undoable_after_commit distinct untouched member calm undoable

/-- Applying a step, or all of them, is atomic at every crash point exactly if there is nothing
to change. -/
theorem apply_atomic_iff (lower : Text → Text) (scope : Option Int) (start : HarmonizationDb)
    (distinct : (start.entities.map RawEntity.id).Nodup) :
    (∀ step ∈ harmonizationSteps lower,
      EveryState (perform scope) (fun session => Undoable start session.committed)
          (opened start) (applyScript step) ↔
        step.function scope start.entities = []) ∧
    (EveryState (perform scope) (fun session => Undoable start session.committed)
          (opened start) (applyAllScript lower) ↔
        ∀ step ∈ harmonizationSteps lower, step.function scope start.entities = []) := by
  have untouched : Untouched start (opened start) := ⟨rfl, rfl, rfl, rfl⟩
  refine ⟨fun step member => ?_, ?_⟩
  · have members : ∀ other ∈ [step], other ∈ harmonizationSteps lower := by
      rw [List.forall_mem_singleton]
      exact member
    refine (script_undoable_iff distinct true [step] members untouched).trans ?_
    exact List.forall_mem_singleton
  · exact script_undoable_iff distinct false (harmonizationSteps lower) (fun _ member => member)
      untouched

def oneLabel : HarmonizationDb where
  entities := [⟨1, none, some " a".toList, none, none, some "article".toList, some "valid".toList⟩]
  logs := []
  lastLogId := 0
  changes := []

theorem apply_atomic_iff_clean :
    EveryState (perform none) (fun session => Undoable oneLabel session.committed)
        (opened oneLabel)
        (applyScript ⟨"set_default_validation", "Set Default Validation Status",
          stepSetDefaultValidation⟩) ↔
      stepSetDefaultValidation none oneLabel.entities = [] :=
  (apply_atomic_iff id none oneLabel (by decide)).1 _ (by simp [harmonizationSteps])

/-- A crash behind the commit of the step function: the label is clean, and no log has been
written. -/
theorem label_without_log :
    let crashed := (runEvents (perform none) (opened oneLabel)
      ((applyScript ⟨"normalize_labels", "Normalize Labels", stepNormalizeLabels⟩).take 2)).committed
    crashed.entities.map RawEntity.primaryLabel = [some "a".toList] ∧
      crashed.logs = [] ∧ crashed.changes = [] ∧ ¬ Undoable oneLabel crashed := by
  have labels : (runEvents (perform none) (opened oneLabel)
      ((applyScript ⟨"normalize_labels", "Normalize Labels",
        stepNormalizeLabels⟩).take 2)).committed.entities.map
        RawEntity.primaryLabel = [some "a".toList] := by decide
  refine ⟨labels, rfl, rfl, ?_⟩
  have untouched : Untouched oneLabel (opened oneLabel) := ⟨rfl, rfl, rfl, rfl⟩
  have member : (⟨"normalize_labels", "Normalize Labels", stepNormalizeLabels⟩ :
      HarmonizationStep) ∈ harmonizationSteps id := List.mem_cons_self
  have effective : stepNormalizeLabels none oneLabel.entities ≠ [] := by decide
  exact not_undoable_after_commit (by decide) untouched member effective

end Ukip.Harmonization.CrashPoints
