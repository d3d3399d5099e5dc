import Ukip.Foundation.Redelivery
import Ukip.Foundation.UnitOfWork

/-!
# Deliveries of a report

`_execute_report` as one delivery of its job runs it: the counter it loads, the mails
it hands to the SMTP server one recipient at a time, and the commit that adds the
recipients to `total_sent`.  The delivery may be lost between any two of these.  The
run columns of the schedule are those of `Schedules.Records`.
-/

namespace Ukip.Schedules.ReportDelivery

open Foundation.EventRun Foundation.Redelivery Foundation.UnitOfWork

structure ReportSchedule where
  id : Nat
  recipients : List String
  deriving DecidableEq

structure ReportEffects where
  totalSent : Option Int
  /-- the mails handed over, each with its delivery -/
  outbox : List (Nat × String)

inductive ReportWork where
  | idle
  /-- the handler has returned without a schedule to execute -/
  | skipped
  /-- the running marker is committed -/
  | begun (schedule : ReportSchedule)
  /-- the row is loaded again; `sent` recipients have been mailed -/
  | sending (schedule : ReportSchedule) (loadedTotal : Option Int) (sent : Nat)
  | returned (success : Bool)
  /-- an exception has escaped, or the process is gone -/
  | lost
  deriving DecidableEq

inductive ReportEvent where
  | begin
  | load
  /-- `smtp.sendmail` for the next recipient -/
  | mail
  /-- the commit after the last recipient -/
  | finish
  /-- rendering, settings or SMTP raise: the error is committed -/
  | fail
  | lose
  deriving DecidableEq

def actReport (target : Option ReportSchedule) (delivery : Nat) (effects : ReportEffects)
    (work : ReportWork) (event : ReportEvent) : ReportEffects × ReportWork :=
  match event, work with
  | .begin, .idle =>
    match target with
    | none => (effects, .skipped)
    | some schedule => (effects, .begun schedule)
  | .load, .begun schedule => (effects, .sending schedule effects.totalSent 0)
  | .mail, .sending schedule loadedTotal sent =>
    match schedule.recipients[sent]? with
    | some recipient =>
      ({ effects with outbox := effects.outbox ++ [(delivery, recipient)] },
        .sending schedule loadedTotal (sent + 1))
    | none => (effects, work)
  | .finish, .sending schedule loadedTotal sent =>
    if sent = schedule.recipients.length then
      ({ effects with
          totalSent :=
            flushColumn loadedTotal
              (some (loadedTotal.getD 0 + schedule.recipients.length)) effects.totalSent },
        .returned true)
    else (effects, work)
  | .fail, .sending _ _ _ => (effects, .returned false)
  | .lose, .begun _ => (effects, .lost)
  | .lose, .sending _ _ _ => (effects, .lost)
  | _, _ => (effects, work)

abbrev ReportCrowd := Crowd ReportEffects ReportWork

def reportStart (totalSent : Option Int) : ReportCrowd where
  effects := ⟨totalSent, []⟩
  works := fun _ => .idle

/-- The handler has executed the report and returned. -/
def ReportSucceeded (work : ReportWork) : Prop := work = .returned true

instance decidableReportSucceeded (work : ReportWork) : Decidable (ReportSucceeded work) :=
  inferInstanceAs (Decidable (work = _))

/-- `total_sent`, NULL read as zero, and the recipients of the mails. -/
def observedReport (effects : ReportEffects) : Int × List String :=
  (effects.totalSent.getD 0, effects.outbox.map Prod.snd)

/-- The event hands a mail to the SMTP server. -/
def HandsMail (work : ReportWork) (event : ReportEvent) : Prop :=
  event = .mail ∧ ∃ schedule loadedTotal sent,
    work = .sending schedule loadedTotal sent ∧ sent < schedule.recipients.length

def HandsOver (crowd : ReportCrowd) (moved : Nat × ReportEvent) : Prop :=
  HandsMail (crowd.works moved.1) moved.2

def senders (effects : ReportEffects) : List Nat := effects.outbox.map Prod.fst

variable (target : Option ReportSchedule)

inductive ReportChange (delivery : Nat) (effects : ReportEffects) (work : ReportWork)
    (event : ReportEvent) : ReportEffects → Prop where
  | quiet (noMail : ¬ HandsMail work event) : ReportChange delivery effects work event effects
  | mailed (recipient : String) (hands : HandsMail work event) :
      ReportChange delivery effects work event
        { effects with outbox := effects.outbox ++ [(delivery, recipient)] }
  | counted (noMail : ¬ HandsMail work event) (schedule : ReportSchedule)
      (loadedTotal : Option Int)
      (here : work = .sending schedule loadedTotal schedule.recipients.length) :
      ReportChange delivery effects work event
        { effects with
          totalSent := flushColumn loadedTotal
            (some (loadedTotal.getD 0 + schedule.recipients.length)) effects.totalSent }

variable (delivery : Nat) (effects : ReportEffects)

theorem actReport_change (work : ReportWork) (event : ReportEvent) :
    ReportChange delivery effects work event (actReport target delivery effects work event).1 := by
  have notMail : event ≠ .mail → ¬ HandsMail work event := fun other hands => other hands.1
  have notSending : (∀ schedule loadedTotal sent, work ≠ .sending schedule loadedTotal sent) →
      ¬ HandsMail work event := by
    rintro other ⟨_, schedule, loadedTotal, sent, here, _⟩
    exact other schedule loadedTotal sent here
  cases work with
  | sending schedule loadedTotal sent =>
    cases event with
    | mail =>
      cases next : schedule.recipients[sent]? with
      | some recipient =>
        obtain ⟨below, _⟩ := List.getElem?_eq_some_iff.mp next
        simp only [actReport, next]
        exact .mailed recipient ⟨rfl, schedule, loadedTotal, sent, rfl, below⟩
      | none =>
        simp only [actReport, next]
        refine .quiet ?_
        rintro ⟨_, _, _, _, here, below⟩
        cases here
        have past := List.getElem?_eq_none_iff.mp next
        omega
    | finish =>
      by_cases last : sent = schedule.recipients.length
      · subst last
        simp only [actReport, if_true]
        exact .counted (notMail (by decide)) schedule loadedTotal rfl
      · simp only [actReport, if_neg last]
        exact .quiet (notMail (by decide))
    | _ => exact .quiet (notMail (by decide))
  | idle =>
    have none_mailed := notSending (by simp)
    cases event <;> cases target <;> exact .quiet none_mailed
  | _ =>
    have none_mailed := notSending (by simp)
    cases event <;> exact .quiet none_mailed

theorem senders_act (work : ReportWork) (event : ReportEvent) :
    (HandsMail work event → senders (actReport target delivery effects work event).1 =
        senders effects ++ [delivery]) ∧
      (¬ HandsMail work event →
        senders (actReport target delivery effects work event).1 = senders effects) := by
  have change := actReport_change target delivery effects work event
  generalize (actReport target delivery effects work event).1 = after at change ⊢
  cases change with
  | quiet noMail => exact ⟨fun hands => absurd hands noMail, fun _ => rfl⟩
  | mailed recipient hands => exact ⟨fun _ => by simp [senders], fun noMail => absurd hands noMail⟩
  | counted noMail => exact ⟨fun hands => absurd hands noMail, fun _ => rfl⟩

variable (crowd : ReportCrowd) (moved : Nat × ReportEvent)

theorem senders_marked (hands : HandsOver crowd moved) :
    senders (stepDelivery (actReport target) crowd moved).effects =
      senders crowd.effects ++ [moved.1] :=
  (senders_act target moved.1 crowd.effects (crowd.works moved.1) moved.2).1 hands

theorem senders_unmarked (noMail : ¬ HandsOver crowd moved) :
    senders (stepDelivery (actReport target) crowd moved).effects = senders crowd.effects :=
  (senders_act target moved.1 crowd.effects (crowd.works moved.1) moved.2).2 noMail

def progress : ReportWork → ReportWork
  | .sending schedule _ sent => .sending schedule none sent
  | work => work

theorem handsMail_progress (work : ReportWork) (event : ReportEvent) :
    HandsMail (progress work) event ↔ HandsMail work event := by
  cases work <;> simp [HandsMail, progress]

theorem progress_act (effects other : ReportEffects) (work : ReportWork) (event : ReportEvent) :
    progress (actReport target delivery effects work event).2 =
      progress (actReport target delivery other (progress work) event).2 := by
  cases work with
  | idle => cases event <;> cases target <;> rfl
  | sending schedule loadedTotal sent =>
    cases event with
    | mail =>
      simp only [actReport, progress]
      cases schedule.recipients[sent]? <;> rfl
    | finish =>
      by_cases last : sent = schedule.recipients.length
      · simp only [actReport, progress, if_pos last]
      · simp only [actReport, progress, if_neg last]
    | _ => rfl
  | _ => cases event <;> rfl

theorem senders_count_alone (start : ReportCrowd) (events : List (Nat × ReportEvent)) :
    (senders (runEvents (stepDelivery (actReport target)) start events).effects).count delivery =
      (senders (runEvents (stepDelivery (actReport target)) start
        (alone delivery events)).effects).count delivery := by
  have views := view_alone (actReport target) delivery
    (fun effects work => ((senders effects).count delivery, progress work)) ?_ start events ?_
  · exact congrArg Prod.fst views
  · intro first second firstWork secondWork event same
    obtain ⟨sameCount, sameWork⟩ := Prod.mk.inj same
    have sameHands : HandsMail firstWork event ↔ HandsMail secondWork event := by
      rw [← handsMail_progress firstWork, sameWork, handsMail_progress]
    have firstSenders := senders_act target delivery first firstWork event
    have secondSenders := senders_act target delivery second secondWork event
    refine Prod.ext ?_ ?_
    · by_cases hands : HandsMail firstWork event
      · simp only [firstSenders.1 hands, secondSenders.1 (sameHands.mp hands), List.count_append,
          sameCount]
      · simp only [firstSenders.2 hands, secondSenders.2 (mt sameHands.mpr hands), sameCount]
    · simp only
      rw [progress_act target delivery first first firstWork, sameWork,
        ← progress_act target delivery second first secondWork]
  · refine everyStep_of_forall start events fun moved _ crowd different => ?_
    refine Prod.ext ?_ rfl
    by_cases hands : HandsOver crowd moved
    · simp [senders_marked target crowd moved hands, different]
    · simp only [senders_unmarked target crowd moved hands]

def EmptyWork (total : Int) : ReportWork → Prop
  | .begun schedule => schedule.recipients = []
  | .sending schedule loadedTotal _ => schedule.recipients = [] ∧ loadedTotal.getD 0 = total
  | _ => True

/-- Nothing is mailed, nothing is counted, and no delivery has anybody to mail. -/
structure NothingSent (total : Int) (crowd : ReportCrowd) : Prop where
  unseen : observedReport crowd.effects = (total, [])
  works : ∀ delivery, EmptyWork total (crowd.works delivery)

theorem flushed_total (loaded stored : Option Int) (total : Int) (loadedIs : loaded.getD 0 = total)
    (storedIs : stored.getD 0 = total) :
    (flushColumn loaded (some (loaded.getD 0 + ([] : List String).length)) stored).getD 0 =
      total := by
  unfold flushColumn
  split
  · exact storedIs
  · simpa using loadedIs

theorem nothingSent_act (empty : ∀ schedule ∈ target, schedule.recipients = []) (total : Int)
    (delivery : Nat) (effects : ReportEffects) (work : ReportWork) (event : ReportEvent)
    (unseen : observedReport effects = (total, [])) (isEmpty : EmptyWork total work) :
    observedReport (actReport target delivery effects work event).1 = (total, []) ∧
      EmptyWork total (actReport target delivery effects work event).2 := by
  obtain ⟨counted, unmailed⟩ := Prod.mk.inj unseen
  cases work with
  | idle =>
    cases event with
    | begin =>
      cases found : target with
      | none => exact ⟨unseen, trivial⟩
      | some schedule => exact ⟨unseen, empty schedule found⟩
    | _ => exact ⟨unseen, trivial⟩
  | begun schedule =>
    cases event with
    | load => exact ⟨unseen, isEmpty, counted⟩
    | lose => exact ⟨unseen, trivial⟩
    | _ => exact ⟨unseen, isEmpty⟩
  | sending schedule loadedTotal sent =>
    obtain ⟨nobody, loadedIs⟩ := isEmpty
    cases event with
    | mail =>
      simp only [actReport, nobody, List.getElem?_nil]
      exact ⟨unseen, nobody, loadedIs⟩
    | finish =>
      simp only [actReport, nobody]
      split
      · refine ⟨Prod.ext ?_ unmailed, trivial⟩
        exact flushed_total loadedTotal effects.totalSent total loadedIs counted
      · exact ⟨unseen, nobody, loadedIs⟩
    | fail => exact ⟨unseen, trivial⟩
    | lose => exact ⟨unseen, trivial⟩
    | _ => exact ⟨unseen, nobody, loadedIs⟩
  | _ => cases event <;> exact ⟨unseen, trivial⟩

theorem nothingSent_step (empty : ∀ schedule ∈ target, schedule.recipients = []) (total : Int)
    (crowd : ReportCrowd) (moved : Nat × ReportEvent) (nothing : NothingSent total crowd) :
    NothingSent total (stepDelivery (actReport target) crowd moved) := by
  obtain ⟨unseen, next⟩ := nothingSent_act target empty total moved.1 crowd.effects
    (crowd.works moved.1) moved.2 nothing.unseen (nothing.works moved.1)
  refine ⟨unseen, fun delivery => ?_⟩
  by_cases here : moved.1 = delivery
  · subst here
    rw [stepDelivery_works_self]
    exact next
  · rw [stepDelivery_works_other crowd moved delivery here]
    exact nothing.works delivery

theorem nothingSent_run (empty : ∀ schedule ∈ target, schedule.recipients = [])
    (totalSent : Option Int) (events : List (Nat × ReportEvent)) :
    observedReport (runEvents (stepDelivery (actReport target)) (reportStart totalSent)
      events).effects = (totalSent.getD 0, []) := by
  have run := runEvents_of_invariant (nothingSent_step target empty (totalSent.getD 0))
    (reportStart totalSent) events ⟨rfl, fun _ => trivial⟩
  exact run.unseen

/-- A delivery executes the handler's schedule, and has left a mark when it has mailed
anybody. -/
def SoundWork (delivery : Nat) (effects : ReportEffects) : ReportWork → Prop
  | .begun schedule => target = some schedule
  | .sending schedule _ sent =>
    target = some schedule ∧ (0 < sent → delivery ∈ senders effects)
  | _ => True

def SoundCrowd (crowd : ReportCrowd) : Prop :=
  ∀ delivery, SoundWork target delivery crowd.effects (crowd.works delivery)

theorem soundWork_act (effects : ReportEffects) (work : ReportWork) (event : ReportEvent)
    (sound : SoundWork target delivery effects work) :
    SoundWork target delivery (actReport target delivery effects work event).1
      (actReport target delivery effects work event).2 := by
  cases work with
  | idle =>
    cases event with
    | begin =>
      cases found : target with
      | none => trivial
      | some schedule => rfl
    | _ => trivial
  | begun schedule =>
    cases event with
    | load => exact ⟨sound, fun positive => absurd positive (Nat.lt_irrefl 0)⟩
    | lose => trivial
    | _ => exact sound
  | sending schedule loadedTotal sent =>
    cases event with
    | mail =>
      cases next : schedule.recipients[sent]? with
      | some recipient =>
        simp only [actReport, next]
        exact ⟨sound.1, fun _ => by simp [senders]⟩
      | none =>
        simp only [actReport, next]
        exact sound
    | finish =>
      simp only [actReport]
      split
      · trivial
      · exact sound
    | fail => trivial
    | lose => trivial
    | _ => exact sound
  | _ => cases event <;> trivial

theorem senders_grow (delivery : Nat) (member : delivery ∈ senders crowd.effects) :
    delivery ∈ senders (stepDelivery (actReport target) crowd moved).effects := by
  by_cases hands : HandsOver crowd moved
  · rw [senders_marked target crowd moved hands]
    exact List.mem_append_left _ member
  · rw [senders_unmarked target crowd moved hands]
    exact member

theorem soundWork_mono (before after : ReportEffects) (work : ReportWork)
    (grow : delivery ∈ senders before → delivery ∈ senders after)
    (sound : SoundWork target delivery before work) : SoundWork target delivery after work := by
  cases work with
  | sending schedule loadedTotal sent => exact ⟨sound.1, fun positive => grow (sound.2 positive)⟩
  | _ => exact sound

theorem soundCrowd_step (sound : SoundCrowd target crowd) :
    SoundCrowd target (stepDelivery (actReport target) crowd moved) := by
  intro delivery
  by_cases here : moved.1 = delivery
  · subst here
    rw [stepDelivery_works_self]
    exact soundWork_act target moved.1 crowd.effects (crowd.works moved.1) moved.2 (sound moved.1)
  · rw [stepDelivery_works_other crowd moved delivery here]
    exact soundWork_mono target delivery crowd.effects _ _ (senders_grow target crowd moved delivery)
      (sound delivery)

theorem others_quiet (mailing : ∀ schedule ∈ target, schedule.recipients ≠ []) (delivery : Nat)
    (crowd : ReportCrowd) (moved : Nat × ReportEvent) (sound : SoundCrowd target crowd)
    (only : ∀ sender ∈ senders crowd.effects, sender = delivery)
    (handsOwn : HandsOver crowd moved → moved.1 = delivery) (other : moved.1 ≠ delivery) :
    (stepDelivery (actReport target) crowd moved).effects = crowd.effects := by
  have change := actReport_change target moved.1 crowd.effects (crowd.works moved.1) moved.2
  simp only [stepDelivery]
  generalize (actReport target moved.1 crowd.effects (crowd.works moved.1) moved.2).1 = after
    at change ⊢
  cases change with
  | quiet _ => rfl
  | mailed recipient hands => exact absurd (handsOwn hands) other
  | counted _ schedule loadedTotal here =>
    have mine := sound moved.1
    rw [here] at mine
    have somebody : 0 < schedule.recipients.length :=
      List.length_pos_iff.mpr (mailing schedule mine.1)
    exact absurd (only moved.1 (mine.2 somebody)) other

/-- So far only `delivery` has mailed anybody. -/
structure MailedOnlyBy (delivery : Nat) (crowd : ReportCrowd) : Prop where
  sound : SoundCrowd target crowd
  only : ∀ sender ∈ senders crowd.effects, sender = delivery

theorem mailedOnlyBy_step (crowd : ReportCrowd) (moved : Nat × ReportEvent)
    (mailed : MailedOnlyBy target delivery crowd)
    (handsOwn : HandsOver crowd moved → moved.1 = delivery) :
    MailedOnlyBy target delivery (stepDelivery (actReport target) crowd moved) := by
  refine ⟨soundCrowd_step target crowd moved mailed.sound, ?_⟩
  have marks := marks_by_iff (senders_marked target) (senders_unmarked target) delivery crowd [moved]
  exact marks.mpr ⟨mailed.only, handsOwn, trivial⟩

theorem effects_alone (mailing : ∀ schedule ∈ target, schedule.recipients ≠ [])
    (totalSent : Option Int) (events : List (Nat × ReportEvent)) (delivery : Nat)
    (handsOwn : EveryStep (stepDelivery (actReport target))
      (fun crowd moved => HandsOver crowd moved → moved.1 = delivery) (reportStart totalSent)
      events) :
    (runEvents (stepDelivery (actReport target)) (reportStart totalSent) events).effects =
      (runEvents (stepDelivery (actReport target)) (reportStart totalSent)
        (alone delivery events)).effects := by
  have views := view_alone (actReport target) delivery (fun effects work => (effects, work))
    ?_ (reportStart totalSent) events ?_
  · exact congrArg Prod.fst views
  · intro first second firstWork secondWork event same
    obtain ⟨rfl, rfl⟩ := Prod.mk.inj same
    rfl
  · refine everyStep_of_guard (mailedOnlyBy_step target delivery) ?_ (reportStart totalSent) events
      ⟨fun _ => trivial, by simp [reportStart, senders]⟩ handsOwn
    intro crowd moved mailed own other
    rw [others_quiet target mailing delivery crowd moved mailed.sound mailed.only own other]

/-- Every delivery that succeeds in the run has handed over every mail of the run. -/
def MailedByOne (start : ReportCrowd) (events : List (Nat × ReportEvent)) : Prop :=
  ∀ delivery,
    ReportSucceeded ((runEvents (stepDelivery (actReport target)) start events).works delivery) →
      EveryStep (stepDelivery (actReport target))
        (fun crowd moved => HandsOver crowd moved → moved.1 = delivery) start events

theorem report_asOneDelivery_iff (totalSent : Option Int) (events : List (Nat × ReportEvent)) :
    AsOneDelivery (actReport target) ReportSucceeded observedReport (reportStart totalSent) events ↔
      MailedByOne target (reportStart totalSent) events := by
  have clean : senders (reportStart totalSent).effects = [] := rfl
  refine forall_congr' fun delivery => imp_congr_right fun _ => ?_
  constructor
  · intro same
    have lengths := congrArg (fun observed => observed.2.length) same
    have only := marks_by_of_length (senders_marked target) (senders_unmarked target) delivery
      (reportStart totalSent) events clean (senders_count_alone target delivery _ events)
      (by simpa [observedReport, senders] using lengths)
    exact ((marks_by_iff (senders_marked target) (senders_unmarked target) delivery _ _).mp only).2
  · intro handsOwn
    by_cases empty : ∀ schedule ∈ target, schedule.recipients = []
    · rw [nothingSent_run target empty, nothingSent_run target empty]
    · have mailing : ∀ schedule ∈ target, schedule.recipients ≠ [] := by
        intro schedule found nobody
        refine empty fun other otherFound => ?_
        rw [Option.mem_unique otherFound found]
        exact nobody
      rw [effects_alone target mailing totalSent events delivery handsOwn]

end Ukip.Schedules.ReportDelivery
