import ReactiveForm.Proofs.Recompute.Evaluations
import ReactiveForm.Proofs.Session.AsyncValidity
import ReactiveForm.Proofs.Session.Effects
import ReactiveForm.Proofs.Session.Turns

/-!
# Every evaluation is accounted for

The evaluations of a control are started, completed and given up in the turns of its inquiry
pipeline. Written down in a log (`evaluationLog`) they stand one after the other, each started and
then completed or given up before the next one is started, with one under way at most.

The entry of a control agrees with this log at any time, whatever callers do in between
(`accounts_of_run`): it counts the evaluations that were started and those that were given up, and
it has the value and the errors of the last one that was completed. The control shows these errors.
-/

namespace ReactiveForm.Session

open Engine (Past)

variable {s : Session} {e e' : Engine} {op : Op} {control : Nat} {race : Race}
  {log : Nat → List EvaluationEvent}

/-! ## The log -/

/-- What happens to the evaluations of a control in an operation. -/
def evaluationEvents (s : Session) (control : Nat) : Op → List EvaluationEvent
  | .turn (.inquiry id) race =>
    if id = control then
      (s.engine?.bind fun e =>
        (e.stepInquiry? control race).map (e.evaluationEvents control race)).getD []
    else []
  | _ => []

/-- What happens to the evaluations of a control in a run. -/
def evaluationLog (s : Session) (control : Nat) : List Op → List EvaluationEvent
  | [] => []
  | op :: ops => s.evaluationEvents control op ++ (s.apply op).evaluationLog control ops

theorem evaluationEvents_of_ne (s : Session) (hother : op.AvoidsInquiry control) :
    s.evaluationEvents control op = [] := by
  cases op with
  | turn r race =>
      cases r with
      | inquiry id => exact if_neg fun heq => hother race (by rw [heq])
      | _ => rfl
  | _ => rfl

/-- In a turn of the inquiry pipeline it makes a step, or nothing happens. -/
theorem evaluationEvents_turn (he : s.engine? = some e)
    (he' : (s.apply (.turn (.inquiry control) race)).engine? = some e') :
    (e.stepInquiry? control race = some e' ∧
        s.evaluationEvents control (.turn (.inquiry control) race) =
          e.evaluationEvents control race e') ∨
      e' = e ∧ s.evaluationEvents control (.turn (.inquiry control) race) = [] := by
  have hevents : s.evaluationEvents control (.turn (.inquiry control) race) =
      ((e.stepInquiry? control race).map (e.evaluationEvents control race)).getD [] := by
    rw [evaluationEvents, if_pos rfl, he, Option.bind_some]
  have hturn : s.apply (.turn (.inquiry control) race) =
      ((e.stepInquiry? control race).map s.withEngine).getD s := by
    simp only [apply, he, Option.bind_some]
    rfl
  rw [hturn] at he'
  rw [hevents]
  cases hstep : e.stepInquiry? control race with
  | none =>
      rw [hstep, Option.map_none, Option.getD_none, he] at he'
      exact .inr ⟨(Option.some.inj he').symm, rfl⟩
  | some e₁ =>
      rw [hstep, Option.map_some, Option.getD_some, engine?_withEngine] at he'
      cases he'
      exact .inl ⟨rfl, rfl⟩

/-! ## Balanced books -/

/-- The entries of all live controls account for what is in the log, and nothing is recorded about
controls that are still to come. -/
structure Balanced (e : Engine) (log : Nat → List EvaluationEvent) : Prop where
  live : ∀ {control}, e.form.contains control = true → ∃ past, e.Accounts control past ∧
    log control = past.events ++ (e.inFlight? control).toList.map .started
  unborn : ∀ {control}, e.form.changes? control = none →
    (e.entry control).record = .initial ∧ log control = []

theorem contains_of_stepInquiry? (hs : Scheduler.Subscribed e.form e.scheduler)
    (hstep : e.stepInquiry? control race = some e') : e.form.contains control = true := by
  obtain ⟨p, -, hp, -⟩ := Engine.inquiryStep_of_stepInquiry? hstep
  exact hs.contains_of_inquiry? hp

/-- Operations on a form with a scheduler, among which no caller writes the errors of inquiries. -/
structure Operates (s : Session) (op : Op) (e e' : Engine) : Prop where
  sound : s.Sound
  subscribed : s.Subscribed
  parents : s.form.ParentsBefore
  before : s.engine? = some e
  after : (s.apply op).engine? = some e'
  effect : Effect e op e'
  writes : ∀ id change, op = .writeState id change →
    ∀ st : ControlState, (change st).asyncErrors = st.asyncErrors

namespace Operates

variable (h : s.Operates op e e')

include h

theorem engine_sound : e.Sound := (h.sound.serves h.before).sound

theorem carries (hother : op.AvoidsInquiry control) :
    Carries ControlState.asyncErrors e.form e'.form control :=
  h.effect.carries (fun _ _ _ herrors => herrors) h.engine_sound
    (form_of_engine? h.before ▸ h.parents) hother h.writes

/-- A control that was there shows the errors that it showed, unless its pipeline makes a step. -/
theorem shows (hother : op.AvoidsInquiry control) (hid : e.form.contains control = true) :
    ∀ st', e'.form.state? control = some st' →
      ∃ st, e.form.state? control = some st ∧ st'.asyncErrors = st.asyncErrors := by
  intro st' hst'
  refine (h.carries hother st' hst').resolve_right fun hnew => ?_
  rw [← Form.isSome_state?, hnew.1] at hid
  cases hid

/-- A new control starts with empty books. -/
theorem accounts_new (hother : op.AvoidsInquiry control)
    (hrecord : (e.entry control).record = .initial) (hnew : ¬ e.form.contains control = true)
    (hid : e'.form.contains control = true) :
    e'.Accounts control [] ∧ e'.inFlight? control = none := by
  have hspares := h.effect.spares h.engine_sound hother hid
  have hinFlight : e'.inFlight? control = none := by
    refine hspares.inFlight.trans (Option.bind_eq_none_iff.2 fun p hp => ?_)
    exact absurd ((h.subscribed e h.before).contains_of_inquiry? hp) hnew
  refine ⟨.nil (hspares.record.trans hrecord) hinFlight fun st' hst' => ?_, hinFlight⟩
  rcases h.carries hother st' hst' with ⟨st, hst, -⟩ | ⟨-, hinitial⟩
  · exact absurd (by rw [← Form.isSome_state?, hst]; rfl) hnew
  · exact hinitial

theorem balanced_live (hb : Balanced e log) (hid : e'.form.contains control = true) :
    ∃ past, e'.Accounts control past ∧ log control ++ s.evaluationEvents control op =
      past.events ++ (e'.inFlight? control).toList.map .started := by
  rcases op.turn_or_avoidsInquiry control with ⟨race, rfl⟩ | hother
  · rcases evaluationEvents_turn h.before h.after with ⟨hstep, hevents⟩ | ⟨rfl, hevents⟩
    · obtain ⟨past, haccounts, hlog⟩ :=
        hb.live (contains_of_stepInquiry? (h.subscribed e h.before) hstep)
      obtain ⟨past', haccounts', heq⟩ := haccounts.step h.engine_sound hstep
      exact ⟨past', haccounts', by rw [hlog, hevents, heq]⟩
    · rw [hevents, List.append_nil]
      exact hb.live hid
  · rw [evaluationEvents_of_ne s hother, List.append_nil]
    by_cases hlive : e.form.contains control = true
    · obtain ⟨past, haccounts, hlog⟩ := hb.live hlive
      have hspares := h.effect.spares h.engine_sound hother hid
      refine ⟨past, haccounts.carry hspares.record hspares.inFlight (h.shows hother hlive), ?_⟩
      rw [hspares.inFlight, hlog]
    · obtain ⟨hrecord, hlog⟩ :=
        hb.unborn (((h.effect.follows h.engine_sound).contains hid).resolve_left hlive)
      obtain ⟨haccounts, hinFlight⟩ := h.accounts_new hother hrecord hlive hid
      refine ⟨[], haccounts, ?_⟩
      rw [hlog, hinFlight]
      rfl

theorem balanced_unborn (hb : Balanced e log) (hnone : e'.form.changes? control = none) :
    (e'.entry control).record = .initial ∧
      log control ++ s.evaluationEvents control op = [] := by
  have hunborn := (h.effect.follows h.engine_sound).unborn hnone
  obtain ⟨hrecord, hlog⟩ := hb.unborn hunborn
  rw [hlog, List.nil_append]
  rcases op.turn_or_avoidsInquiry control with ⟨race, rfl⟩ | hother
  · rcases evaluationEvents_turn h.before h.after with ⟨hstep, -⟩ | ⟨rfl, hevents⟩
    · obtain ⟨stream, hstream⟩ := Scheduler.exists_changes?_of_contains
        (contains_of_stepInquiry? (h.subscribed e h.before) hstep)
      rw [hunborn] at hstream
      cases hstream
    · exact ⟨hrecord, hevents⟩
  · exact ⟨h.effect.record_initial h.engine_sound hother hrecord, evaluationEvents_of_ne s hother⟩

/-- An operation keeps the books of all controls balanced. -/
theorem balanced (hb : Balanced e log) :
    Balanced e' fun control => log control ++ s.evaluationEvents control op :=
  ⟨h.balanced_live hb, h.balanced_unborn hb⟩

/-- What an operation records about a control that is there before and behind it. -/
theorem records (hb : Balanced e log) (hid : e.form.contains control = true)
    (hid' : e'.form.contains control = true) :
    e.Records control (s.evaluationEvents control op) e' := by
  rcases op.turn_or_avoidsInquiry control with ⟨race, rfl⟩ | hother
  · rcases evaluationEvents_turn h.before h.after with ⟨hstep, hevents⟩ | ⟨rfl, hevents⟩
    · obtain ⟨past, haccounts, -⟩ := hb.live hid
      rw [hevents]
      exact haccounts.remembers.records h.engine_sound hstep
    · rw [hevents]
      exact .nil rfl fun st hst => ⟨st, hst, rfl⟩
  · rw [evaluationEvents_of_ne s hother]
    exact .nil (h.effect.spares h.engine_sound hother hid').record (h.shows hother hid)

end Operates

/-! ## Runs -/

/-- What holds at each operation of a run in which time is broken up: what happens to the
evaluations of a control is all that is recorded about it. -/
def RecordsThroughout (s : Session) (ops : List Op) : Prop :=
  ∀ before op after, ops = before ++ op :: after → ∃ e e',
    (s.run before).engine? = some e ∧ ((s.run before).apply op).engine? = some e' ∧
      ∀ control, e.form.contains control = true → e'.form.contains control = true →
        e.Records control ((s.run before).evaluationEvents control op) e'

/-- A run keeps the books of all controls balanced. -/
theorem balanced_run {ops : List Op} (hsound : s.Sound) (hs : s.Subscribed)
    (hparents : s.form.ParentsBefore) (he : s.engine? = some e) (hb : Balanced e log)
    (hkeeps : ∀ op ∈ ops, op.keepsScheduler = true) (hmoments : ∀ op ∈ ops, ∀ ms, op ≠ .advance ms)
    (hwrites : ∀ id change, .writeState id change ∈ ops →
      ∀ st : ControlState, (change st).asyncErrors = st.asyncErrors) :
    s.RecordsThroughout ops ∧ ∃ e', (s.run ops).engine? = some e' ∧
      Balanced e' fun control => log control ++ s.evaluationLog control ops := by
  induction ops generalizing s e log with
  | nil =>
      refine ⟨fun before op after heq => by simp at heq, e, he, ?_⟩
      simpa only [evaluationLog, List.append_nil] using hb
  | cons op ops ih =>
      obtain ⟨e', he', heffect⟩ := effect_of_apply (hkeeps op List.mem_cons_self)
        (hmoments op List.mem_cons_self) he
      have hoperates : s.Operates op e e' := ⟨hsound, hs, hparents, he, he', heffect,
        fun id change heq => hwrites id change (heq ▸ List.mem_cons_self)⟩
      obtain ⟨hrecords, e'', he'', hb''⟩ := ih (sound_apply hsound op)
        (subscribed_apply hsound hs op) (parentsBefore_apply hsound hparents op) he'
        (hoperates.balanced hb)
        (fun o ho => hkeeps o (List.mem_cons_of_mem _ ho))
        (fun o ho => hmoments o (List.mem_cons_of_mem _ ho))
        fun id change hmem => hwrites id change (List.mem_cons_of_mem _ hmem)
      refine ⟨fun before next after heq => ?_, e'', he'', ?_⟩
      · cases before with
        | nil =>
            obtain ⟨rfl, -⟩ := List.cons.inj heq
            exact ⟨e, e', he, he', fun control => hoperates.records hb⟩
        | cons first before =>
            obtain ⟨rfl, htail⟩ := List.cons.inj heq
            exact hrecords before next after htail
      · simpa only [evaluationLog, List.append_assoc] using hb''

theorem balanced_launched (m : Model) (data : Json) (c : Config) :
    Balanced (launched m data c) fun _ => [] := by
  have hrecord : ∀ control, ((launched m data c).entry control).record = .initial := fun control =>
    congrArg ScheduleEntry.record (Scheduler.entry_attach _ control)
  refine ⟨fun {control} _ => ?_, fun {control} _ => ⟨hrecord control, rfl⟩⟩
  have hinFlight : (launched m data c).inFlight? control = none := by
    refine Option.bind_eq_none_iff.2 fun p hp => ?_
    rw [(Scheduler.waiting_attach hp).1]
    rfl
  refine ⟨[], .nil (hrecord control) hinFlight fun st hst => ?_, by rw [hinFlight]; rfl⟩
  exact (Form.inquired_build hst).2

/-- Results that are out of date are never applied, and the counters account for every evaluation.
Take a form to which a scheduler was attached from the beginning, and any operations that leave it
attached and among which no caller writes the errors of inquiries. The races of turns among them may
end in any way, where results and a new trigger are there at once, or two triggers. Broken up into
turns they lead to the same session, and in that:

* the log of a live control is that of evaluations of the past, each started and then completed or
  given up before the next one is started, and of at most one that is under way;
* the evaluations that were started are those whose results were applied, those that were given up
  and the one under way;
* value and errors in the entry are those of the last evaluation that was completed, and the control
  shows these errors;
* at each operation, only an evaluation that is completed, at a moment at which its results are
  there, changes any of this. All others leave it as it is, those that give an evaluation up and
  those that answer by the last errors among them. -/
theorem accounts_of_run {m : Model} {data : Json} {c : Config} {ops : List Op}
    (hkeeps : ∀ op ∈ ops, op.keepsScheduler = true)
    (hwrites : ∀ id change, .writeState id change ∈ ops →
      ∀ st : ControlState, (change st).asyncErrors = st.asyncErrors)
    (hs : (launch m data c).run ops = s) :
    let all := (launch m data c).turns ops
    (launch m data c).run all = s ∧ (launch m data c).RecordsThroughout all ∧
      ∃ e, s.engine? = some e ∧ ∀ control, s.form.contains control = true → ∃ past : Past,
        (launch m data c).evaluationLog control all =
          past.events ++ (e.inFlight? control).toList.map .started ∧
        e.asyncRuns control = past.countP (fun v => v.2) + e.superseded control +
          (e.inFlight? control).toList.length ∧
        e.Accounts control past := by
  have hstart := sound_start m data c
  have hsound : (launch m data c).Sound := sound_apply hstart .attach
  have hsubscribed : (launch m data c).Subscribed := subscribed_apply hstart (.of_none rfl) .attach
  have hparents : (launch m data c).form.ParentsBefore := Form.parentsBefore_build m data c
  have hall := (run_turns hsound hsubscribed ops).trans hs
  have hmoments : ∀ op ∈ (launch m data c).turns ops, ∀ ms, op ≠ .advance ms := by
    rintro op hop ms rfl
    exact advance_not_mem_turns _ _ ms hop
  obtain ⟨hrecords, e, he, hb⟩ := balanced_run hsound hsubscribed hparents rfl
    (balanced_launched m data c) (fun op hop => keepsScheduler_of_mem_turns hkeeps hop) hmoments
    fun id change hmem => by
      rcases mem_turns hmem with ⟨hmem, -⟩ | ⟨r, heq⟩ | ⟨ms, heq⟩
      · exact hwrites id change hmem
      · cases heq
      · cases heq
  rw [hall] at he
  refine ⟨hall, hrecords, e, he, fun control hid => ?_⟩
  obtain ⟨past, haccounts, hlog⟩ := hb.live (form_of_engine? he ▸ hid)
  refine ⟨past, hlog, ?_, haccounts⟩
  rw [haccounts.asyncRuns, haccounts.superseded,
    List.length_eq_countP_add_countP fun v : Evaluation × Bool => v.2]
  simp only [Bool.not_eq_true, Bool.decide_eq_false]

/-- The results of the first evaluation are there when a new value is, which wins the race. The new
value is evaluated, then set once more, and at last inquired about by force, while the pipelines are
made anew. -/
def supersededPair : List Op :=
  [.advance 55, .wait 5, .setValue 1 (.natural 2), .turn (.inquiry 1) ⟨false, true⟩, .advance 500,
    .setValue 1 (.natural 2), .advance 500, .force 1, .advance 3, .rebuild]

/-- Of the three evaluations one was applied, one was given up at the moment at which its results
were there, and one is under way. The value that was set once more was answered by the last
errors. -/
theorem accounts_supersededPair :
    ∃ e, ((launch inquiredPair pairData .standard).run supersededPair).engine? = some e ∧
      e.asyncRuns 1 = 3 ∧ e.superseded 1 = 1 ∧ e.passthroughs 1 = 1 ∧
      (e.inFlight? 1).toList.length = 1 ∧
      ∃ past : Past, e.Accounts 1 past ∧ past.countP (fun v => v.2) = 1 ∧ past.length = 2 := by
  have hcounts : ((launch inquiredPair pairData .standard).run supersededPair).engine?.map (fun e =>
      (e.asyncRuns 1, e.superseded 1, e.passthroughs 1, (e.inFlight? 1).toList.length)) =
      some (3, 1, 1, 1) := by decide +kernel
  have hwrites : ∀ id change, .writeState id change ∈ supersededPair →
      ∀ st : ControlState, (change st).asyncErrors = st.asyncErrors := fun id change hmem => by
    simp [supersededPair] at hmem
  obtain ⟨-, -, e, he, hlive⟩ := @accounts_of_run _ inquiredPair pairData .standard supersededPair
    (by decide) hwrites rfl
  rw [he, Option.map_some, Option.some.injEq] at hcounts
  simp only [Prod.mk.injEq] at hcounts
  obtain ⟨hruns, hgivenUp, hanswered, hinFlight⟩ := hcounts
  obtain ⟨past, -, hsum, haccounts⟩ := hlive 1 (by decide +kernel)
  have hlength := haccounts.asyncRuns
  exact ⟨e, he, hruns, hgivenUp, hanswered, hinFlight, past, haccounts, by omega, by omega⟩

end ReactiveForm.Session
