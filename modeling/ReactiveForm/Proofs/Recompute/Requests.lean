import ReactiveForm.Proofs.Recompute.Answers
import ReactiveForm.Proofs.Recompute.Passes

/-!
# Forced requests

A forced request sets the force flag of a control and puts a request into its inquiry pipeline, so
that the control presses for an inquiry (`Presses`). Only a step of that pipeline can change this
(`Spares`), and what such a step does is one of three things: it completes an older evaluation and
the control goes on pressing, or it starts a forced evaluation on the present document at once
(`Starts`), and from then on it completes that evaluation or starts another forced one in its place
(`Inquires.step`). The control is never answered by the last results meanwhile.
-/

namespace ReactiveForm

/-- An evaluation apart from the rules that are still to be asked. -/
def Evaluation.snapshot (v : Evaluation) : Evaluation := { v with upcoming := [] }

/-- The evaluation that a phase is at. -/
def InquiryPhase.evaluation? : InquiryPhase → Option Evaluation
  | .evaluating v => some v
  | _ => none

theorem InquiryPhase.eq_of_evaluation? {phase : InquiryPhase} {v : Evaluation}
    (h : phase.evaluation? = some v) : phase = .evaluating v := by
  cases phase <;> cases h
  rfl

/-- What inquiries leave of an entry: everything but the force flag and how often checks were run.
-/
def ScheduleEntry.record (e : ScheduleEntry) : ScheduleEntry :=
  { e with
    force := false
    stats := { e.stats with dependencyValidityRuns := 0, editabilityRuns := 0 } }

theorem ScheduleEntry.record_noted (e : ScheduleEntry) (reaction : Reaction) :
    (e.noted reaction).record = e.record := by
  cases reaction <;> rfl

namespace Engine

variable {e e' : Engine} {control : ControlId} {v : Evaluation} {race : Race}
  {outrun : Bool}

/-- The next inquiry of the control is forced, and it is requested. -/
structure Presses (e : Engine) (control : ControlId) : Prop where
  force : (e.entry control).force = true
  requested : ∃ p, e.scheduler.inquiry? control = some p ∧ 0 < p.requests

/-- The evaluation that is under way for a control, apart from the rules that are still to be asked.
-/
def inFlight? (e : Engine) (control : ControlId) : Option Evaluation :=
  (e.scheduler.inquiry? control).bind fun p => p.phase.evaluation?.map Evaluation.snapshot

/-- An evaluation is under way for the control. -/
def Inquires (e : Engine) (control : ControlId) (v : Evaluation) : Prop :=
  ∃ p evaluation, e.scheduler.inquiry? control = some p ∧ p.phase = .evaluating evaluation ∧
    evaluation.snapshot = v.snapshot

/-- A step starts a forced evaluation of some tests on the present values. -/
structure Starts (e : Engine) (control : ControlId) (tests : List Test) (v : Evaluation)
    (e' : Engine) : Prop where
  forced : v.forced = true
  value : v.value = e.form.value control
  results : v.results = e.form.reply control tests
  finish : v.finish = e.clock +
    (TestResults.runInquiries (e.form.value control) e.form.rootValue tests).duration
  inquires : e'.Inquires control v

/-- A step completes an evaluation and records its results. -/
structure Completes (e : Engine) (control : ControlId) (v : Evaluation) (e' : Engine) : Prop where
  due : v.finish ≤ e.clock
  shows : e'.Shows control false v.results.errors?
  lastProcessed : (e'.entry control).lastProcessed = some v.value
  lastErrors : (e'.entry control).lastErrors = v.results.errors?

/-- How often the control was answered by the last results. -/
def passthroughs (e : Engine) (control : ControlId) : Nat := (e.entry control).stats.passthroughs

/-! ## Requests -/

/-- A caller forces an inquiry. -/
theorem presses_force {p : InquiryPipeline} (hp : e.scheduler.inquiry? control = some p) :
    (e.force control).Presses control where
  force := by rw [entry_force, if_pos rfl]
  requested := ⟨_, by rw [inquiry?_force, if_pos rfl, hp, Option.map_some], Nat.succ_pos _⟩

/-- A step by which a control runs its validity tests forces an inquiry. -/
theorem presses_of_step (h : e.Sound) {r : PipelineRef} (hstep : e.step? r race = some e')
    {p : InquiryPipeline} (hp : e.scheduler.inquiry? control = some p)
    (hpass : e.passes control .validity < e'.passes control .validity) : e'.Presses control := by
  have hchanged : ∀ {q : ChangePipeline} {y : Option Json} {w : Watcher} {s : Scheduler},
      e.ChangeStep q y w s →
      e' = { e with scheduler := s }.reactIf { q with watcher := w } y.isSome →
      e'.Presses control := by
    rintro q y w s hchange rfl
    rw [passes_changeStep hchange] at hpass
    split at hpass
    · rename_i hreacts
      obtain ⟨hyields, rfl, hreaction⟩ := hreacts
      obtain ⟨v, rfl⟩ := Option.isSome_iff_exists.1 hyields
      rw [reactIf_some, hreaction]
      exact ⟨by rw [entry, entry_react, if_pos rfl]; rfl,
        _, by rw [inquiry?_react, if_pos ⟨rfl, rfl⟩, hchange.inquiry, hp, Option.map_some],
        Nat.succ_pos _⟩
    · exact absurd hpass (Nat.lt_irrefl _)
  cases r with
  | dependency i =>
      obtain ⟨q, y, w, s, hchange, rfl⟩ := changeStep_of_stepDependency? hstep
      exact hchanged hchange rfl
  | editability id =>
      obtain ⟨q, y, w, s, hchange, rfl⟩ := changeStep_of_stepEditability? hstep
      exact hchanged hchange rfl
  | inquiry id =>
      obtain ⟨q, stream, hq, -, hinquiry⟩ := inquiryStep_of_stepInquiry? hstep
      obtain ⟨rfl, -⟩ := h.inquiry hq
      rw [passes_of_inquiryFrame (hinquiry.frame hq)] at hpass
      exact absurd hpass (Nat.lt_irrefl _)

/-! ## What spares the inquiries of a control -/

/-- The inquiries of a control are left alone: there may be further requests, and time may pass. -/
structure Spares (control : ControlId) (e e' : Engine) : Prop where
  inquiry : ∀ {p}, e.scheduler.inquiry? control = some p → ∃ n phase,
    (phase = p.phase ∨ ∃ now, phase = p.phase.tick now) ∧
      e'.scheduler.inquiry? control = some { p with requests := p.requests + n, phase }
  /-- A pipeline that is new waits. -/
  fresh : e.scheduler.inquiry? control = none →
    ∀ {p}, e'.scheduler.inquiry? control = some p → p.phase = .waiting
  force : (e.entry control).force = true → (e'.entry control).force = true
  record : (e'.entry control).record = (e.entry control).record

theorem inFlight?_of_inquiry? {p : InquiryPipeline} (hp : e.scheduler.inquiry? control = some p) :
    e.inFlight? control = p.phase.evaluation?.map Evaluation.snapshot := by
  rw [inFlight?, hp, Option.bind_some]

theorem exists_evaluating {p : InquiryPipeline} {v : Evaluation}
    (hp : e.scheduler.inquiry? control = some p) (hv : v ∈ e.inFlight? control) :
    ∃ u, p.phase = .evaluating u ∧ u.snapshot = v := by
  rw [inFlight?_of_inquiry? hp] at hv
  obtain ⟨u, hu, hsnapshot⟩ := Option.map_eq_some_iff.1 hv
  exact ⟨u, InquiryPhase.eq_of_evaluation? hu, hsnapshot⟩

namespace Spares

theorem of_same (hinquiry : e'.scheduler.inquiry? control = e.scheduler.inquiry? control)
    (hentry : e'.entry control = e.entry control) : Spares control e e' where
  inquiry hp := ⟨0, _, .inl rfl, hinquiry.trans hp⟩
  fresh hnone {p} hp := by
    rw [hinquiry, hnone] at hp
    cases hp
  force hforce := hentry ▸ hforce
  record := congrArg ScheduleEntry.record hentry

theorem of_scheduler (h : e'.scheduler = e.scheduler) : Spares control e e' :=
  .of_same (by rw [h]) (by rw [entry, entry, h])

theorem of_before {e₀ : Engine} (h : Spares control e e')
    (hinquiry : e.scheduler.inquiry? control = e₀.scheduler.inquiry? control)
    (hentry : e.entry control = e₀.entry control) : Spares control e₀ e' where
  inquiry hp := h.inquiry (hinquiry.trans hp)
  fresh hnone := h.fresh (hinquiry.trans hnone)
  force hforce := h.force (hentry ▸ hforce)
  record := h.record.trans (congrArg ScheduleEntry.record hentry)

theorem passthroughs (h : Spares control e e') :
    e'.passthroughs control = e.passthroughs control :=
  congrArg (·.stats.passthroughs) h.record

/-- What is under way goes on, and nothing is started. -/
theorem inFlight (h : Spares control e e') : e'.inFlight? control = e.inFlight? control := by
  cases hp : e.scheduler.inquiry? control with
  | none =>
      rw [inFlight?, inFlight?, hp, Option.bind_none, Option.bind_eq_none_iff]
      intro p' hp'
      rw [h.fresh hp hp']
      rfl
  | some p =>
      obtain ⟨n, phase, hphase, hp'⟩ := h.inquiry hp
      rw [inFlight?_of_inquiry? hp, inFlight?_of_inquiry? hp']
      rcases hphase with rfl | ⟨now, rfl⟩
      · rfl
      · cases p.phase <;> rfl

theorem presses (h : Spares control e e') (hp : e.Presses control) : e'.Presses control where
  force := h.force hp.force
  requested := by
    obtain ⟨p, hp, hpos⟩ := hp.requested
    obtain ⟨n, phase, -, hp'⟩ := h.inquiry hp
    exact ⟨_, hp', Nat.lt_of_lt_of_le hpos (Nat.le_add_right _ _)⟩

theorem inquires (h : Spares control e e') (hv : e.Inquires control v) :
    e'.Inquires control v := by
  obtain ⟨p, evaluation, hp, hphase, hsnapshot⟩ := hv
  obtain ⟨n, phase, hsame, hp'⟩ := h.inquiry hp
  rcases hsame with rfl | ⟨now, rfl⟩
  · exact ⟨_, evaluation, hp', hphase, hsnapshot⟩
  · refine ⟨_, { evaluation with upcoming := evaluation.upcoming.filter (now < ·.1) }, hp', ?_,
      hsnapshot⟩
    rw [hphase]
    rfl

theorem tick (e : Engine) (control : ControlId) (now : Nat) :
    Spares control e (e.tick now) where
  inquiry {p} hp := by
    refine ⟨0, p.phase.tick now, .inr ⟨now, rfl⟩, ?_⟩
    rw [inquiry?_tick, hp, Option.map_some, InquiryPipeline.tick_eq]
    rfl
  fresh hnone {p} hp := by
    rw [inquiry?_tick, hnone] at hp
    cases hp
  force hforce := hforce
  record := rfl

/-- An inquiry of the control is requested, or none is. -/
private theorem inquiry_of_requested {asked : Prop} [Decidable asked]
    (hinquiry : e'.scheduler.inquiry? control =
      if asked then
        (e.scheduler.inquiry? control).map fun p => { p with requests := p.requests + 1 }
      else e.scheduler.inquiry? control) :
    (∀ {p}, e.scheduler.inquiry? control = some p → ∃ n phase,
      (phase = p.phase ∨ ∃ now, phase = p.phase.tick now) ∧
        e'.scheduler.inquiry? control = some { p with requests := p.requests + n, phase }) ∧
      (e.scheduler.inquiry? control = none →
        ∀ {p}, e'.scheduler.inquiry? control = some p → p.phase = .waiting) := by
  refine ⟨fun {p} hp => ?_, fun hnone {p} hp => ?_⟩
  · rw [hp, Option.map_some] at hinquiry
    split at hinquiry
    · exact ⟨1, p.phase, .inl rfl, hinquiry⟩
    · exact ⟨0, p.phase, .inl rfl, hinquiry⟩
  · rw [hnone, Option.map_none, ite_self, hp] at hinquiry
    cases hinquiry

/-- A reaction of the control forces an inquiry, or leaves its inquiries alone. -/
theorem react (e : Engine) (control other : ControlId) (reaction : Reaction) :
    Spares control e (e.react other reaction) where
  inquiry := (inquiry_of_requested (inquiry?_react e other reaction control)).1
  fresh := (inquiry_of_requested (inquiry?_react e other reaction control)).2
  force hforce := by
    rw [entry, entry_react]
    split
    · cases reaction with
      | validity => rfl
      | editability => exact hforce
    · exact hforce
  record := by
    rw [entry, entry_react]
    split
    · exact ScheduleEntry.record_noted _ reaction
    · rfl

theorem force_of (e : Engine) (control id : ControlId) : Spares control e (e.force id) where
  inquiry := (inquiry_of_requested (inquiry?_force e id control)).1
  fresh := (inquiry_of_requested (inquiry?_force e id control)).2
  force hforce := by
    rw [entry_force]
    split
    · rfl
    · exact hforce
  record := by
    rw [entry_force]
    split <;> rfl

theorem changeStep {p : ChangePipeline} {y : Option Json} {w : Watcher} {s : Scheduler}
    (hstep : e.ChangeStep p y w s) (control : ControlId) :
    Spares control e ({ e with scheduler := s }.reactIf { p with watcher := w } y.isSome) := by
  have hentry : entry { e with scheduler := s } control = e.entry control :=
    congrArg (·.entry control) hstep.table
  cases y with
  | none => exact .of_same (hstep.inquiry control) hentry
  | some u =>
      have hreact := react { e with scheduler := s } control p.control p.reaction
      exact hreact.of_before (hstep.inquiry control) hentry

/-- A step of another pipeline. -/
theorem step (h : e.Sound) {r : PipelineRef} (hr : r ≠ .inquiry control)
    (hstep : e.step? r race = some e') : Spares control e e' := by
  cases r with
  | dependency i =>
      obtain ⟨p, y, w, s, hchange, rfl⟩ := changeStep_of_stepDependency? hstep
      exact .changeStep hchange control
  | editability id =>
      obtain ⟨p, y, w, s, hchange, rfl⟩ := changeStep_of_stepEditability? hstep
      exact .changeStep hchange control
  | inquiry id =>
      obtain ⟨p, stream, hp, -, hinquiry⟩ := inquiryStep_of_stepInquiry? hstep
      obtain ⟨rfl, -⟩ := h.inquiry hp
      have frame := hinquiry.frame hp
      have hne : control ≠ p.control := fun heq => hr (by rw [heq])
      exact .of_same (frame.inquiry control hne) (frame.entry control hne)

/-- A rebuild keeps the inquiry pipeline and the entry of a control that stays, and a new pipeline
waits. -/
theorem rebuild (e : Engine) {g f : Form} (hid : g.contains control = true) :
    Spares control e { e with form := f, scheduler := e.scheduler.rebuild g } := by
  have hown := Scheduler.own?_rebuild e.scheduler g control
  rw [if_pos hid] at hown
  have hinquiry : ∀ {p}, e.scheduler.inquiry? control = some p →
      (e.scheduler.rebuild g).inquiry? control = some p := fun {p} hp => by
    obtain ⟨o, ho, hinquiry⟩ := Option.bind_eq_some_iff.1 hp
    have hold : e.scheduler.own? control = some o := ho
    rw [Scheduler.inquiry?_eq, hown, hold, Option.some_or, Option.bind_some, hinquiry]
  have hentry := Scheduler.entry_rebuild e.scheduler hid
  refine ⟨fun {p} hp => ⟨0, p.phase, .inl rfl, hinquiry hp⟩, fun hnone {p} hp => ?_,
    fun hforce => (congrArg ScheduleEntry.force hentry).trans hforce,
    congrArg ScheduleEntry.record hentry⟩
  obtain ⟨o, ho, hp⟩ := Option.bind_eq_some_iff.1 hp
  rcases Scheduler.own?_rebuild_cases ho with ⟨hold, -⟩ | hnew
  · rw [Scheduler.inquiry?_eq, hold, Option.bind_some, hp] at hnone
    cases hnone
  · exact (Scheduler.waiting_of_ownOf? hnew hp).1

end Spares

/-! ## Steps of the inquiry pipeline -/

private theorem starts_evaluate {p p' : InquiryPipeline} {e₁ : Engine}
    (htests : p'.tests = p.tests) (hdoc : Form.SameDocument e₁.form e.form)
    (hclock : e₁.clock = e.clock) (hsome : (e₁.scheduler.inquiry? p'.control).isSome = true) :
    ∃ v, e.Starts p'.control p.tests v
      (e₁.evaluate p' true outrun (e₁.form.value p'.control)) := by
  refine ⟨_, rfl, hdoc.value _, ?_, ?_, _, _, inquiry?_enter hsome _, rfl, rfl⟩
  · rw [Form.reply, Form.rootValue, Form.rootValue, hdoc.value, hdoc.value, htests]
  · rw [Form.rootValue, Form.rootValue, hdoc.value, hdoc.value, htests, hclock]

/-- A trigger of a control whose force flag is set starts an evaluation at once. -/
theorem starts_begin {p p' : InquiryPipeline} {e₀ : Engine}
    (htests : p'.tests = p.tests) (hdoc : Form.SameDocument e₀.form e.form)
    (hclock : e₀.clock = e.clock) (hsome : (e₀.scheduler.inquiry? p'.control).isSome = true)
    (hforce : (e₀.entry p'.control).force = true) :
    (e₀.begin p' outrun).passthroughs p'.control = e₀.passthroughs p'.control ∧
      ∃ v, e.Starts p'.control p.tests v (e₀.begin p' outrun) := by
  obtain ⟨e₁, hdoc₁, hclock₁, hsome₁, hsame₁, hbegin⟩ :
      ∃ e₁ : Engine, Form.SameDocument e₁.form e₀.form ∧ e₁.clock = e₀.clock ∧
        e₁.scheduler.inquiry? p'.control = e₀.scheduler.inquiry? p'.control ∧
        e₁.passthroughs p'.control = e₀.passthroughs p'.control ∧
        e₀.begin p' outrun = e₁.evaluate p' true outrun (e₁.form.value p'.control) := by
    refine ⟨{ e₀ with
      form := e₀.form.setPending p'.control true
      scheduler := e₀.scheduler.modifyEntry p'.control fun entry => { entry with force := false } },
      Form.sameDocument_modifyState e₀.form p'.control fun s =>
        { s with pending := true }, rfl, rfl, ?_, ?_⟩
    · exact congrArg (·.stats.passthroughs) ((ScheduleTable.entry_modify e₀.scheduler.table
        p'.control (fun entry => { entry with force := false }) p'.control).trans (if_pos rfl))
    · unfold entry at hforce
      unfold begin
      dsimp only
      rw [if_pos (.inl hforce), hforce]
      rfl
  rw [hbegin]
  refine ⟨?_, starts_evaluate htests (hdoc₁.trans hdoc) (hclock₁.trans hclock)
    (hsome₁ ▸ hsome)⟩
  rw [passthroughs, entry_evaluate]
  exact hsame₁

/-- An evaluation that is given up hands its force on. -/
private theorem supersede_spec {p p' : InquiryPipeline} {stream : Stream Json}
    {evaluation : Evaluation} (hp : e.scheduler.inquiry? p.control = some p)
    (htakes : p.Takes stream p')
    (hforce : (e.entry p.control).force = true ∨ evaluation.forced = true) :
    (e.supersede p' evaluation outrun).passthroughs p.control = e.passthroughs p.control ∧
      ∃ v, e.Starts p.control p.tests v (e.supersede p' evaluation outrun) := by
  rw [← htakes.control] at hp hforce ⊢
  have hentry := entry_givenUp e p' evaluation
  have hsome : (e.scheduler.inquiry? p'.control).isSome = true := by rw [hp]; rfl
  obtain ⟨hsame, hstarts⟩ := @starts_begin e outrun p p' (e.givenUp p' evaluation)
    htakes.tests (.refl e.form) rfl hsome
    ((congrArg ScheduleEntry.force hentry).trans (by simpa using hforce))
  exact ⟨hsame.trans (congrArg (·.stats.passthroughs) hentry), hstarts⟩

/-- A pipeline that is pressed does not wait for anything. -/
theorem Presses.isSome_step? (hpresses : e.Presses control) (h : e.Sound) :
    (e.step? (.inquiry control) race).isSome = true := by
  obtain ⟨p, hp, hpos⟩ := hpresses.requested
  exact isSome_stepInquiry? h hp hpos race

/-- A step of a pipeline that is pressed starts a forced evaluation, unless it completes an older
one first. -/
theorem Presses.step (hpresses : e.Presses control) (h : e.Sound)
    (hstep : e.step? (.inquiry control) race = some e') :
    e'.passthroughs control = e.passthroughs control ∧
      (e'.Presses control ∨ ∃ p v, e.scheduler.inquiry? control = some p ∧
        e.Starts control p.tests v e') := by
  obtain ⟨p, stream, hp, hstream, hinquiry⟩ := inquiryStep_of_stepInquiry? hstep
  obtain ⟨rfl, s, hs, -, hopen, -⟩ := h.inquiry hp
  have hforce := hpresses.force
  have hpos : 0 < p.requests := by
    obtain ⟨q, hq, hpos⟩ := hpresses.requested
    rw [hp] at hq
    cases hq
    exact hpos
  rw [hs] at hstream
  cases hstream
  cases hinquiry with
  | @begin p' outrun htakes =>
      rw [← htakes.control] at hp hforce ⊢
      obtain ⟨hsame, v, hstarts⟩ :=
        starts_begin htakes.tests (.refl e.form) rfl (by rw [hp]; rfl) hforce
      exact ⟨hsame, .inr ⟨p, v, hp, hstarts⟩⟩
  | supersede htakes =>
      obtain ⟨hsame, v, hstarts⟩ := supersede_spec hp htakes (.inl hforce)
      exact ⟨hsame, .inr ⟨p, v, hp, hstarts⟩⟩
  | decide _ _ hzero => omega
  | @complete evaluation hphase =>
      have hentry := entry_complete e p evaluation
      refine ⟨congrArg (·.stats.passthroughs) hentry, .inl ⟨?_, ?_⟩⟩
      · exact (congrArg ScheduleEntry.force hentry).trans hforce
      · exact ⟨_, inquiry?_complete hp evaluation, hpos⟩
  | finish hclosed => simp [hopen] at hclosed

/-- A step of a pipeline at a forced evaluation completes it or starts another forced one. -/
theorem Inquires.step (hv : e.Inquires control v) (hforced : v.forced = true) (h : e.Sound)
    (hstep : e.step? (.inquiry control) race = some e') :
    e'.passthroughs control = e.passthroughs control ∧
      (e.Completes control v e' ∨ ∃ p v', e.scheduler.inquiry? control = some p ∧
        e.Starts control p.tests v' e') := by
  obtain ⟨p, stream, hp, hstream, hinquiry⟩ := inquiryStep_of_stepInquiry? hstep
  obtain ⟨rfl, s, hs, -, hopen, -⟩ := h.inquiry hp
  obtain ⟨evaluation, hphase, hsnapshot⟩ : ∃ evaluation, p.phase = .evaluating evaluation ∧
      evaluation.snapshot = v.snapshot := by
    obtain ⟨q, evaluation, hq, hphase, hsnapshot⟩ := hv
    rw [hp] at hq
    cases hq
    exact ⟨evaluation, hphase, hsnapshot⟩
  rw [hs] at hstream
  cases hstream
  cases hinquiry with
  | begin _ hidle => exact absurd hphase (hidle evaluation)
  | @supersede p' other outrun htakes hother =>
      rw [hphase] at hother
      cases hother
      have hforced : evaluation.forced = true :=
        (congrArg Evaluation.forced hsnapshot).trans hforced
      obtain ⟨hsame, v', hstarts⟩ := supersede_spec hp htakes (.inr hforced)
      exact ⟨hsame, .inr ⟨p, v', hp, hstarts⟩⟩
  | decide hgathering => simp [hphase] at hgathering
  | @complete other hother hdue =>
      rw [hphase] at hother
      cases hother
      have hentry := entry_complete e p evaluation
      have hresults := congrArg Evaluation.results hsnapshot
      refine ⟨congrArg (·.stats.passthroughs) hentry, .inl ⟨?_, ?_, ?_, ?_⟩⟩
      · exact Nat.le_trans (Nat.le_of_eq (congrArg Evaluation.finish hsnapshot).symm) hdue
      · intro st hst
        have hshows := Shows.applyAsyncValidity e _ _ hst
        exact ⟨hshows.1, hshows.2.trans (congrArg TestResults.errors? hresults)⟩
      · exact (congrArg ScheduleEntry.lastProcessed hentry).trans
          (congrArg (some ·.value) hsnapshot)
      · exact (congrArg ScheduleEntry.lastErrors hentry).trans
          (congrArg TestResults.errors? hresults)
  | finish hclosed => simp [hopen] at hclosed

end Engine

end ReactiveForm
