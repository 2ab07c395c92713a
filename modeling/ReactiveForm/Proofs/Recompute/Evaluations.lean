import ReactiveForm.Proofs.Recompute.Requests

/-!
# The ledger of evaluations

A step of an inquiry pipeline completes the evaluation that is under way, or it takes a trigger or
comes to the end of a debounce, and then decides: it is answered by the last errors, waits for
further triggers, or starts an evaluation (`own_step_cases`). An evaluation that was under way is
given up before that.

So every evaluation that was started is under way, or it was completed, or it was given up, and
there is one under way at most. The entry of a control counts them, keeps the value and the errors
of the last one that was completed, and these errors are those that the control shows (`Accounts`).
Steps keep the books balanced (`Accounts.step`), and nothing else touches them (`Accounts.carry`).

Where the books of former schedulers are not kept, less is known: the last errors are those that the
control shows once an evaluation has been completed (`Remembers`).
-/

namespace ReactiveForm

/-- What happens to an evaluation. -/
inductive EvaluationEvent where
  | started (v : Evaluation)
  /-- Its results are applied. -/
  | completed (v : Evaluation)
  /-- It is given up for a further trigger. -/
  | abandoned (v : Evaluation)

namespace Engine

variable {e e' : Engine} {control : ControlId} {p p' : InquiryPipeline} {phase : InquiryPhase}
  {race : Race}

/-- How many evaluations have been given up for a control. -/
def superseded (e : Engine) (control : ControlId) : Nat := (e.entry control).stats.superseded

/-! ## Decisions -/

/-- A pipeline has decided and is in a phase now. -/
structure Decides (e : Engine) (p : InquiryPipeline) (phase : InquiryPhase) (e' : Engine) :
    Prop where
  inquiry : e'.scheduler.inquiry? p.control = some { p with phase }
  lastProcessed : (e'.entry p.control).lastProcessed = (e.entry p.control).lastProcessed
  lastErrors : (e'.entry p.control).lastErrors = (e.entry p.control).lastErrors
  superseded : e'.superseded p.control = e.superseded p.control
  asyncRuns : e'.asyncRuns p.control =
    e.asyncRuns p.control + phase.evaluation?.toList.length
  /-- An evaluation that starts is about the present values. -/
  reads : ∀ v, phase.evaluation? = some v → v.value = e.form.value p.control ∧
    v.results = e.form.reply p.control p.tests ∧ v.finish = e.clock +
      (TestResults.runInquiries (e.form.value p.control) e.form.rootValue p.tests).duration
  shows : ∀ s', e'.form.state? p.control = some s' → ∃ s, e.form.state? p.control = some s ∧
    s'.pending = (s.pending && ({ p with phase } : InquiryPipeline).isBusy) ∧
    (s'.asyncErrors = s.asyncErrors ∨ (e.entry p.control).lastProcessed.isSome = true ∧
      s'.asyncErrors = (e.entry p.control).lastErrors)

/-- The engine in which a trigger was taken and nothing was decided yet. -/
def engaged (e : Engine) (p : InquiryPipeline) : Engine :=
  { e with
    form := e.form.setPending p.control true
    scheduler := e.scheduler.modifyEntry p.control fun entry => { entry with force := false } }

theorem entry_engaged (e : Engine) (p : InquiryPipeline) :
    (e.engaged p).entry p.control = { e.entry p.control with force := false } :=
  (ScheduleTable.entry_modify e.scheduler.table p.control
    (fun entry => { entry with force := false }) p.control).trans (if_pos rfl)

theorem state?_engaged (e : Engine) (p : InquiryPipeline) :
    (e.engaged p).form.state? p.control =
      (e.form.state? p.control).map fun s => { s with pending := true } :=
  (Form.state?_modifyState e.form p.control (fun s => { s with pending := true })
    p.control).trans (if_pos rfl)

theorem sameDocument_engaged (e : Engine) (p : InquiryPipeline) :
    Form.SameDocument (e.engaged p).form e.form :=
  Form.sameDocument_modifyState e.form p.control fun s => { s with pending := true }

private theorem decides_passThrough (hsome : (e.scheduler.inquiry? p.control).isSome = true)
    (hprocessed : (e.entry p.control).lastProcessed.isSome = true) :
    Decides e p .waiting (e.passThrough p (e.entry p.control).lastErrors) := by
  have hentry := entry_passThrough e p (e.entry p.control).lastErrors
  have hlast := congrArg ScheduleEntry.lastProcessed hentry
  have herrors := congrArg ScheduleEntry.lastErrors hentry
  refine ⟨inquiry?_enter ?_ _, hlast, herrors, congrArg (·.stats.superseded) hentry,
    congrArg (·.stats.asyncRuns) hentry, ?_, ?_⟩
  · exact hsome
  · intro v hv
    cases hv
  · intro s' hs'
    have hstate : (e.form.applyAsyncValidity p.control (e.entry p.control).lastErrors).state?
        p.control = some s' := hs'
    obtain ⟨hpending, herrors⟩ := Shows.applyAsyncValidity e p.control _ hstate
    rw [Form.applyAsyncValidity, Form.state?_modifyState, if_pos rfl] at hstate
    obtain ⟨s, hs, -⟩ := Option.map_eq_some_iff.1 hstate
    exact ⟨s, hs, hpending.trans (Bool.and_false _).symm, .inr ⟨hprocessed, herrors⟩⟩

private theorem decides_evaluate (hsome : (e.scheduler.inquiry? p.control).isSome = true)
    (forced outrun : Bool) : ∃ v, Decides e p (.evaluating v)
      (e.evaluate p forced outrun (e.form.value p.control)) := by
  have hentry := entry_evaluate e p forced outrun (e.form.value p.control)
  have hlast := congrArg ScheduleEntry.lastProcessed hentry
  have herrors := congrArg ScheduleEntry.lastErrors hentry
  refine ⟨_, inquiry?_enter ?_ _, hlast, herrors, congrArg (·.stats.superseded) hentry,
    congrArg (·.stats.asyncRuns) hentry, ?_, ?_⟩
  · exact hsome
  · intro v hv
    cases hv
    exact ⟨rfl, rfl, rfl⟩
  · intro s' hs'
    exact ⟨s', hs', (Bool.and_true _).symm, .inl rfl⟩

/-- A decision on the present value. -/
theorem exists_decides_decide (hsome : (e.scheduler.inquiry? p.control).isSome = true)
    (forced outrun : Bool) : ∃ phase, (phase = .waiting ∨ ∃ v, phase = .evaluating v) ∧
      Decides e p phase (e.decide p forced outrun) := by
  unfold Engine.decide
  dsimp only
  split
  · rename_i hanswered
    -- the value that was processed last equals the present one, so there is one
    have hprocessed : (e.entry p.control).lastProcessed.isSome = true := by
      rw [Bool.and_eq_true] at hanswered
      obtain ⟨v, hv, -⟩ := (Option.any_eq_true _ _).1 hanswered.2
      exact Option.isSome_iff_exists.2 ⟨v, hv⟩
    exact ⟨.waiting, .inl rfl, decides_passThrough hsome hprocessed⟩
  · obtain ⟨v, hdecides⟩ := decides_evaluate hsome forced outrun
    exact ⟨.evaluating v, .inr ⟨v, rfl⟩, hdecides⟩

/-- Behind a trigger a pipeline waits for further ones, or it decides on the present value. -/
theorem exists_decides_begin (hsome : (e.scheduler.inquiry? p.control).isSome = true)
    (outrun : Bool) :
    ∃ phase, phase ≠ .ended ∧ Decides (e.engaged p) p phase (e.begin p outrun) := by
  have hengaged : ((e.engaged p).scheduler.inquiry? p.control).isSome = true := hsome
  unfold Engine.begin
  dsimp only
  split
  · obtain ⟨phase, hphase, hdecides⟩ :=
      exists_decides_decide hengaged (e.scheduler.table.entry p.control).force outrun
    refine ⟨phase, ?_, hdecides⟩
    rcases hphase with rfl | ⟨v, rfl⟩
    · simp
    · simp
  · refine ⟨.gathering (e.clock + p.settings.debounce), by simp, inquiry?_enter hengaged _, rfl,
      rfl, rfl, rfl, ?_, ?_⟩
    · intro v hv
      cases hv
    · intro s' hs'
      exact ⟨s', hs', (Bool.and_true _).symm, .inl rfl⟩

/-! ## Steps -/

/-- A step of an inquiry pipeline that completes no evaluation. The pipeline has taken a trigger, or
it was at the end of a debounce, and it is in another phase now. -/
structure Turns (e : Engine) (p p' : InquiryPipeline) (phase : InquiryPhase) (e' : Engine) :
    Prop where
  used : (∃ stream, e.form.changes? p.control = some stream ∧ p.Takes stream p') ∨
    p' = p ∧ (∃ deadline, p.phase = .gathering deadline) ∧
      (phase = .waiting ∨ ∃ v, phase = .evaluating v)
  going : phase ≠ .ended
  inquiry : e'.scheduler.inquiry? p.control = some { p' with phase }
  lastProcessed : (e'.entry p.control).lastProcessed = (e.entry p.control).lastProcessed
  lastErrors : (e'.entry p.control).lastErrors = (e.entry p.control).lastErrors
  /-- An evaluation that was under way is given up. -/
  superseded : e'.superseded p.control =
    e.superseded p.control + p.phase.evaluation?.toList.length
  asyncRuns : e'.asyncRuns p.control =
    e.asyncRuns p.control + phase.evaluation?.toList.length
  reads : ∀ v, phase.evaluation? = some v → v.value = e.form.value p.control ∧
    v.results = e.form.reply p.control p.tests ∧ v.finish = e.clock +
      (TestResults.runInquiries (e.form.value p.control) e.form.rootValue p.tests).duration
  shows : ∀ s', e'.form.state? p.control = some s' → ∃ s, e.form.state? p.control = some s ∧
    ((∃ deadline, p.phase = .gathering deadline) ∧ s'.pending =
        (s.pending && ({ p' with phase } : InquiryPipeline).isBusy) ∨
      s'.pending = ({ p' with phase } : InquiryPipeline).isBusy) ∧
    (s'.asyncErrors = s.asyncErrors ∨ (e.entry p.control).lastProcessed.isSome = true ∧
      s'.asyncErrors = (e.entry p.control).lastErrors)

/-- What is decided behind a trigger. In between an evaluation may have been given up. -/
private theorem Decides.turns {e₀ : Engine} {stream : Stream Json}
    (h : Decides (e₀.engaged p') p' phase e') (hgoing : phase ≠ .ended)
    (hstream : e.form.changes? p.control = some stream) (htakes : p.Takes stream p')
    (hform : e₀.form = e.form) (hclock : e₀.clock = e.clock)
    (hlast : (e₀.entry p.control).lastProcessed = (e.entry p.control).lastProcessed)
    (herrors : (e₀.entry p.control).lastErrors = (e.entry p.control).lastErrors)
    (hruns : e₀.asyncRuns p.control = e.asyncRuns p.control)
    (hgivenUp : e₀.superseded p.control =
      e.superseded p.control + p.phase.evaluation?.toList.length) :
    Turns e p p' phase e' := by
  obtain ⟨hinquiry, hlast', herrors', hgivenUp', hruns', hreads, hshows⟩ := h
  have hentry := entry_engaged e₀ p'
  have hstate := state?_engaged e₀ p'
  have hdoc := sameDocument_engaged e₀ p'
  have hroot : (e₀.engaged p').form.rootValue = e₀.form.rootValue := hdoc.value Form.root
  have hnext : e'.scheduler.inquiry? p.control = some { p' with phase } :=
    htakes.control ▸ hinquiry
  rw [htakes.control] at hlast' herrors' hgivenUp' hruns' hreads hshows hentry hstate
  refine ⟨.inl ⟨stream, hstream, htakes⟩, hgoing, hnext, ?_, ?_, ?_, ?_, ?_, ?_⟩
  · exact (hlast'.trans (congrArg ScheduleEntry.lastProcessed hentry)).trans hlast
  · exact (herrors'.trans (congrArg ScheduleEntry.lastErrors hentry)).trans herrors
  · exact (hgivenUp'.trans (congrArg (·.stats.superseded) hentry)).trans hgivenUp
  · rw [hruns', ← hruns]
    exact congrArg (· + _) (congrArg (·.stats.asyncRuns) hentry)
  · intro v hv
    obtain ⟨hvalue, hresults, hfinish⟩ := hreads v hv
    rw [Form.reply, hdoc.value, hroot, htakes.tests, hform] at hresults
    rw [hdoc.value, hroot, htakes.tests, hform] at hfinish
    rw [hdoc.value, hform] at hvalue
    exact ⟨hvalue, hresults, hfinish.trans (congrArg (· + _) hclock)⟩
  · intro s' hs'
    obtain ⟨s₁, hs₁, hpending, hkept⟩ := hshows s' hs'
    rw [hstate, hform] at hs₁
    obtain ⟨s, hs, rfl⟩ := Option.map_eq_some_iff.1 hs₁
    exact ⟨s, hs, .inr hpending,
      hkept.imp_right fun h =>
        ⟨((congrArg ScheduleEntry.lastProcessed hentry).trans hlast) ▸ h.1,
          h.2.trans ((congrArg ScheduleEntry.lastErrors hentry).trans herrors)⟩⟩

theorem GivesUp.not_applied (h : e.GivesUp p race) {v : Evaluation}
    (hv : p.phase.evaluation? = some v) :
    ¬ (v.snapshot.finish ≤ e.clock ∧ e.outruns p.control race = false) := by
  rintro ⟨hdue, hfirst⟩
  have houtruns := h v (InquiryPhase.eq_of_evaluation? hv) hdue
  rw [hfirst] at houtruns
  cases houtruns

/-- All that a step of an inquiry pipeline can do. An evaluation whose results are there is
completed, unless a further trigger outruns them. -/
theorem own_step_cases (h : e.Sound) (hstep : e.stepInquiry? control race = some e') :
    ∃ p, e.scheduler.inquiry? control = some p ∧ p.control = control ∧
      ((∃ v, p.phase = .evaluating v ∧ v.finish ≤ e.clock ∧ e.outruns control race = false ∧
          e' = e.complete p v) ∨
        e.GivesUp p race ∧ ∃ p' phase, Turns e p p' phase e') := by
  obtain ⟨p, stream, hp, hstream, hinquiry⟩ := inquiryStep_of_stepInquiry? hstep
  obtain ⟨rfl, s, hs, -, hopen, -⟩ := h.inquiry hp
  rw [hs] at hstream
  cases hstream
  have hsome : (e.scheduler.inquiry? p.control).isSome = true := by rw [hp]; rfl
  have houtruns := outruns_eq hp hs race
  refine ⟨p, hp, rfl, ?_⟩
  cases hinquiry with
  | complete hphase hdue hfirst => exact .inl ⟨_, hphase, hdue, houtruns.trans hfirst, rfl⟩
  | @begin p' outrun htakes hidle =>
      rw [← htakes.control] at hsome
      obtain ⟨phase, hgoing, hdecides⟩ := exists_decides_begin hsome outrun
      refine .inr ⟨.of_idle hidle, p', phase,
        hdecides.turns hgoing hs htakes rfl rfl rfl rfl rfl ?_⟩
      cases hphase : p.phase with
      | evaluating v => exact absurd hphase (hidle v)
      | _ => rfl
  | @supersede p' v outrun htakes hphase hfirst =>
      have hentry := entry_givenUp e p' v
      rw [htakes.control] at hentry
      have hlast := congrArg ScheduleEntry.lastProcessed hentry
      have herrors := congrArg ScheduleEntry.lastErrors hentry
      rw [← htakes.control] at hsome
      have hsome' : ((e.givenUp p' v).scheduler.inquiry? p'.control).isSome = true := hsome
      obtain ⟨phase, hgoing, hdecides⟩ := exists_decides_begin hsome' outrun
      refine .inr ⟨(givesUp_iff hphase).2 fun hdue => houtruns.trans (hfirst hdue), p', phase,
        hdecides.turns hgoing hs htakes rfl rfl hlast herrors
          (congrArg (·.stats.asyncRuns) hentry) ?_⟩
      rw [hphase]
      exact congrArg (·.stats.superseded) hentry
  | @decide deadline hphase =>
      obtain ⟨phase, hnext, hdecides⟩ := exists_decides_decide hsome false false
      refine .inr ⟨.of_idle (by simp [hphase]), p, phase,
        .inr ⟨rfl, ⟨deadline, hphase⟩, hnext⟩, ?_, hdecides.inquiry, hdecides.lastProcessed,
        hdecides.lastErrors, ?_, hdecides.asyncRuns, hdecides.reads, ?_⟩
      · rcases hnext with rfl | ⟨v, rfl⟩
        · simp
        · simp
      · rw [hdecides.superseded, hphase]
        rfl
      · intro s' hs'
        obtain ⟨st, hst, hpending, hkept⟩ := hdecides.shows s' hs'
        exact ⟨st, hst, .inl ⟨⟨deadline, hphase⟩, hpending⟩, hkept⟩
  | finish hclosed => simp [hopen] at hclosed

theorem Turns.inFlight? (h : Turns e p p' phase e') :
    e'.inFlight? p.control = phase.evaluation?.map Evaluation.snapshot :=
  inFlight?_of_inquiry? h.inquiry

/-! ## Accounts -/

/-- The evaluations of the past, each with whether its results were applied. -/
abbrev Past := List (Evaluation × Bool)

/-- What happened to an evaluation of the past. -/
def Past.events : Past → List EvaluationEvent :=
  List.flatMap fun v => [.started v.1, if v.2 then .completed v.1 else .abandoned v.1]

/-- The last evaluation whose results were applied. -/
def Past.lastApplied? (past : Past) : Option Evaluation :=
  (past.filter (·.2)).getLast?.map Prod.fst

theorem Past.lastApplied?_append_applied (past : Past) (v : Evaluation) :
    Past.lastApplied? (past ++ [(v, true)]) = some v := by
  simp [lastApplied?]

theorem Past.lastApplied?_append_abandoned (past : Past) (v? : Option Evaluation) :
    Past.lastApplied? (past ++ v?.toList.map fun v => (v, false)) = past.lastApplied? := by
  cases v? <;> simp [lastApplied?]

/-- What happens to the evaluations of a control in a step of its inquiry pipeline: the one that was
under way ends, and another one is under way. Its results are applied if they are there and nothing
outruns them. -/
def evaluationEvents (e : Engine) (control : ControlId) (race : Race) (e' : Engine) :
    List EvaluationEvent :=
  ((e.inFlight? control).toList.map fun v =>
      if v.finish ≤ e.clock ∧ e.outruns control race = false then .completed v
      else .abandoned v) ++
    (e'.inFlight? control).toList.map .started

/-- The entry of a control accounts for the evaluations of the past and for the one under way. -/
structure Accounts (e : Engine) (control : ControlId) (past : Past) : Prop where
  asyncRuns : e.asyncRuns control = past.length + (e.inFlight? control).toList.length
  superseded : e.superseded control = past.countP fun v => !v.2
  lastProcessed : (e.entry control).lastProcessed = past.lastApplied?.map Evaluation.value
  lastErrors : (e.entry control).lastErrors = past.lastApplied?.bind fun v => v.results.errors?
  asyncErrors : ∀ s, e.form.state? control = some s →
    s.asyncErrors = (e.entry control).lastErrors

/-- What becomes of the record of a control and of the errors that it shows. Only an evaluation that
is completed writes them, and one that starts is about the present values. -/
structure Records (e : Engine) (control : ControlId) (events : List EvaluationEvent)
    (e' : Engine) : Prop where
  completed : ∀ v, .completed v ∈ events → v.finish ≤ e.clock ∧
    (e'.entry control).lastProcessed = some v.value ∧
    (e'.entry control).lastErrors = v.results.errors? ∧
    ∀ s', e'.form.state? control = some s' → s'.asyncErrors = v.results.errors?
  kept : (∀ v, .completed v ∉ events) →
    (e'.entry control).lastProcessed = (e.entry control).lastProcessed ∧
    (e'.entry control).lastErrors = (e.entry control).lastErrors ∧
    ∀ s', e'.form.state? control = some s' →
      ∃ s, e.form.state? control = some s ∧ s'.asyncErrors = s.asyncErrors
  started : ∀ v, .started v ∈ events → ∃ p, e.scheduler.inquiry? control = some p ∧
    v.value = e.form.value control ∧ v.results = e.form.reply control p.tests ∧
    v.finish = e.clock +
      (TestResults.runInquiries (e.form.value control) e.form.rootValue p.tests).duration

/-- Without a step of the pipeline nothing is recorded. -/
theorem Records.nil (hrecord : (e'.entry control).record = (e.entry control).record)
    (hshows : ∀ s', e'.form.state? control = some s' →
      ∃ s, e.form.state? control = some s ∧ s'.asyncErrors = s.asyncErrors) :
    e.Records control [] e' where
  completed v hv := by cases hv
  kept _ := by
    have hlast := congrArg ScheduleEntry.lastProcessed hrecord
    have herrors := congrArg ScheduleEntry.lastErrors hrecord
    exact ⟨hlast, herrors, hshows⟩
  started v hv := by cases hv

/-! ## What is remembered -/

/-- Once an evaluation was completed under the scheduler, the control shows the errors of its entry.
Before that it can show those that were there when the scheduler was attached. -/
def Remembers (e : Engine) (control : ControlId) : Prop :=
  ∀ s, e.form.state? control = some s → (e.entry control).lastProcessed.isSome = true →
    s.asyncErrors = (e.entry control).lastErrors

theorem evaluationEvents_complete {v : Evaluation} (hp : e.scheduler.inquiry? p.control = some p)
    (hphase : p.phase = .evaluating v) (hdue : v.finish ≤ e.clock)
    (hfirst : e.outruns p.control race = false) :
    e.evaluationEvents p.control race (e.complete p v) = [.completed v.snapshot] := by
  have hbefore : e.inFlight? p.control = some v.snapshot := by
    rw [inFlight?_of_inquiry? hp, hphase]
    rfl
  have hafter : (e.complete p v).inFlight? p.control = none :=
    inFlight?_of_inquiry? (inquiry?_complete hp v)
  have hfinish : v.snapshot.finish ≤ e.clock := hdue
  simp [evaluationEvents, hafter, hbefore, hfinish, hfirst]

/-- An evaluation that is given up is not completed, and neither is one that is not finished. -/
theorem GivesUp.not_completed (h : e.GivesUp p race) (hp : e.scheduler.inquiry? p.control = some p)
    (v : Evaluation) : .completed v ∉ e.evaluationEvents p.control race e' := by
  intro hv
  rcases List.mem_append.1 hv with hv | hv
  · obtain ⟨u, hu, heq⟩ := List.mem_map.1 hv
    obtain ⟨u', hphase, rfl⟩ := exists_evaluating hp (Option.mem_toList.1 hu)
    rw [if_neg (h.not_applied (by rw [hphase]; rfl))] at heq
    cases heq
  · obtain ⟨u, -, heq⟩ := List.mem_map.1 hv
    cases heq

namespace Remembers

/-- What a step of the pipeline records. -/
theorem records (h : e.Remembers control) (hsound : e.Sound)
    (hstep : e.stepInquiry? control race = some e') :
    e.Records control (e.evaluationEvents control race e') e' := by
  obtain ⟨p, hp, rfl, ⟨v, hphase, hdue, hfirst, rfl⟩ | ⟨hgivenUp, p', phase, hturns⟩⟩ :=
    own_step_cases hsound hstep
  · have hentry := entry_complete e p v
    rw [evaluationEvents_complete hp hphase hdue hfirst]
    refine ⟨fun u hu => ?_, fun hnone => absurd (List.mem_singleton_self _) (hnone _),
      fun u hu => ?_⟩
    · cases List.mem_singleton.1 hu
      exact ⟨hdue, congrArg ScheduleEntry.lastProcessed hentry,
        congrArg ScheduleEntry.lastErrors hentry,
        fun s hs => (Shows.applyAsyncValidity e p.control _ hs).2⟩
    · cases List.mem_singleton.1 hu
  · refine ⟨fun u hu => absurd hu (hgivenUp.not_completed hp u),
      fun _ => ⟨hturns.lastProcessed, hturns.lastErrors, fun s' hs' => ?_⟩, ?_⟩
    · obtain ⟨s, hs, -, hkept⟩ := hturns.shows s' hs'
      refine ⟨s, hs, hkept.elim id fun ⟨hprocessed, hlast⟩ => ?_⟩
      exact hlast.trans (h s hs hprocessed).symm
    · intro u hu
      rcases List.mem_append.1 hu with hu | hu
      · obtain ⟨v, -, heq⟩ := List.mem_map.1 hu
        split at heq <;> cases heq
      · obtain ⟨v, hv, heq⟩ := List.mem_map.1 hu
        cases heq
        rw [Option.mem_toList, hturns.inFlight?] at hv
        obtain ⟨v, hphase, rfl⟩ := Option.map_eq_some_iff.1 hv
        exact ⟨p, hp, hturns.reads v hphase⟩

/-- Whatever is recorded is remembered. -/
theorem of_records {events : List EvaluationEvent} (h : e.Remembers control)
    (hrecords : e.Records control events e') : e'.Remembers control := by
  intro s' hs' hprocessed
  by_cases hcompleted : ∃ v, .completed v ∈ events
  · obtain ⟨v, hv⟩ := hcompleted
    obtain ⟨-, -, hlast, hshows⟩ := hrecords.completed v hv
    exact (hshows s' hs').trans hlast.symm
  · obtain ⟨hsame, hlast, hshows⟩ :=
      hrecords.kept fun v hv => hcompleted ⟨v, hv⟩
    obtain ⟨s, hs, hkept⟩ := hshows s' hs'
    exact (hkept.trans (h s hs (hsame ▸ hprocessed))).trans hlast.symm

end Remembers

/-! ## Balanced books -/

namespace Accounts

variable {past : Past}

/-- A control for which nothing was done has no evaluations to account for. -/
theorem nil (hrecord : (e.entry control).record = .initial) (hinFlight : e.inFlight? control = none)
    (hshows : ∀ s, e.form.state? control = some s → s.asyncErrors = none) :
    e.Accounts control [] where
  asyncRuns := by
    rw [hinFlight]
    exact congrArg (·.stats.asyncRuns) hrecord
  superseded := congrArg (·.stats.superseded) hrecord
  lastProcessed := congrArg ScheduleEntry.lastProcessed hrecord
  lastErrors := congrArg ScheduleEntry.lastErrors hrecord
  asyncErrors s hs := (hshows s hs).trans (congrArg ScheduleEntry.lastErrors hrecord).symm

/-- Without a step of the pipeline the accounts stay as they are. -/
theorem carry (h : e.Accounts control past)
    (hrecord : (e'.entry control).record = (e.entry control).record)
    (hinFlight : e'.inFlight? control = e.inFlight? control)
    (hshows : ∀ s', e'.form.state? control = some s' →
      ∃ s, e.form.state? control = some s ∧ s'.asyncErrors = s.asyncErrors) :
    e'.Accounts control past := by
  have hruns := congrArg (·.stats.asyncRuns) hrecord
  have hgivenUp := congrArg (·.stats.superseded) hrecord
  have hlast := congrArg ScheduleEntry.lastProcessed hrecord
  have herrors := congrArg ScheduleEntry.lastErrors hrecord
  refine ⟨?_, hgivenUp.trans h.superseded, hlast.trans h.lastProcessed,
    herrors.trans h.lastErrors, fun s' hs' => ?_⟩
  · rw [hinFlight]
    exact hruns.trans h.asyncRuns
  · obtain ⟨s, hs, hsame⟩ := hshows s' hs'
    exact (hsame.trans (h.asyncErrors s hs)).trans herrors.symm

/-- An evaluation whose results are there is completed. -/
private theorem complete {v : Evaluation} (h : e.Accounts p.control past)
    (hp : e.scheduler.inquiry? p.control = some p) (hphase : p.phase = .evaluating v) :
    (e.complete p v).inFlight? p.control = none ∧
      (e.complete p v).Accounts p.control (past ++ [(v.snapshot, true)]) := by
  have hentry := entry_complete e p v
  have hbefore := inFlight?_of_inquiry? hp
  have hafter : (e.complete p v).inFlight? p.control = none :=
    inFlight?_of_inquiry? (inquiry?_complete hp v)
  refine ⟨hafter, ?_, ?_, ?_, ?_, ?_⟩
  · have hruns := congrArg (·.stats.asyncRuns) hentry
    have hsum := h.asyncRuns
    rw [hbefore, hphase] at hsum
    rw [hafter, List.length_append]
    exact hruns.trans hsum
  · have hgivenUp := congrArg (·.stats.superseded) hentry
    rw [List.countP_append]
    exact hgivenUp.trans h.superseded
  · rw [hentry, Past.lastApplied?_append_applied]
    rfl
  · rw [hentry, Past.lastApplied?_append_applied]
    rfl
  · intro s hs
    rw [hentry]
    exact (Shows.applyAsyncValidity e p.control _ hs).2

/-- A step of the pipeline that completes nothing gives up what is under way. -/
private theorem turns (h : e.Accounts p.control past)
    (hp : e.scheduler.inquiry? p.control = some p) (hturns : Turns e p p' phase e') :
    e'.Accounts p.control
      (past ++ (e.inFlight? p.control).toList.map fun v => (v, false)) := by
  have hbefore := inFlight?_of_inquiry? hp
  have hafter := hturns.inFlight?
  refine ⟨?_, ?_, ?_, ?_, ?_⟩
  · rw [hturns.asyncRuns, h.asyncRuns, hafter, List.length_append, List.length_map]
    cases phase.evaluation? <;> rfl
  · rw [hturns.superseded, h.superseded, hbefore, List.countP_append]
    cases p.phase.evaluation? <;> rfl
  · rw [hturns.lastProcessed, h.lastProcessed, Past.lastApplied?_append_abandoned]
  · rw [hturns.lastErrors, h.lastErrors, Past.lastApplied?_append_abandoned]
  · intro s' hs'
    obtain ⟨s, hs, -, hkept⟩ := hturns.shows s' hs'
    rw [hturns.lastErrors]
    exact hkept.elim (fun hsame => hsame.trans (h.asyncErrors s hs)) And.right

/-- A step of the pipeline keeps the books balanced. -/
theorem step (h : e.Accounts control past) (hsound : e.Sound)
    (hstep : e.stepInquiry? control race = some e') :
    ∃ past', e'.Accounts control past' ∧
      past'.events ++ (e'.inFlight? control).toList.map .started =
        past.events ++ (e.inFlight? control).toList.map .started ++
          e.evaluationEvents control race e' := by
  obtain ⟨p, hp, rfl, ⟨v, hphase, hdue, hfirst, rfl⟩ | ⟨hgivenUp, p', phase, hturns⟩⟩ :=
    own_step_cases hsound hstep
  · obtain ⟨hafter, haccounts⟩ := h.complete hp hphase
    have hbefore : e.inFlight? p.control = some v.snapshot := by
      rw [inFlight?_of_inquiry? hp, hphase]
      rfl
    refine ⟨_, haccounts, ?_⟩
    rw [evaluationEvents_complete hp hphase hdue hfirst]
    simp [Past.events, hafter, hbefore]
  · have hbefore := inFlight?_of_inquiry? hp
    refine ⟨_, h.turns hp hturns, ?_⟩
    cases hphase : p.phase.evaluation? with
    | none =>
        rw [hphase] at hbefore
        simp [evaluationEvents, Past.events, hbefore]
    | some v =>
        have hnot := hgivenUp.not_applied hphase
        rw [hphase] at hbefore
        simp [evaluationEvents, Past.events, hbefore, if_neg hnot]

theorem remembers (h : e.Accounts control past) : e.Remembers control :=
  fun s hs _ => h.asyncErrors s hs

end Accounts

end Engine

end ReactiveForm
