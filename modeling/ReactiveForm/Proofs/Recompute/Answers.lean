import ReactiveForm.Proofs.Recompute.Coverage

/-!
# Inquiries that are answered

An inquiry pipeline keeps what its last completed evaluation was about: a value and the errors. It
does not keep the document of that evaluation, though, so a later trigger with the same value may
only be answered by the kept errors if no dependency has changed since. What guards this is the
force flag of the control: the pipelines for its dependencies set it together with a request, and a
forced request is always evaluated.

`Answers` states what holds of a pipeline, its entry and the state of its control at any time. An
evaluation that is under way is about an earlier form, and so is the kept result. What is to hold of
the earlier form is left open (`Excusable`); that its dependencies are covered is one such thing. It
may fail only where there is an excuse, which is that the force flag is set or that a forced
evaluation is under way. `Ready` is what holds between the moment at which a trigger is taken and
the decision what to do about it.
-/

namespace ReactiveForm

/-- The results of the validity tests of a control by their inquiries on the current values. -/
def Form.reply (f : Form) (id : ControlId) (tests : List Test) : TestResults :=
  (TestResults.runInquiries (f.value id) f.rootValue tests).results

/-- A run of validity tests leaves what inquiries write. -/
theorem Form.inquired_validated (f : Form) (id : ControlId) (s : ControlState) :
    (f.validated id s).pending = s.pending ∧ (f.validated id s).asyncErrors = s.asyncErrors := by
  unfold validated
  cases f.property? id <;> exact ⟨rfl, rfl⟩

theorem Form.inquired_edited (f : Form) (id : ControlId) (s : ControlState) :
    (f.edited id s).pending = s.pending ∧ (f.edited id s).asyncErrors = s.asyncErrors := by
  unfold edited
  cases f.property? id <;> exact ⟨rfl, rfl⟩

theorem Form.inquired_judged (f : Form) (id : ControlId) (reaction : Reaction)
    (s : ControlState) : (f.judged id reaction s).pending = s.pending ∧
      (f.judged id reaction s).asyncErrors = s.asyncErrors := by
  cases reaction with
  | validity => exact f.inquired_validated id s
  | editability => exact f.inquired_edited id s

/-- A form that was just made shows nothing of inquiries. -/
theorem Form.inquired_build {m : Model} {data : Json} {c : Config} {id : ControlId}
    {s : ControlState} (hs : (build m data c).state? id = some s) :
    s.pending = false ∧ s.asyncErrors = none := by
  obtain ⟨hpending, herrors⟩ := (build m data c).inquired_edited id
    ((build m data c).validated id .initial)
  obtain ⟨hpending', herrors'⟩ := (build m data c).inquired_validated id .initial
  rw [state?_build hs]
  exact ⟨hpending.trans hpending', herrors.trans herrors'⟩

namespace InquiryPipeline

/-- The pipeline is at a forced evaluation. -/
def AtForced (p : InquiryPipeline) : Prop :=
  ∃ evaluation, p.phase = .evaluating evaluation ∧ evaluation.forced = true

end InquiryPipeline

namespace Engine

variable {e e' : Engine} {p p' : InquiryPipeline} {K K' A A' X : Form → Prop → Prop} {race : Race}
  {outrun : Bool}

/-- The entry of a control in the table. -/
def entry (e : Engine) (id : ControlId) : ScheduleEntry := e.scheduler.table.entry id

theorem entry_force (e : Engine) (id other : ControlId) :
    (e.force id).entry other =
      if other = id then { e.entry other with force := true } else e.entry other :=
  ScheduleTable.entry_modify e.scheduler.table id (fun entry => { entry with force := true }) other

/-- The state of a control has the given inquiry errors and is pending or not. -/
def Shows (e : Engine) (id : ControlId) (pending : Bool) (errors : Option TestResults) : Prop :=
  ∀ s, e.form.state? id = some s → s.pending = pending ∧ s.asyncErrors = errors

/-- What holds of an earlier form unless there is an excuse. -/
structure Excusable (X : Form → Prop → Prop) : Prop where
  imp : ∀ {past excuse excuse'}, X past excuse → (excuse → excuse') → X past excuse'
  excused : ∀ {past excuse}, excuse → X past excuse

theorem excusable_covers (e : Engine) (control : ControlId) (reaction : Reaction) :
    Excusable (e.Covers control reaction) where
  imp h := h.imp
  excused h := .excused h

/-- The kept result of a control is about an earlier form, of which something holds unless there is
an excuse. -/
def Keeps (e : Engine) (K : Form → Prop → Prop) (p : InquiryPipeline) (v : Json)
    (excuse : Prop) : Prop :=
  ∃ past, Form.SameTree past e.form ∧ v = past.value p.control ∧
    (e.entry p.control).lastErrors = (past.reply p.control p.tests).errors? ∧ K past excuse

/-- An evaluation is about an earlier form, of which something holds unless the next inquiry is
forced. The pipeline has a change of the control before it if its value is another one now. -/
def Evaluates (e : Engine) (A : Form → Prop → Prop) (p : InquiryPipeline)
    (evaluation : Evaluation) : Prop :=
  ∃ past, Form.SameTree past e.form ∧ evaluation.value = past.value p.control ∧
    evaluation.results = past.reply p.control p.tests ∧ A past ((e.entry p.control).force = true) ∧
    (p.Unread e.form ∨ past.value p.control = e.form.value p.control)

/-- What holds of an inquiry pipeline at any time. One thing is to hold of the form that the kept
result is about, and another one of the form that an evaluation under way is about. -/
structure Answers (e : Engine) (K A : Form → Prop → Prop) (p : InquiryPipeline) : Prop where
  shows : e.Shows p.control p.isBusy (e.entry p.control).lastErrors
  /-- A forced inquiry is requested. -/
  forced : (e.entry p.control).force = true → 0 < p.requests
  /-- The first inquiry is under way or requested. -/
  first : (e.entry p.control).lastProcessed = none → p.isBusy = true ∨ 0 < p.requests
  evaluates : ∀ evaluation, p.phase = .evaluating evaluation → e.Evaluates A p evaluation
  keeps : ∀ v, (e.entry p.control).lastProcessed = some v →
    e.Keeps K p v ((e.entry p.control).force = true ∨ p.AtForced)
  /-- If the value is another one by now, there is an inquiry to come. -/
  recent : ∀ v, (e.entry p.control).lastProcessed = some v →
    p.isBusy = true ∨ 0 < p.requests ∨ p.Unread e.form ∨
      p.settings.Equates v (e.form.value p.control)

/-- What holds when a trigger was taken and nothing was done about it yet. -/
structure Ready (e : Engine) (K : Form → Prop → Prop) (p : InquiryPipeline) (forced : Bool) :
    Prop where
  shows : e.Shows p.control true (e.entry p.control).lastErrors
  unforced : (e.entry p.control).force = false
  keeps : ∀ v, (e.entry p.control).lastProcessed = some v → e.Keeps K p v (forced = true)

/-- How many evaluations have been started for a control. -/
def asyncRuns (e : Engine) (control : ControlId) : Nat := (e.entry control).stats.asyncRuns

theorem Keeps.imp {v : Json} {excuse excuse' : Prop} (h : e.Keeps K p v excuse)
    (hK : ∀ past, K past excuse → K' past excuse') : e.Keeps K' p v excuse' := by
  obtain ⟨past, htree, hvalue, herrors, hpast⟩ := h
  exact ⟨past, htree, hvalue, herrors, hK past hpast⟩

theorem Answers.imp (h : Answers e K A p) (hK : ∀ past excuse, K past excuse → K' past excuse)
    (hA : ∀ past excuse, A past excuse → A' past excuse) : Answers e K' A' p where
  shows := h.shows
  forced := h.forced
  first := h.first
  evaluates evaluation hphase := by
    obtain ⟨past, htree, hvalue, hresults, hpast, hown⟩ := h.evaluates evaluation hphase
    exact ⟨past, htree, hvalue, hresults, hA _ _ hpast, hown⟩
  keeps v hv := (h.keeps v hv).imp fun past => hK past _
  recent := h.recent

/-! ## From a trigger to a decision -/

theorem entry_enter (e : Engine) (p : InquiryPipeline) (phase : InquiryPhase) (other : ControlId) :
    (e.enter p phase).entry other = e.entry other := rfl

theorem entry_passThrough (e : Engine) (p : InquiryPipeline) (errors : Option TestResults) :
    (e.passThrough p errors).entry p.control =
      (e.entry p.control).count fun s => { s with passthroughs := s.passthroughs + 1 } :=
  (ScheduleTable.entry_modify e.scheduler.table p.control
    (fun entry => entry.count fun s => { s with passthroughs := s.passthroughs + 1 })
    p.control).trans (if_pos rfl)

theorem entry_evaluate (e : Engine) (p : InquiryPipeline) (forced outrun : Bool) (v : Json) :
    (e.evaluate p forced outrun v).entry p.control =
      (e.entry p.control).count fun s => { s with asyncRuns := s.asyncRuns + 1 } :=
  (ScheduleTable.entry_modify e.scheduler.table p.control
    (fun entry => entry.count fun s => { s with asyncRuns := s.asyncRuns + 1 })
    p.control).trans (if_pos rfl)

theorem entry_complete (e : Engine) (p : InquiryPipeline) (evaluation : Evaluation) :
    (e.complete p evaluation).entry p.control =
      { e.entry p.control with
        lastProcessed := some evaluation.value
        lastErrors := evaluation.results.errors? } :=
  (ScheduleTable.entry_modify e.scheduler.table p.control
    (fun entry =>
      { entry with
        lastProcessed := some evaluation.value
        lastErrors := evaluation.results.errors? })
    p.control).trans (if_pos rfl)

/-- The engine in which an evaluation was given up, and nothing was done about the trigger yet. -/
def givenUp (e : Engine) (p : InquiryPipeline) (evaluation : Evaluation) : Engine :=
  { e with
    scheduler := e.scheduler.modifyEntry p.control fun entry =>
      { entry.count fun s => { s with superseded := s.superseded + 1 } with
        force := entry.force || evaluation.forced } }

theorem entry_givenUp (e : Engine) (p : InquiryPipeline) (evaluation : Evaluation) :
    (e.givenUp p evaluation).entry p.control =
      { (e.entry p.control).count fun s => { s with superseded := s.superseded + 1 } with
        force := (e.entry p.control).force || evaluation.forced } :=
  (ScheduleTable.entry_modify e.scheduler.table p.control
    (fun entry =>
      { entry.count fun s => { s with superseded := s.superseded + 1 } with
        force := entry.force || evaluation.forced })
    p.control).trans (if_pos rfl)

theorem Shows.applyAsyncValidity (e : Engine) (id : ControlId) (errors : Option TestResults)
    {s : ControlState} (hs : (e.form.applyAsyncValidity id errors).state? id = some s) :
    s.pending = false ∧ s.asyncErrors = errors := by
  rw [Form.applyAsyncValidity, Form.state?_modifyState, if_pos rfl] at hs
  obtain ⟨s, -, rfl⟩ := Option.map_eq_some_iff.1 hs
  exact ⟨rfl, rfl⟩

/-- Waiting for further triggers is a way of being busy. -/
theorem Ready.answers_gather (hK : Excusable K) (h : Ready e K p false) (deadline : Nat) :
    Answers (e.enter p (.gathering deadline)) K A { p with phase := .gathering deadline } where
  shows := h.shows
  forced hforce := by
    have hunforced := h.unforced
    rw [entry_enter] at hforce
    simp [hunforced] at hforce
  first _ := .inl rfl
  evaluates _ hphase := by cases hphase
  keeps v hlast := (h.keeps v hlast).imp fun _ hpast => hK.imp hpast fun hfalse => by cases hfalse
  recent _ _ := .inl rfl

/-- A value that was evaluated last is answered by the kept errors. -/
theorem Ready.answers_passThrough (hK : Excusable K) (h : Ready e K p false) {v : Json}
    (hlast : (e.entry p.control).lastProcessed = some v)
    (hequates : p.settings.Equates v (e.form.value p.control)) :
    Answers (e.passThrough p (e.entry p.control).lastErrors) K A { p with phase := .waiting } := by
  have hdoc : Form.SameDocument
      (e.form.applyAsyncValidity p.control (e.entry p.control).lastErrors) e.form :=
    Form.sameDocument_modifyState _ _ _
  have hentry := entry_passThrough e p (e.entry p.control).lastErrors
  refine ⟨?_, ?_, ?_, ?_, ?_, ?_⟩
  · intro s hs
    rw [hentry]
    exact Shows.applyAsyncValidity e _ _ hs
  · intro hforce
    rw [hentry] at hforce
    have hunforced := h.unforced
    simp [ScheduleEntry.count, hunforced] at hforce
  · intro hnone
    rw [hentry] at hnone
    simp [ScheduleEntry.count, hlast] at hnone
  · intro evaluation hphase
    cases hphase
  · intro u hu
    rw [hentry] at hu ⊢
    obtain ⟨past, htree, hv, herrors, hpast⟩ := h.keeps u hu
    refine ⟨past, htree.trans hdoc.sameTree.symm, hv, ?_,
      hK.imp hpast fun hfalse => by cases hfalse⟩
    rw [hentry]
    exact herrors
  · intro u hu
    -- the kept value stays, and it is the one that the present value was compared with
    rw [hentry] at hu
    have heq : u = v := Option.some.inj (hu.symm.trans hlast)
    subst heq
    refine .inr (.inr (.inr ?_))
    have hvalue : (e.passThrough p (e.entry p.control).lastErrors).form.value p.control =
        e.form.value p.control := hdoc.value p.control
    rw [hvalue]
    exact hequates

/-- An evaluation that starts is about the present form. -/
theorem Ready.answers_evaluate (hK : Excusable K) {forced : Bool} (h : Ready e K p forced)
    {evaluation : Evaluation} (hread : ∀ excuse, A e.form excuse)
    (hvalue : evaluation.value = e.form.value p.control) (hforced : evaluation.forced = forced)
    (hresults : evaluation.results = e.form.reply p.control p.tests) :
    Answers (e.evaluate p forced outrun (e.form.value p.control)) K A
      { p with phase := .evaluating evaluation } := by
  have hentry := entry_evaluate e p forced outrun (e.form.value p.control)
  refine ⟨?_, ?_, fun _ => .inl rfl, ?_, ?_, fun _ _ => .inl rfl⟩
  · intro s hs
    rw [hentry]
    exact h.shows s hs
  · intro hforce
    rw [hentry] at hforce
    have hunforced := h.unforced
    simp [ScheduleEntry.count, hunforced] at hforce
  · intro evaluation' hphase
    cases hphase
    exact ⟨e.form, .refl e.form, hvalue, hresults, hread _, .inr rfl⟩
  · intro v hv
    rw [hentry] at hv ⊢
    obtain ⟨past, htree, hv, herrors, hpast⟩ := h.keeps v hv
    refine ⟨past, htree, hv, ?_, ?_⟩
    · rw [hentry]
      exact herrors
    · -- the excuse of the kept result is from now on that a forced evaluation is under way
      exact hK.imp hpast fun hforced' => .inr ⟨evaluation, rfl, hforced.trans hforced'⟩

/-- Whatever is decided, the pipeline answers for it. -/
theorem Ready.decide (hK : Excusable K) {forced : Bool} (h : Ready e K p forced)
    (hsome : (e.scheduler.inquiry? p.control).isSome = true)
    (hread : e.asyncRuns p.control < (e.decide p forced outrun).asyncRuns p.control →
      ∀ excuse, A (e.decide p forced outrun).form excuse) :
    ∃ p', (e.decide p forced outrun).scheduler.inquiry? p.control = some p' ∧
      (e.decide p forced outrun).Answers K A p' := by
  unfold Engine.decide at hread ⊢
  dsimp only at hread ⊢
  by_cases hsame : (!forced && p.settings.distinct &&
      (e.entry p.control).lastProcessed.any (· == e.form.value p.control)) = true
  · unfold entry at hsame
    rw [if_pos hsame] at hread ⊢
    simp only [Bool.and_eq_true, Bool.not_eq_true', Option.any_eq_true] at hsame
    obtain ⟨⟨rfl, hdistinct⟩, v, hlast, heq⟩ := hsame
    refine ⟨_, inquiry?_enter ?_ _, h.answers_passThrough hK hlast (.inr ⟨hdistinct, heq⟩)⟩
    exact hsome
  · unfold entry at hsame
    rw [if_neg hsame] at hread ⊢
    have hstarted : e.asyncRuns p.control <
        (e.evaluate p forced outrun (e.form.value p.control)).asyncRuns p.control := by
      rw [asyncRuns, asyncRuns, entry_evaluate]
      exact Nat.lt_succ_self _
    refine ⟨_, inquiry?_enter ?_ _, h.answers_evaluate hK (hread hstarted) rfl rfl rfl⟩
    exact hsome

/-- What holds when a trigger is about to be taken. -/
structure Answerable (e : Engine) (K : Form → Prop → Prop) (p : InquiryPipeline) : Prop where
  errors : ∀ s, e.form.state? p.control = some s →
    s.asyncErrors = (e.entry p.control).lastErrors
  keeps : ∀ v, (e.entry p.control).lastProcessed = some v →
    e.Keeps K p v ((e.entry p.control).force = true)

theorem Answerable.imp (h : Answerable e K p) (hK : ∀ past excuse, K past excuse → K' past excuse) :
    Answerable e K' p where
  errors := h.errors
  keeps v hv := (h.keeps v hv).imp fun past => hK past _

/-- A trigger that is taken uses the force flag up. -/
theorem Answerable.begin (hK : Excusable K) (h : Answerable e K p)
    (hsome : (e.scheduler.inquiry? p.control).isSome = true)
    (hread : e.asyncRuns p.control < (e.begin p outrun).asyncRuns p.control →
      ∀ excuse, A (e.begin p outrun).form excuse) :
    ∃ p', (e.begin p outrun).scheduler.inquiry? p.control = some p' ∧
      (e.begin p outrun).Answers K A p' := by
  have hdoc : Form.SameDocument (e.form.setPending p.control true) e.form :=
    Form.sameDocument_modifyState _ _ _
  have hentry := ScheduleTable.entry_modify e.scheduler.table p.control
    (fun entry => { entry with force := false }) p.control
  rw [if_pos rfl] at hentry
  have hready : Ready { e with
      form := e.form.setPending p.control true
      scheduler := e.scheduler.modifyEntry p.control fun entry => { entry with force := false } }
      K p (e.entry p.control).force := by
    refine ⟨?_, ?_, ?_⟩
    · intro s hs
      dsimp only at hs
      rw [Form.setPending, Form.state?_modifyState, if_pos rfl] at hs
      obtain ⟨s', hs', rfl⟩ := Option.map_eq_some_iff.1 hs
      refine ⟨rfl, (h.errors s' hs').trans ?_⟩
      exact (congrArg ScheduleEntry.lastErrors hentry).symm
    · exact congrArg ScheduleEntry.force hentry
    · intro v hv
      obtain ⟨past, htree, hv, herrors, hpast⟩ :=
        h.keeps v ((congrArg ScheduleEntry.lastProcessed hentry).symm.trans hv)
      exact ⟨past, htree.trans hdoc.sameTree.symm, hv,
        (congrArg ScheduleEntry.lastErrors hentry).trans herrors, hpast⟩
  have hruns : asyncRuns { e with
      form := e.form.setPending p.control true
      scheduler := e.scheduler.modifyEntry p.control fun entry => { entry with force := false } }
      p.control = e.asyncRuns p.control := congrArg (·.stats.asyncRuns) hentry
  unfold Engine.begin at hread ⊢
  dsimp only at hread ⊢
  by_cases hnow : (e.entry p.control).force = true ∨ p.settings.debounce = 0
  · unfold entry at hnow
    rw [if_pos hnow] at hread ⊢
    refine hready.decide hK ?_ fun hstarted => hread (hruns ▸ hstarted)
    exact hsome
  · have hunforced : (e.entry p.control).force = false := by
      cases hforce : (e.entry p.control).force with
      | false => rfl
      | true => exact absurd (.inl hforce) hnow
    unfold entry at hnow
    rw [if_neg hnow] at hread ⊢
    rw [hunforced] at hready
    refine ⟨_, inquiry?_enter ?_ _, hready.answers_gather hK _⟩
    exact hsome

/-! ## Steps of the pipeline itself -/

/-- Without an evaluation under way, only the force flag excuses the kept result. -/
theorem Answers.answerable (hK : Excusable K) {stream : Stream Json} (h : Answers e K A p)
    (hidle : ∀ evaluation, p.phase ≠ .evaluating evaluation) (htakes : p.Takes stream p') :
    Answerable e K p' := by
  have hkeeps : ∀ v, (e.entry p.control).lastProcessed = some v →
      e.Keeps K p v ((e.entry p.control).force = true) := by
    refine fun v hv => (h.keeps v hv).imp fun past hpast => hK.imp hpast fun hexcuse => ?_
    rcases hexcuse with hforce | ⟨evaluation, hphase, -⟩
    · exact hforce
    · exact absurd hphase (hidle evaluation)
  cases htakes with
  | request => exact ⟨fun s hs => (h.shows s hs).2, hkeeps⟩
  | change => exact ⟨fun s hs => (h.shows s hs).2, hkeeps⟩

/-- An evaluation that is given up hands its force on. -/
theorem Answers.answerable_givenUp (hK : Excusable K) {stream : Stream Json}
    {evaluation : Evaluation} (h : Answers e K A p) (hphase : p.phase = .evaluating evaluation)
    (htakes : p.Takes stream p') : Answerable (e.givenUp p' evaluation) K p' := by
  have hentry := entry_givenUp e p evaluation
  have hlast := congrArg ScheduleEntry.lastProcessed hentry
  have herrors := congrArg ScheduleEntry.lastErrors hentry
  have hforce := congrArg ScheduleEntry.force hentry
  have hanswerable : Answerable (e.givenUp p evaluation) K p := by
    refine ⟨fun s hs => ((h.shows s hs).2).trans herrors.symm, fun v hv => ?_⟩
    obtain ⟨past, htree, hv, hkept, hpast⟩ := h.keeps v (hlast.symm.trans hv)
    refine ⟨past, htree, hv, herrors.trans hkept, ?_⟩
    -- both excuses of the kept result become the force flag
    refine hK.imp hpast fun hexcuse => hforce.trans ?_
    rcases hexcuse with hforced | ⟨evaluation', hphase', hforced⟩
    · exact Bool.or_eq_true_iff.2 (.inl hforced)
    · rw [hphase] at hphase'
      cases hphase'
      exact Bool.or_eq_true_iff.2 (.inr hforced)
  cases htakes with
  | request => exact ⟨hanswerable.errors, hanswerable.keeps⟩
  | change => exact ⟨hanswerable.errors, hanswerable.keeps⟩

/-- The results of an evaluation are about the present values unless something is still to come.
What held of the form that they were awaited for holds of the one that they are kept for. -/
theorem Answers.complete (hA : Excusable A) {evaluation : Evaluation} (h : Answers e K A p)
    (hphase : p.phase = .evaluating evaluation) :
    Answers (e.complete p evaluation) A A' { p with phase := .waiting } := by
  have hdoc : Form.SameDocument
      (e.form.applyAsyncValidity p.control evaluation.results.errors?) e.form :=
    Form.sameDocument_modifyState _ _ _
  have hentry := entry_complete e p evaluation
  obtain ⟨past, htree, hvalue, hresults, hpast, hown⟩ := h.evaluates evaluation hphase
  refine ⟨?_, ?_, ?_, ?_, ?_, ?_⟩
  · intro s hs
    rw [hentry]
    exact Shows.applyAsyncValidity e _ _ hs
  · intro hforce
    rw [hentry] at hforce
    exact h.forced hforce
  · intro hnone
    rw [hentry] at hnone
    cases hnone
  · intro evaluation' hphase'
    cases hphase'
  · intro v hv
    rw [hentry] at hv ⊢
    cases hv
    refine ⟨past, htree.trans hdoc.sameTree.symm, hvalue, ?_, hA.imp hpast .inl⟩
    rw [hentry]
    exact congrArg TestResults.errors? hresults
  · intro v hv
    -- the evaluation has become the kept result, so what held of it holds of that
    rw [hentry] at hv
    cases hv
    refine .inr (.inr ?_)
    rcases hown with hunread | hagree
    · exact .inl (hunread.congr (hdoc.changes _))
    · refine .inr (.inl ?_)
      rw [hvalue, hagree]
      exact (hdoc.value p.control).symm

/-- Whatever an inquiry pipeline does, it answers for it. It goes on keeping what it kept, unless it
completes an evaluation. -/
theorem InquiryStep.answers (hK : Excusable K) (hA : Excusable A) (hK' : Excusable K')
    {stream : Stream Json} (hp : e.scheduler.inquiry? p.control = some p)
    (hopen : stream.closed = false) (hstream : e.form.changes? p.control = some stream)
    (h : Answers e K A p) (hstep : e.InquiryStep p stream race e')
    (hkept : e.GivesUp p race → ∀ past excuse, K past excuse → K' past excuse)
    (happlied : ¬ e.GivesUp p race → ∀ past excuse, A past excuse → K' past excuse)
    (hread : e.asyncRuns p.control < e'.asyncRuns p.control → ∀ excuse, A' e'.form excuse) :
    ∃ p', e'.scheduler.inquiry? p.control = some p' ∧ e'.Answers K' A' p' := by
  have hsome : (e.scheduler.inquiry? p.control).isSome = true := by rw [hp]; rfl
  have houtruns := outruns_eq hp hstream race
  cases hstep with
  | begin htakes hidle =>
      have hgivesUp : e.GivesUp p race := .of_idle hidle
      rw [← htakes.control] at hsome hread ⊢
      exact ((h.answerable hK hidle htakes).imp (hkept hgivesUp)).begin hK' hsome hread
  | @supersede p' evaluation outrun htakes hphase hfirst =>
      have hgivesUp : e.GivesUp p race :=
        (givesUp_iff hphase).2 fun hdue => houtruns.trans (hfirst hdue)
      rw [← htakes.control] at hsome hread ⊢
      have hruns : (e.givenUp p' evaluation).asyncRuns p'.control = e.asyncRuns p'.control :=
        congrArg (·.stats.asyncRuns) (entry_givenUp e p' evaluation)
      exact ((h.answerable_givenUp hK hphase htakes).imp (hkept hgivesUp)).begin hK' hsome
        fun hstarted => hread (hruns ▸ hstarted)
  | @decide deadline hphase _ hzero =>
      have hgivesUp : e.GivesUp p race := .of_idle (by simp [hphase])
      -- a forced inquiry would be requested, but there is no request left
      have hunforced : (e.entry p.control).force = false := by
        cases hforce : (e.entry p.control).force with
        | false => rfl
        | true => exact absurd (h.forced hforce) (by omega)
      refine Ready.decide hK' ⟨fun s hs => ?_, hunforced, fun v hv => ?_⟩ hsome hread
      · obtain ⟨hpending, herrors⟩ := h.shows s hs
        exact ⟨hpending.trans (by simp [InquiryPipeline.isBusy, hphase]), herrors⟩
      · refine (h.keeps v hv).imp fun past hpast =>
          hK'.imp (hkept hgivesUp past _ hpast) fun hexcuse => ?_
        rcases hexcuse with hforce | ⟨evaluation, hphase', -⟩
        · simp [hunforced] at hforce
        · simp [hphase] at hphase'
  | @complete evaluation hphase hdue hfirst =>
      have hgivesUp : ¬ e.GivesUp p race := fun hgivesUp => by
        rw [← houtruns, (givesUp_iff hphase).1 hgivesUp hdue] at hfirst
        cases hfirst
      exact ⟨_, inquiry?_enter hsome _,
        (h.complete hA hphase).imp (happlied hgivesUp) fun _ _ => id⟩
  | finish hclosed => simp [hopen] at hclosed

/-! ## Other events -/

/-- The state of a control is the same in what inquiries write. -/
def KeepsShowing (e e' : Engine) (id : ControlId) : Prop :=
  ∀ s', e'.form.state? id = some s' →
    ∃ s, e.form.state? id = some s ∧ s'.pending = s.pending ∧ s'.asyncErrors = s.asyncErrors

theorem Shows.keeps {id : ControlId} {pending : Bool} {errors : Option TestResults}
    (h : e.Shows id pending errors) (hkept : KeepsShowing e e' id) :
    e'.Shows id pending errors := by
  intro s' hs'
  obtain ⟨s, hs, hpending, herrors⟩ := hkept s' hs'
  exact (h s hs).imp hpending.trans herrors.trans

section KeepsShowing

variable {control : Nat}

theorem keepsShowing_react (e : Engine) (other : ControlId) (reaction : Reaction) :
    KeepsShowing e (e.react other reaction) control := by
  intro s' hs'
  rw [state?_react] at hs'
  split at hs'
  · obtain ⟨s, hs, rfl⟩ := Option.map_eq_some_iff.1 hs'
    exact ⟨s, hs, Form.inquired_judged _ _ _ s⟩
  · exact ⟨s', hs', rfl, rfl⟩

theorem keepsShowing_reactIf (e : Engine) (s : Scheduler) (q : ChangePipeline) (y : Option Json) :
    KeepsShowing e ({ e with scheduler := s }.reactIf q y.isSome) control := by
  cases y with
  | none => exact fun s hs => ⟨s, hs, rfl, rfl⟩
  | some v => exact keepsShowing_react { e with scheduler := s } q.control q.reaction

theorem keepsShowing_set {id : ControlId} {v : Json} {f : Form}
    (hset : e.form.setValue id v = .ok f) : KeepsShowing e { e with form := f } control := by
  intro s' hs'
  rw [Form.state?_of_setValue hset] at hs'
  split at hs'
  · obtain ⟨s, hs, rfl⟩ := Option.map_eq_some_iff.1 hs'
    exact ⟨s, hs, Form.inquired_validated _ _ s⟩
  · exact ⟨s', hs', rfl, rfl⟩

theorem keepsShowing_external (e : Engine) (id : ControlId)
    (change : List (String × String) → List (String × String)) :
    KeepsShowing e { e with
      form := e.form.modifyState id fun s =>
        { s with externalErrors := change s.externalErrors } } control := by
  intro s' hs'
  dsimp only at hs'
  rw [Form.state?_modifyState] at hs'
  split at hs'
  · obtain ⟨s, hs, rfl⟩ := Option.map_eq_some_iff.1 hs'
    exact ⟨s, hs, rfl, rfl⟩
  · exact ⟨s', hs', rfl, rfl⟩

theorem keepsShowing_force (e : Engine) (id : ControlId) :
    KeepsShowing e (e.force id) control := by
  intro s' hs'
  have hstate : (e.force id).form.state? control = _ :=
    Form.state?_refreshValidity e.form id control
  rw [hstate] at hs'
  split at hs'
  · obtain ⟨s, hs, rfl⟩ := Option.map_eq_some_iff.1 hs'
    exact ⟨s, hs, Form.inquired_validated _ _ s⟩
  · exact ⟨s', hs', rfl, rfl⟩

/-- A step of another pipeline writes nothing of what inquiries of a control show. -/
theorem keepsShowing_step (sound : e.Sound) {r : PipelineRef} (hr : r ≠ .inquiry control)
    (hstep : e.step? r race = some e') : KeepsShowing e e' control := by
  cases r with
  | dependency i =>
      obtain ⟨p, y, w, s, -, rfl⟩ := changeStep_of_stepDependency? hstep
      exact keepsShowing_reactIf e s _ y
  | editability id =>
      obtain ⟨p, y, w, s, -, rfl⟩ := changeStep_of_stepEditability? hstep
      exact keepsShowing_reactIf e s _ y
  | inquiry id =>
      obtain ⟨q, stream, hq, -, hinquiry⟩ := inquiryStep_of_stepInquiry? hstep
      obtain ⟨rfl, -⟩ := sound.inquiry hq
      have hne : control ≠ q.control := fun heq => hr (congrArg PipelineRef.inquiry heq.symm)
      intro s' hs'
      exact ⟨s', ((hinquiry.frame hq).state _ hne).symm.trans hs', rfl, rfl⟩

end KeepsShowing

/-- An event that leaves the pipeline and what the table keeps about it. -/
theorem Answers.carry (h : Answers e K A p) (htree : Form.SameTree e'.form e.form)
    (hshows : KeepsShowing e e' p.control)
    (hforce : (e'.entry p.control).force = (e.entry p.control).force)
    (hlast : (e'.entry p.control).lastProcessed = (e.entry p.control).lastProcessed)
    (herrors : (e'.entry p.control).lastErrors = (e.entry p.control).lastErrors)
    (hK : ∀ past excuse, K past excuse → K' past excuse)
    (hA : ∀ past excuse, A past excuse → A' past excuse)
    (hunread : p.Unread e.form → p.Unread e'.form)
    (hvalue : p.Unread e'.form ∨ e'.form.value p.control = e.form.value p.control) :
    Answers e' K' A' p where
  shows := herrors ▸ h.shows.keeps hshows
  forced hforced := h.forced (hforce.symm.trans hforced)
  first hnone := h.first (hlast.symm.trans hnone)
  evaluates evaluation hphase := by
    obtain ⟨past, hpast, hv, hresults, hheld, hown⟩ := h.evaluates evaluation hphase
    refine ⟨past, hpast.trans htree.symm, hv, hresults, hforce ▸ hA past _ hheld, ?_⟩
    rcases hown with hown | hown
    · exact .inl (hunread hown)
    · exact hvalue.imp_right fun hsame => hown.trans hsame.symm
  keeps v hv := by
    obtain ⟨past, hpast, hv, hkept, hheld⟩ := h.keeps v (hlast.symm.trans hv)
    exact ⟨past, hpast.trans htree.symm, hv, herrors.trans hkept, hforce ▸ hK past _ hheld⟩
  recent v hv := by
    refine (h.recent v (hlast.symm.trans hv)).imp_right fun h => h.imp_right fun h => ?_
    rcases h with hown | hown
    · exact .inl (hunread hown)
    · refine hvalue.imp_right fun hsame => ?_
      rw [hsame]
      exact hown

/-- A forced inquiry is requested. -/
theorem Answers.request (hK' : Excusable K') (hA' : Excusable A') (h : Answers e K A p)
    (hdoc : Form.SameDocument e'.form e.form) (hshows : KeepsShowing e e' p.control)
    (hforce : (e'.entry p.control).force = true)
    (hlast : (e'.entry p.control).lastProcessed = (e.entry p.control).lastProcessed)
    (herrors : (e'.entry p.control).lastErrors = (e.entry p.control).lastErrors) :
    Answers e' K' A' { p with requests := p.requests + 1 } where
  shows := herrors ▸ h.shows.keeps hshows
  forced _ := Nat.succ_pos _
  first _ := .inr (Nat.succ_pos _)
  evaluates evaluation hphase := by
    obtain ⟨past, hpast, hv, hresults, -, hown⟩ := h.evaluates evaluation hphase
    refine ⟨past, hpast.trans hdoc.sameTree.symm, hv, hresults, hA'.excused hforce, ?_⟩
    refine hown.imp (fun hunread => ?_) fun hsame => hsame.trans (hdoc.value _).symm
    obtain ⟨s, hs, hlt⟩ := hunread
    exact ⟨s, (hdoc.changes _).trans hs, hlt⟩
  keeps v hv := by
    obtain ⟨past, hpast, hv, hkept, -⟩ := h.keeps v (hlast.symm.trans hv)
    exact ⟨past, hpast.trans hdoc.sameTree.symm, hv, herrors.trans hkept,
      hK'.excused (.inl hforce)⟩
  recent _ _ := .inr (.inl (Nat.succ_pos _))

/-- The clock only takes rules off those that are still to be asked. -/
theorem Answers.tick (hK : Excusable K) (h : Answers e K A p) (now : Nat) :
    Answers (e.tick now) K A (p.tick now) := by
  rw [InquiryPipeline.tick_eq]
  have hphase : ∀ evaluation, p.phase.tick now = .evaluating evaluation →
      ∃ evaluation', p.phase = .evaluating evaluation' ∧
        evaluation'.value = evaluation.value ∧ evaluation'.forced = evaluation.forced ∧
        evaluation'.results = evaluation.results := by
    intro evaluation heq
    cases hp : p.phase with
    | evaluating evaluation' =>
        rw [hp] at heq
        cases heq
        exact ⟨evaluation', rfl, rfl, rfl, rfl⟩
    | _ => simp [InquiryPhase.tick, hp] at heq
  have hbusy := p.isBusy_tick now
  refine ⟨hbusy ▸ h.shows, h.forced, hbusy ▸ h.first, ?_, ?_, hbusy ▸ h.recent⟩
  · intro evaluation heq
    obtain ⟨evaluation', hp, hvalue, -, hresults⟩ := hphase evaluation heq
    have hevaluates := h.evaluates evaluation' hp
    unfold Evaluates at hevaluates
    rw [hvalue, hresults] at hevaluates
    exact hevaluates
  · intro v hv
    obtain ⟨past, hpast, hv, hkept, hheld⟩ := h.keeps v hv
    refine ⟨past, hpast, hv, hkept, hK.imp hheld fun hexcuse => hexcuse.imp_right ?_⟩
    rintro ⟨evaluation, hp, hforced⟩
    refine ⟨{ evaluation with upcoming := evaluation.upcoming.filter (now < ·.1) }, ?_, hforced⟩
    simp [hp, InquiryPhase.tick]

end Engine

end ReactiveForm
