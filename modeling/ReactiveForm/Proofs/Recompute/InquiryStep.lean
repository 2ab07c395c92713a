import ReactiveForm.Proofs.Recompute.Step

/-!
# Steps of inquiry pipelines

An inquiry pipeline takes a trigger, decides on the current value when the time for further triggers
is up, or completes an evaluation. Whatever it does concerns its own control only: the pipeline, the
entry in the table, and the part of the state that inquiries write (`InquiryFrame`).
-/

namespace ReactiveForm

/-- How many steps a phase can take without a trigger, counting the end of the stream. -/
def InquiryPhase.weight : InquiryPhase → Nat
  | .waiting => 1
  | .gathering _ => 3
  | .evaluating _ => 2
  | .ended => 0

theorem Trigger.orElse_eq_pending {first later : Trigger} :
    first.orElse later = .pending ↔ first = .pending ∧ later = .pending := by
  cases first <;> simp [orElse]

namespace InquiryPipeline

variable {p p' : InquiryPipeline} {stream : Stream Json} {race : Race}

/-- The pipeline behind a trigger. -/
inductive Takes (p : InquiryPipeline) (stream : Stream Json) : InquiryPipeline → Prop where
  | request (hpos : 0 < p.requests) : Takes p stream { p with requests := p.requests - 1 }
  | change {v : Json} {receiver : Nat} (hnext : stream.next? p.receiver = some (v, receiver)) :
      Takes p stream { p with receiver }

theorem takes_of_takeRequest (h : p.takeRequest = .taken p') : p.Takes stream p' := by
  unfold takeRequest at h
  split at h
  · rename_i hpos
    cases h
    exact .request hpos
  · cases h

theorem takeRequest_ne_ended (p : InquiryPipeline) : p.takeRequest ≠ .ended := by
  unfold takeRequest
  split <;> exact Trigger.noConfusion

theorem takes_of_takeChange (h : p.takeChange stream = .taken p') : p.Takes stream p' := by
  unfold takeChange at h
  split at h
  · rename_i hnext
    cases h
    exact .change hnext
  · split at h <;> cases h

theorem closed_of_takeChange (h : p.takeChange stream = .ended) : stream.closed = true := by
  unfold takeChange at h
  split at h
  · cases h
  · split at h
    · assumption
    · cases h

theorem takeRequest_eq_pending : p.takeRequest = .pending ↔ p.requests = 0 := by
  unfold takeRequest
  split <;> simp <;> omega

theorem takeChange_eq_pending : p.takeChange stream = .pending ↔
    stream.next? p.receiver = none ∧ stream.closed = false := by
  unfold takeChange
  cases stream.next? p.receiver <;> simp

/-- Of two triggers one is taken. -/
theorem orElse_cases {first later : Trigger} :
    first.orElse later = first ∨ first.orElse later = later := by
  cases first with
  | pending => exact .inr rfl
  | _ => exact .inl rfl

/-- However a race ends, the trigger is a request or a change. -/
theorem trigger_cases (p : InquiryPipeline) (stream : Stream Json) (race : Race) :
    p.trigger stream race = p.takeRequest ∨ p.trigger stream race = p.takeChange stream := by
  unfold trigger
  split
  · exact orElse_cases.symm
  · exact orElse_cases

theorem takes_of_trigger (h : p.trigger stream race = .taken p') : p.Takes stream p' := by
  rcases p.trigger_cases stream race with heq | heq
  · exact takes_of_takeRequest (heq ▸ h)
  · exact takes_of_takeChange (heq ▸ h)

theorem closed_of_trigger (h : p.trigger stream race = .ended) : stream.closed = true := by
  rcases p.trigger_cases stream race with heq | heq
  · exact absurd (heq ▸ h) (takeRequest_ne_ended p)
  · exact closed_of_takeChange (heq ▸ h)

/-- Whether a trigger is there is not a matter of races: nothing triggers a pipeline without
requests that has received all changes. -/
theorem trigger_eq_pending : p.trigger stream race = .pending ↔
    p.requests = 0 ∧ stream.next? p.receiver = none ∧ stream.closed = false := by
  rw [← takeRequest_eq_pending, ← takeChange_eq_pending]
  unfold trigger
  split
  · rw [Trigger.orElse_eq_pending, and_comm]
  · exact Trigger.orElse_eq_pending

/-- Taking a trigger changes nothing about the outline of a pipeline, and neither does a phase. -/
theorem Takes.outline (h : p.Takes stream p') (phase : InquiryPhase) :
    { p' with phase }.outline = p.outline := by
  cases h <;> rfl

theorem Takes.control (h : p.Takes stream p') : p'.control = p.control := by
  cases h <;> rfl

theorem Takes.tests (h : p.Takes stream p') : p'.tests = p.tests := by
  cases h <;> rfl

end InquiryPipeline

namespace Engine

variable {e e' e'' : Engine} {control : ControlId} {p p' old : InquiryPipeline}
  {stream : Stream Json} {race : Race}

/-! ## The kinds of steps -/

/-- A step of an inquiry pipeline on the stream of its control. -/
inductive InquiryStep (e : Engine) (p : InquiryPipeline) (stream : Stream Json) (race : Race) :
    Engine → Prop where
  /-- A trigger is taken while no evaluation is under way. -/
  | begin {p' : InquiryPipeline} {outrun : Bool} (htakes : p.Takes stream p')
      (hidle : ∀ evaluation, p.phase ≠ .evaluating evaluation) :
      InquiryStep e p stream race (e.begin p' outrun)
  /-- A trigger is taken while an evaluation is under way. It outruns the results, or they are not
  there. -/
  | supersede {p' : InquiryPipeline} {evaluation : Evaluation} {outrun : Bool}
      (htakes : p.Takes stream p') (hphase : p.phase = .evaluating evaluation)
      (hfirst : evaluation.finish ≤ e.clock → p.outruns stream race = true) :
      InquiryStep e p stream race (e.supersede p' evaluation outrun)
  /-- The time for further triggers is up, and there is none. -/
  | decide {deadline : Nat} (hphase : p.phase = .gathering deadline) (hdue : deadline ≤ e.clock)
      (hzero : p.requests = 0) (hnext : stream.next? p.receiver = none) :
      InquiryStep e p stream race (e.decide p false false)
  /-- The results of an evaluation are there, and nothing outruns them. -/
  | complete {evaluation : Evaluation} (hphase : p.phase = .evaluating evaluation)
      (hdue : evaluation.finish ≤ e.clock) (hfirst : p.outruns stream race = false) :
      InquiryStep e p stream race (e.complete p evaluation)
  /-- The stream has ended. -/
  | finish (hclosed : stream.closed = true) : InquiryStep e p stream race (e.enter p .ended)

/-- Whether a further trigger of a control is there and comes before the results of an
evaluation. -/
def outruns (e : Engine) (control : ControlId) (race : Race) : Bool :=
  (e.scheduler.inquiry? control).any fun p =>
    (e.form.changes? control).any fun stream => p.outruns stream race

theorem outruns_eq (hp : e.scheduler.inquiry? control = some p)
    (hstream : e.form.changes? control = some stream) (race : Race) :
    e.outruns control race = p.outruns stream race := by
  rw [outruns, hp, Option.any_some, hstream, Option.any_some]

@[simp]
theorem outruns_usual (e : Engine) (control : ControlId) : e.outruns control .usual = false := by
  simp [outruns, InquiryPipeline.outruns, Race.usual]

/-- If the results of an evaluation under way are there, a further trigger outruns them. -/
def GivesUp (e : Engine) (p : InquiryPipeline) (race : Race) : Prop :=
  ∀ v, p.phase = .evaluating v → v.finish ≤ e.clock → e.outruns p.control race = true

theorem GivesUp.of_idle (hidle : ∀ v, p.phase ≠ .evaluating v) : e.GivesUp p race :=
  fun v hphase => absurd hphase (hidle v)

theorem givesUp_iff {v : Evaluation} (hphase : p.phase = .evaluating v) :
    e.GivesUp p race ↔ (v.finish ≤ e.clock → e.outruns p.control race = true) := by
  refine ⟨fun h => h v hphase, fun h v' hphase' => ?_⟩
  rw [hphase] at hphase'
  cases hphase'
  exact h

theorem inquiryStep_of_stepInquiry? (h : e.stepInquiry? control race = some e') :
    ∃ p stream, e.scheduler.inquiry? control = some p ∧ e.form.changes? control = some stream ∧
      e.InquiryStep p stream race e' := by
  unfold stepInquiry? at h
  obtain ⟨p, hp, h⟩ := Option.bind_eq_some_iff.1 h
  obtain ⟨stream, hstream, h⟩ := Option.bind_eq_some_iff.1 h
  refine ⟨p, stream, hp, hstream, ?_⟩
  cases hphase : p.phase with
  | ended => simp [hphase] at h
  | waiting =>
      cases htrigger : p.trigger stream race with
      | taken p' =>
          simp only [hphase, htrigger, Option.some.injEq] at h
          exact h ▸ .begin (InquiryPipeline.takes_of_trigger htrigger) (by simp [hphase])
      | ended =>
          simp only [hphase, htrigger, Option.some.injEq] at h
          exact h ▸ .finish (InquiryPipeline.closed_of_trigger htrigger)
      | pending => simp [hphase, htrigger] at h
  | gathering deadline =>
      cases htrigger : p.trigger stream race with
      | taken p' =>
          simp only [hphase, htrigger, Option.some.injEq] at h
          exact h ▸ .begin (InquiryPipeline.takes_of_trigger htrigger) (by simp [hphase])
      | ended =>
          simp only [hphase, htrigger, Option.some.injEq] at h
          exact h ▸ .finish (InquiryPipeline.closed_of_trigger htrigger)
      | pending =>
          -- without a trigger only the deadline can lead to a step
          simp only [hphase, htrigger, Option.ite_none_right_eq_some, Option.some.injEq] at h
          obtain ⟨hzero, hnext, -⟩ := InquiryPipeline.trigger_eq_pending.1 htrigger
          exact h.2 ▸ .decide hphase h.1 hzero hnext
  | evaluating evaluation =>
      by_cases hdue : evaluation.finish ≤ e.clock ∧ p.outruns stream race = false
      · simp only [hphase, if_pos hdue, Option.some.injEq] at h
        exact h ▸ .complete hphase hdue.1 hdue.2
      · have hfirst : evaluation.finish ≤ e.clock → p.outruns stream race = true := fun hle =>
          Bool.of_not_eq_false fun hfalse => hdue ⟨hle, hfalse⟩
        cases htrigger : p.trigger stream race with
        | taken p' =>
            simp only [hphase, if_neg hdue, htrigger, Option.some.injEq] at h
            exact h ▸ .supersede (InquiryPipeline.takes_of_trigger htrigger) hphase hfirst
        | ended =>
            simp only [hphase, if_neg hdue, htrigger, Option.some.injEq] at h
            exact h ▸ .finish (InquiryPipeline.closed_of_trigger htrigger)
        | pending => simp [hphase, if_neg hdue, htrigger] at h

/-- Whether there is a step is not a matter of races: a pipeline that has not ended waits where no
trigger is there and its deadline is still to come. -/
theorem stepInquiry?_eq_none (hp : e.scheduler.inquiry? control = some p)
    (hstream : e.form.changes? control = some stream) :
    e.stepInquiry? control race = none ↔ p.phase = .ended ∨
      p.trigger stream race = .pending ∧
        ∀ moment, p.deadline? = some moment → e.clock < moment := by
  simp only [stepInquiry?, hp, hstream, Option.bind_some, InquiryPipeline.deadline?]
  cases hphase : p.phase with
  | ended => simp
  | waiting => cases htrigger : p.trigger stream race <;> simp
  | gathering deadline => cases htrigger : p.trigger stream race <;> simp
  | evaluating evaluation =>
      cases htrigger : p.trigger stream race with
      | pending => simp [InquiryPipeline.outruns, htrigger, Trigger.isReady]
      | taken p' =>
          dsimp only
          split <;> simp
      | ended =>
          dsimp only
          split <;> simp

/-- A pipeline that has to wait has to wait however its races end. -/
theorem stepInquiry?_eq_none_of_race {race' : Race} (h : e.stepInquiry? control race = none) :
    e.stepInquiry? control race' = none := by
  cases hp : e.scheduler.inquiry? control with
  | none => simp [stepInquiry?, hp]
  | some p =>
      cases hstream : e.form.changes? control with
      | none => simp [stepInquiry?, hp, hstream]
      | some stream =>
          rw [stepInquiry?_eq_none hp hstream, InquiryPipeline.trigger_eq_pending] at h ⊢
          exact h

theorem step?_eq_none_of_race {r : PipelineRef} {race' : Race} (h : e.step? r race = none) :
    e.step? r race' = none := by
  cases r with
  | inquiry control => exact stepInquiry?_eq_none_of_race h
  | _ => exact h

/-! ## What an inquiry is confined to -/

/-- Only what belongs to the inquiries of a control differs. -/
structure InquiryFrame (control : ControlId) (e e' : Engine) : Prop where
  clock : e'.clock = e.clock
  document : Form.SameDocument e'.form e.form
  checked : ∀ id, (e'.form.state? id).map ControlState.checked =
    (e.form.state? id).map ControlState.checked
  state : ∀ id, id ≠ control → e'.form.state? id = e.form.state? id
  dependencies : e'.scheduler.dependencies = e.scheduler.dependencies
  editability : ∀ id, e'.scheduler.editability? id = e.scheduler.editability? id
  outline : Scheduler.SameOutline e'.scheduler e.scheduler
  inquiry : ∀ id, id ≠ control → e'.scheduler.inquiry? id = e.scheduler.inquiry? id
  entry : ∀ id, id ≠ control → e'.scheduler.table.entry id = e.scheduler.table.entry id
  validityRuns : ∀ id, (e'.scheduler.table.entry id).stats.dependencyValidityRuns =
    (e.scheduler.table.entry id).stats.dependencyValidityRuns
  editabilityRuns : ∀ id, (e'.scheduler.table.entry id).stats.editabilityRuns =
    (e.scheduler.table.entry id).stats.editabilityRuns

namespace InquiryFrame

theorem trans (h : InquiryFrame control e e') (h' : InquiryFrame control e' e'') :
    InquiryFrame control e e'' where
  clock := h'.clock.trans h.clock
  document := h'.document.trans h.document
  checked id := (h'.checked id).trans (h.checked id)
  state id hid := (h'.state id hid).trans (h.state id hid)
  dependencies := h'.dependencies.trans h.dependencies
  editability id := (h'.editability id).trans (h.editability id)
  outline := h'.outline.trans h.outline
  inquiry id hid := (h'.inquiry id hid).trans (h.inquiry id hid)
  entry id hid := (h'.entry id hid).trans (h.entry id hid)
  validityRuns id := (h'.validityRuns id).trans (h.validityRuns id)
  editabilityRuns id := (h'.editabilityRuns id).trans (h.editabilityRuns id)

theorem watches (h : InquiryFrame control e e') (q : ChangePipeline) :
    e'.scheduler.Watches q ↔ e.scheduler.Watches q := by
  simp only [Scheduler.Watches, h.dependencies, h.editability]

/-- The state of the control is written where inquiries write. -/
theorem ofState (e : Engine) {change : ControlState → ControlState}
    (hchecked : ∀ s, (change s).checked = s.checked) :
    InquiryFrame control e { e with form := e.form.modifyState control change } where
  clock := rfl
  document := Form.sameDocument_modifyState e.form control change
  checked id := by
    dsimp only
    rw [Form.state?_modifyState]
    split
    · rw [Option.map_map]
      exact congrArg (fun change => Option.map change _) (funext hchecked)
    · rfl
  state id hid := by
    dsimp only
    rw [Form.state?_modifyState, if_neg hid]
  dependencies := rfl
  editability _ := rfl
  outline := .refl _
  inquiry _ _ := rfl
  entry _ _ := rfl
  validityRuns _ := rfl
  editabilityRuns _ := rfl

/-- The entry of the control is changed apart from the counters of checks. -/
theorem ofEntry (e : Engine) {change : ScheduleEntry → ScheduleEntry}
    (hvalidity : ∀ entry, (change entry).stats.dependencyValidityRuns =
      entry.stats.dependencyValidityRuns)
    (heditability : ∀ entry, (change entry).stats.editabilityRuns = entry.stats.editabilityRuns) :
    InquiryFrame control e { e with scheduler := e.scheduler.modifyEntry control change } where
  clock := rfl
  document := .refl _
  checked _ := rfl
  state _ _ := rfl
  dependencies := rfl
  editability _ := rfl
  outline := Scheduler.sameOutline_modifyEntry _ _ _
  inquiry _ _ := rfl
  entry id hid := (ScheduleTable.entry_modify _ _ _ id).trans (if_neg hid)
  validityRuns id := by
    rw [Scheduler.modifyEntry, ScheduleTable.entry_modify]
    split
    · exact hvalidity _
    · rfl
  editabilityRuns id := by
    rw [Scheduler.modifyEntry, ScheduleTable.entry_modify]
    split
    · exact heditability _
    · rfl

/-- The record of the rules that were asked is written. -/
theorem ofAsked (e : Engine) (asked : List Rule) : InquiryFrame control e { e with asked } where
  clock := rfl
  document := .refl _
  checked _ := rfl
  state _ _ := rfl
  dependencies := rfl
  editability _ := rfl
  outline := .refl _
  inquiry _ _ := rfl
  entry _ _ := rfl
  validityRuns _ := rfl
  editabilityRuns _ := rfl

/-- The inquiry pipeline of the control is put in the place of the former one. -/
theorem ofEnter {phase : InquiryPhase} (hold : e.scheduler.inquiry? p.control = some old)
    (houtline : { p with phase }.outline = old.outline) :
    InquiryFrame p.control e (e.enter p phase) where
  clock := rfl
  document := .refl _
  checked _ := rfl
  state _ _ := rfl
  dependencies := rfl
  editability id := Scheduler.editability?_putInquiry _ _ id
  outline := Scheduler.sameOutline_putInquiry hold houtline
  inquiry id hid := by
    have hold' : e.scheduler.inquiry? { p with phase }.control = some old := hold
    exact (Scheduler.inquiry?_putInquiry hold' id).trans (if_neg hid)
  entry _ _ := rfl
  validityRuns _ := rfl
  editabilityRuns _ := rfl

theorem passThrough (hold : e.scheduler.inquiry? p.control = some old)
    (houtline : ∀ phase, { p with phase }.outline = old.outline) (errors : Option TestResults) :
    InquiryFrame p.control e (e.passThrough p errors) := by
  refine (ofEntry e ?_ ?_).trans ((ofState _ ?_).trans (ofEnter hold (houtline _)))
  all_goals exact fun _ => rfl

theorem evaluate (hold : e.scheduler.inquiry? p.control = some old)
    (houtline : ∀ phase, { p with phase }.outline = old.outline) (forced : Bool)
    (value : Json) {outrun : Bool} :
    InquiryFrame p.control e (e.evaluate p forced outrun value) := by
  refine (ofEntry e ?_ ?_).trans ((ofAsked _ _).trans (ofEnter hold (houtline _)))
  all_goals exact fun _ => rfl

theorem decide (hold : e.scheduler.inquiry? p.control = some old)
    (houtline : ∀ phase, { p with phase }.outline = old.outline) (forced : Bool)
    {outrun : Bool} : InquiryFrame p.control e (e.decide p forced outrun) := by
  unfold Engine.decide
  dsimp only
  split
  · exact passThrough hold houtline _
  · exact evaluate hold houtline _ _

theorem begin (hold : e.scheduler.inquiry? p.control = some old)
    (houtline : ∀ phase, { p with phase }.outline = old.outline) {outrun : Bool} :
    InquiryFrame p.control e (e.begin p outrun) := by
  have hstart : InquiryFrame p.control e
      { e with
        form := e.form.setPending p.control true
        scheduler := e.scheduler.modifyEntry p.control fun entry =>
          { entry with force := false } } := by
    refine (ofEntry e ?_ ?_).trans (ofState _ ?_)
    all_goals exact fun _ => rfl
  unfold Engine.begin
  dsimp only
  split
  · refine hstart.trans (decide ?_ houtline _)
    exact hold
  · exact hstart.trans (ofEnter hold (houtline _))

theorem complete (hold : e.scheduler.inquiry? p.control = some old)
    (houtline : ∀ phase, { p with phase }.outline = old.outline) (evaluation : Evaluation) :
    InquiryFrame p.control e (e.complete p evaluation) := by
  refine (ofAsked e (e.asked ++ p.due e.clock)).trans
    ((ofEntry _ ?_ ?_).trans ((ofState _ ?_).trans (ofEnter hold (houtline _))))
  all_goals exact fun _ => rfl

theorem supersede (hold : e.scheduler.inquiry? p.control = some old)
    (houtline : ∀ phase, { p with phase }.outline = old.outline) (evaluation : Evaluation)
    {outrun : Bool} : InquiryFrame p.control e (e.supersede p evaluation outrun) := by
  refine (ofEntry e ?_ ?_).trans (begin ?_ houtline)
  · exact fun _ => rfl
  · exact fun _ => rfl
  · exact hold

end InquiryFrame

/-! ## The pipeline behind a step -/

theorem inquiry?_enter (hsome : (e.scheduler.inquiry? p.control).isSome = true)
    (phase : InquiryPhase) :
    (e.enter p phase).scheduler.inquiry? p.control = some { p with phase } := by
  obtain ⟨old, hold⟩ := Option.isSome_iff_exists.1 hsome
  have hold' : e.scheduler.inquiry? { p with phase }.control = some old := hold
  exact (Scheduler.inquiry?_putInquiry hold' p.control).trans (if_pos rfl)

/-- A pipeline waits for triggers when its evaluation is completed. -/
theorem inquiry?_complete (hp : e.scheduler.inquiry? p.control = some p)
    (evaluation : Evaluation) :
    (e.complete p evaluation).scheduler.inquiry? p.control = some { p with phase := .waiting } :=
  inquiry?_enter (Option.isSome_iff_exists.2 ⟨p, hp⟩) _

theorem exists_inquiry?_decide (hsome : (e.scheduler.inquiry? p.control).isSome = true)
    (forced : Bool) {outrun : Bool} : ∃ phase, phase ≠ .ended ∧ phase.weight ≤ 2 ∧
      (e.decide p forced outrun).scheduler.inquiry? p.control = some { p with phase } := by
  unfold Engine.decide
  dsimp only
  split
  · refine ⟨.waiting, by simp, by decide, inquiry?_enter ?_ _⟩
    exact hsome
  · refine ⟨.evaluating _, by simp, Nat.le_refl 2, inquiry?_enter ?_ _⟩
    exact hsome

theorem exists_inquiry?_begin (hsome : (e.scheduler.inquiry? p.control).isSome = true)
    {outrun : Bool} : ∃ phase, phase ≠ .ended ∧
      (e.begin p outrun).scheduler.inquiry? p.control = some { p with phase } := by
  unfold Engine.begin
  dsimp only
  split
  · obtain ⟨phase, hphase, -, hp⟩ := exists_inquiry?_decide (e := { e with
      form := e.form.setPending p.control true
      scheduler := e.scheduler.modifyEntry p.control fun entry => { entry with force := false } })
      hsome (e.scheduler.table.entry p.control).force
    exact ⟨phase, hphase, hp⟩
  · refine ⟨.gathering _, by simp, inquiry?_enter ?_ _⟩
    exact hsome

/-- As long as its stream is open a pipeline goes on behind a step, and it has used something up. -/
theorem InquiryStep.exists_inquiry? (hp : e.scheduler.inquiry? p.control = some p)
    (hopen : stream.closed = false) (h : e.InquiryStep p stream race e') :
    ∃ p' phase, (p.Takes stream p' ∨ p' = p ∧ phase.weight < p.phase.weight) ∧
      phase ≠ .ended ∧ e'.scheduler.inquiry? p.control = some { p' with phase } := by
  have hsome : (e.scheduler.inquiry? p.control).isSome = true := by rw [hp]; rfl
  cases h with
  | @begin p' outrun htakes =>
      rw [← htakes.control] at hsome ⊢
      obtain ⟨phase, hphase, hp'⟩ := exists_inquiry?_begin hsome
      exact ⟨p', phase, .inl htakes, hphase, hp'⟩
  | @supersede p' evaluation outrun htakes =>
      -- giving up changes the entry only, so the lookup is the one behind `begin`
      rw [← htakes.control] at hsome ⊢
      have hbegin : ∃ phase, phase ≠ .ended ∧
          (e.supersede p' evaluation outrun).scheduler.inquiry? p'.control =
            some { p' with phase } := by
        refine exists_inquiry?_begin ?_
        exact hsome
      obtain ⟨phase, hphase, hp'⟩ := hbegin
      exact ⟨p', phase, .inl htakes, hphase, hp'⟩
  | decide hgathering =>
      obtain ⟨phase, hphase, hweight, hp'⟩ := exists_inquiry?_decide hsome false
      refine ⟨p, phase, .inr ⟨rfl, ?_⟩, hphase, hp'⟩
      rw [hgathering]
      exact Nat.lt_succ_of_le hweight
  | complete hevaluating =>
      refine ⟨p, .waiting, .inr ⟨rfl, ?_⟩, by simp, inquiry?_complete hp _⟩
      rw [hevaluating]
      exact Nat.lt_succ_self 1
  | finish hclosed => simp [hopen] at hclosed

/-- Whatever an inquiry pipeline does concerns its own control only. -/
theorem InquiryStep.frame (hp : e.scheduler.inquiry? p.control = some p)
    (h : e.InquiryStep p stream race e') : InquiryFrame p.control e e' := by
  have hself : ∀ phase, { p with phase }.outline = p.outline := fun _ => rfl
  cases h with
  | begin htakes => exact htakes.control ▸ .begin (htakes.control ▸ hp) htakes.outline
  | supersede htakes =>
      exact htakes.control ▸ .supersede (htakes.control ▸ hp) htakes.outline _
  | decide => exact .decide hp hself _
  | complete => exact .complete hp hself _
  | finish => exact .ofEnter hp (hself _)

end Engine

end ReactiveForm
