import ReactiveForm.Proofs.Recompute.Events

/-!
# Passes

A control makes a pass when it runs its validity tests, or its tests of editability and visibility,
because a pipeline has yielded. The table counts the passes of each control (`Engine.passes`). Only
a pipeline of the control that yields adds to them, and one at a time (`passes_changeStep`); nothing
takes one back.
-/

namespace ReactiveForm

/-- How often a reaction has been run. -/
def ScheduleStats.runs (s : ScheduleStats) : Reaction → Nat
  | .validity => s.dependencyValidityRuns
  | .editability => s.editabilityRuns

theorem ScheduleEntry.runs_noted (e : ScheduleEntry) (reaction other : Reaction) :
    (e.noted reaction).stats.runs other =
      if reaction = other then e.stats.runs other + 1 else e.stats.runs other := by
  cases reaction <;> cases other <;> rfl

namespace Engine

variable {e e' : Engine} {race : Race}

/-- How often a reaction has been run for a control. -/
def passes (e : Engine) (control : ControlId) (reaction : Reaction) : Nat :=
  (e.scheduler.table.entry control).stats.runs reaction

theorem passes_react (e : Engine) (id : ControlId) (done : Reaction) (control : ControlId)
    (reaction : Reaction) :
    (e.react id done).passes control reaction =
      if control = id ∧ done = reaction then e.passes control reaction + 1
      else e.passes control reaction := by
  rw [passes, entry_react]
  by_cases hcontrol : control = id
  · simp only [hcontrol, if_true, true_and]
    exact ScheduleEntry.runs_noted _ done reaction
  · simp only [hcontrol, if_false, false_and]
    rfl

/-- A pipeline that runs checks makes a pass if it yields. -/
theorem passes_changeStep {p : ChangePipeline} {y : Option Json} {w : Watcher} {s : Scheduler}
    (hstep : e.ChangeStep p y w s) (control : ControlId) (reaction : Reaction) :
    ({ e with scheduler := s }.reactIf { p with watcher := w } y.isSome).passes control reaction =
      if y.isSome = true ∧ control = p.control ∧ p.reaction = reaction then
        e.passes control reaction + 1
      else e.passes control reaction := by
  have hsame : passes { e with scheduler := s } control reaction = e.passes control reaction := by
    unfold passes
    rw [hstep.table]
  cases y with
  | none => simpa only [reactIf_none, Option.isSome_none, Bool.false_eq_true, false_and, if_false]
  | some v =>
      rw [reactIf_some, passes_react, hsame]
      simp only [Option.isSome_some, true_and]

/-- A pipeline whose control makes no pass has yielded nothing. -/
theorem ChangeStep.eq_none_of_passes {p : ChangePipeline} {y : Option Json} {w : Watcher}
    {s : Scheduler} {control : ControlId} {reaction : Reaction} (hstep : e.ChangeStep p y w s)
    (hquiet : ({ e with scheduler := s }.reactIf { p with watcher := w } y.isSome).passes control
      reaction = e.passes control reaction) (hcontrol : p.control = control)
    (hreaction : p.reaction = reaction) : y = none := by
  rw [passes_changeStep hstep] at hquiet
  cases y with
  | none => rfl
  | some v =>
      rw [if_pos ⟨rfl, hcontrol.symm, hreaction⟩] at hquiet
      exact absurd hquiet (Nat.succ_ne_self _)

theorem passes_of_inquiryFrame {id : ControlId} (frame : InquiryFrame id e e')
    (control : ControlId) (reaction : Reaction) :
    e'.passes control reaction = e.passes control reaction := by
  cases reaction with
  | validity => exact frame.validityRuns control
  | editability => exact frame.editabilityRuns control

/-- A step of an inquiry pipeline is no pass of anything. -/
theorem passes_of_stepInquiry? (h : e.Sound) {race : Race} {id : ControlId}
    (hstep : e.stepInquiry? id race = some e') (control : ControlId) (reaction : Reaction) :
    e'.passes control reaction = e.passes control reaction := by
  obtain ⟨p, stream, hp, -, hinquiry⟩ := inquiryStep_of_stepInquiry? hstep
  obtain ⟨rfl, -⟩ := h.inquiry hp
  exact passes_of_inquiryFrame (hinquiry.frame hp) control reaction

theorem passes_force (e : Engine) (id control : ControlId) (reaction : Reaction) :
    (e.force id).passes control reaction = e.passes control reaction := by
  have hentry : (e.force id).scheduler.table.entry control =
      (e.scheduler.table.modify id fun entry => { entry with force := true }).entry control := rfl
  rw [passes, hentry, ScheduleTable.entry_modify]
  split <;> rfl

/-- A step never takes a pass back. -/
theorem passes_le_of_step (h : e.Sound) {r : PipelineRef} (hstep : e.step? r race = some e')
    (control : ControlId) (reaction : Reaction) :
    e.passes control reaction ≤ e'.passes control reaction := by
  cases r with
  | dependency i =>
      obtain ⟨p, y, w, s, hchange, rfl⟩ := changeStep_of_stepDependency? hstep
      rw [passes_changeStep hchange]
      split <;> omega
  | editability id =>
      obtain ⟨p, y, w, s, hchange, rfl⟩ := changeStep_of_stepEditability? hstep
      rw [passes_changeStep hchange]
      split <;> omega
  | inquiry id => exact Nat.le_of_eq (passes_of_stepInquiry? h hstep control reaction).symm

theorem passes_le_of_event (h : e.Sound) (hevent : Event e e') (control : ControlId)
    (reaction : Reaction) : e.passes control reaction ≤ e'.passes control reaction := by
  cases hevent with
  | step hstep => exact passes_le_of_step h hstep control reaction
  | tick now => exact Nat.le_refl _
  | set hset => exact Nat.le_refl _
  | external id change => exact Nat.le_refl _
  | force id => exact Nat.le_of_eq (passes_force e id control reaction).symm

theorem passes_le_of_events (h : e.Sound) (hrun : Events e e') (control : ControlId)
    (reaction : Reaction) : e.passes control reaction ≤ e'.passes control reaction := by
  induction hrun with
  | refl => exact Nat.le_refl _
  | tail hrun hevent ih =>
      exact Nat.le_trans ih (passes_le_of_event (hrun.sound h) hevent control reaction)

end Engine

end ReactiveForm
