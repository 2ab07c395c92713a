import ReactiveForm.Proofs.Form.Refresh
import ReactiveForm.Proofs.Recompute.Burst
import ReactiveForm.Proofs.Recompute.Outline
import ReactiveForm.Recompute.Engine

/-!
# All that a step of a pipeline can do

There are two kinds of steps. A pipeline that runs checks moves its watcher, and if that yields a
value the tests of the control are run (`ChangeStep`). An inquiry pipeline takes a trigger, decides
on a value, or completes an evaluation (`InquiryStep`). No step changes the document: steps write
the states of controls, the table, and the pipelines themselves.

What follows about a step is derived from these two descriptions, so that nothing else has to look
into the definition of a step.
-/

namespace ReactiveForm

/-- What an inquiry leaves of a state. -/
def ControlState.checked (s : ControlState) : ControlState :=
  { s with pending := false, asyncErrors := none }

/-- The state of a control after a reaction to a change. -/
def Form.judged (f : Form) (id : ControlId) : Reaction → ControlState → ControlState
  | .validity => f.validated id
  | .editability => f.edited id

/-- The entry of a control after a reaction to a change. -/
def ScheduleEntry.noted (e : ScheduleEntry) : Reaction → ScheduleEntry
  | .validity =>
    { e with
      force := true
      stats := { e.stats with dependencyValidityRuns := e.stats.dependencyValidityRuns + 1 } }
  | .editability =>
    { e with stats := { e.stats with editabilityRuns := e.stats.editabilityRuns + 1 } }

namespace Engine

variable {e e' : Engine} {control other : ControlId} {reaction : Reaction}

/-! ## Reactions -/

theorem sameDocument_react (e : Engine) (control : ControlId) (reaction : Reaction) :
    Form.SameDocument (e.react control reaction).form e.form := by
  cases reaction with
  | validity => exact Form.sameDocument_refreshValidity e.form control
  | editability => exact Form.sameDocument_refreshEditability e.form control

/-- A reaction runs the tests of the control on the present document. -/
theorem state?_react (e : Engine) (control : ControlId) (reaction : Reaction)
    (other : ControlId) :
    (e.react control reaction).form.state? other =
      if other = control then (e.form.state? other).map (e.form.judged control reaction)
      else e.form.state? other := by
  cases reaction with
  | validity => exact Form.state?_refreshValidity e.form control other
  | editability => exact Form.state?_refreshEditability e.form control other

theorem dependencies_react (e : Engine) (control : ControlId) (reaction : Reaction) :
    (e.react control reaction).scheduler.dependencies = e.scheduler.dependencies := by
  cases reaction <;> rfl

theorem editability?_react (e : Engine) (control : ControlId) (reaction : Reaction)
    (other : ControlId) :
    (e.react control reaction).scheduler.editability? other = e.scheduler.editability? other := by
  cases reaction with
  | validity => exact Scheduler.editability?_request _ control other
  | editability => rfl

theorem sameOutline_react (e : Engine) (control : ControlId) (reaction : Reaction) :
    Scheduler.SameOutline (e.react control reaction).scheduler e.scheduler := by
  cases reaction with
  | validity =>
      refine (Scheduler.sameOutline_request _ control).trans ?_
      refine (Scheduler.sameOutline_modifyEntry _ _ _).trans ?_
      exact Scheduler.sameOutline_modifyEntry _ _ _
  | editability => exact Scheduler.sameOutline_modifyEntry _ _ _

/-- A reaction that runs validity tests requests an inquiry. -/
theorem inquiry?_react (e : Engine) (control : ControlId) (reaction : Reaction)
    (other : ControlId) :
    (e.react control reaction).scheduler.inquiry? other =
      if other = control ∧ reaction = .validity then
        (e.scheduler.inquiry? other).map fun p => { p with requests := p.requests + 1 }
      else e.scheduler.inquiry? other := by
  cases reaction with
  | validity =>
      simp only [and_true]
      exact Scheduler.inquiry?_request _ control other
  | editability =>
      rw [if_neg (by simp)]
      rfl

theorem entry_react (e : Engine) (control : ControlId) (reaction : Reaction)
    (other : ControlId) :
    (e.react control reaction).scheduler.table.entry other =
      if other = control then (e.scheduler.table.entry other).noted reaction
      else e.scheduler.table.entry other := by
  cases reaction with
  | validity =>
      have hentry : (e.react control .validity).scheduler.table.entry other =
          ((e.scheduler.table.modify control fun entry => { entry with force := true }).modify
            control fun entry => entry.count fun s =>
              { s with dependencyValidityRuns := s.dependencyValidityRuns + 1 }).entry other := rfl
      rw [hentry, ScheduleTable.entry_modify, ScheduleTable.entry_modify]
      split <;> rfl
  | editability =>
      have hentry : (e.react control .editability).scheduler.table.entry other =
          (e.scheduler.table.modify control fun entry => entry.count fun s =>
            { s with editabilityRuns := s.editabilityRuns + 1 }).entry other := rfl
      rw [hentry, ScheduleTable.entry_modify]
      rfl

theorem reactIf_none (e : Engine) (p : ChangePipeline) :
    e.reactIf p (none : Option Json).isSome = e := rfl

theorem reactIf_some (e : Engine) (p : ChangePipeline) (v : Json) :
    e.reactIf p (some v).isSome = e.react p.control p.reaction := rfl

theorem sameDocument_reactIf (e : Engine) (p : ChangePipeline) (y : Option Json) :
    Form.SameDocument (e.reactIf p y.isSome).form e.form := by
  cases y with
  | none => exact .refl e.form
  | some v => exact sameDocument_react e p.control p.reaction

theorem clock_reactIf (e : Engine) (p : ChangePipeline) (y : Option Json) :
    (e.reactIf p y.isSome).clock = e.clock := by
  cases y with
  | none => rfl
  | some v =>
      rw [reactIf_some]
      cases p.reaction <;> rfl

theorem dependencies_reactIf (e : Engine) (p : ChangePipeline) (y : Option Json) :
    (e.reactIf p y.isSome).scheduler.dependencies = e.scheduler.dependencies := by
  cases y with
  | none => rfl
  | some v => exact dependencies_react e p.control p.reaction

theorem editability?_reactIf (e : Engine) (p : ChangePipeline) (y : Option Json)
    (other : ControlId) :
    (e.reactIf p y.isSome).scheduler.editability? other = e.scheduler.editability? other := by
  cases y with
  | none => rfl
  | some v => exact editability?_react e p.control p.reaction other

theorem watches_reactIf (e : Engine) (p : ChangePipeline) (y : Option Json) (q : ChangePipeline) :
    (e.reactIf p y.isSome).scheduler.Watches q ↔ e.scheduler.Watches q := by
  simp only [Scheduler.Watches, dependencies_reactIf, editability?_reactIf]

theorem sameOutline_reactIf (e : Engine) (p : ChangePipeline) (y : Option Json) :
    Scheduler.SameOutline (e.reactIf p y.isSome).scheduler e.scheduler := by
  cases y with
  | none => exact .refl e.scheduler
  | some v => exact sameOutline_react e p.control p.reaction

/-! ## Steps of pipelines that run checks -/

/-- The watcher of a pipeline moves, and everything else of the scheduler stays. -/
structure ChangeStep (e : Engine) (p : ChangePipeline) (yielded : Option Json) (w : Watcher)
    (s : Scheduler) : Prop where
  place : p ∈ e.scheduler.dependencies ∨ ∃ id, e.scheduler.editability? id = some p ∧
    s.editability? id = some { p with watcher := w }
  move : ∃ stream, e.form.changes? p.watched = some stream ∧
    p.watcher.Move e.clock stream yielded w
  dependencies : ∀ q ∈ s.dependencies,
    (q = { p with watcher := w } ∧ p ∈ e.scheduler.dependencies) ∨ q ∈ e.scheduler.dependencies
  editability : ∀ id q, s.editability? id = some q →
    (q = { p with watcher := w } ∧ e.scheduler.editability? id = some p) ∨
      e.scheduler.editability? id = some q
  outline : Scheduler.SameOutline s e.scheduler
  table : s.table = e.scheduler.table
  inquiry : ∀ id, s.inquiry? id = e.scheduler.inquiry? id

theorem move_of_stepChange? {p q : ChangePipeline} {yielded : Bool}
    (h : e.stepChange? p = some (q, yielded)) :
    ∃ stream y w, e.form.changes? p.watched = some stream ∧
      p.watcher.Move e.clock stream y w ∧ q = { p with watcher := w } ∧ yielded = y.isSome := by
  unfold stepChange? at h
  obtain ⟨stream, hstream, h⟩ := Option.bind_eq_some_iff.1 h
  obtain ⟨⟨y, w⟩, hstep, heq⟩ := Option.map_eq_some_iff.1 h
  cases heq
  exact ⟨stream, y, w, hstream, Watcher.move_of_step? hstep, rfl, rfl⟩

theorem outline_eq_of_move {p : ChangePipeline} {stream : Stream Json} {now : Nat}
    {y : Option Json} {w : Watcher} (h : p.watcher.Move now stream y w) :
    { p with watcher := w }.outline = p.outline := by
  simp only [ChangePipeline.outline, h.settings]

theorem exists_changeStep_of_stepDependency? {i : Nat} (h : e.stepDependency? i = some e') :
    ∃ p y w s, e.ChangeStep p y w s ∧
      e' = { e with scheduler := s }.reactIf { p with watcher := w } y.isSome ∧
      e.scheduler.dependencies[i]? = some p ∧
      s = { e.scheduler with
        dependencies := e.scheduler.dependencies.set i { p with watcher := w } } := by
  unfold stepDependency? at h
  obtain ⟨p, hp, h⟩ := Option.bind_eq_some_iff.1 h
  obtain ⟨⟨q, yielded⟩, hstep, rfl⟩ := Option.map_eq_some_iff.1 h
  obtain ⟨stream, y, w, hstream, hmove, rfl, rfl⟩ := move_of_stepChange? hstep
  have hmem := List.mem_of_getElem? hp
  refine ⟨p, y, w, _, ?_, rfl, hp, rfl⟩
  exact
    { place := .inl hmem
      move := ⟨stream, hstream, hmove⟩
      dependencies := fun q hq => (List.mem_or_eq_of_mem_set hq).symm.imp_left fun hq => ⟨hq, hmem⟩
      editability := fun id q hq => .inr hq
      outline := Scheduler.sameOutline_setDependency hp (outline_eq_of_move hmove)
      table := rfl
      inquiry := fun _ => rfl }

theorem changeStep_of_stepDependency? {i : Nat} (h : e.stepDependency? i = some e') :
    ∃ p y w s, e.ChangeStep p y w s ∧
      e' = { e with scheduler := s }.reactIf { p with watcher := w } y.isSome := by
  obtain ⟨p, y, w, s, hchange, he', -⟩ := exists_changeStep_of_stepDependency? h
  exact ⟨p, y, w, s, hchange, he'⟩

theorem exists_changeStep_of_stepEditability? (h : e.stepEditability? control = some e') :
    ∃ p y w s, e.ChangeStep p y w s ∧
      e' = { e with scheduler := s }.reactIf { p with watcher := w } y.isSome ∧
      e.scheduler.editability? control = some p ∧
      s = e.scheduler.modifyOwn control fun o =>
        { o with editability := some { p with watcher := w } } := by
  unfold stepEditability? at h
  obtain ⟨p, hp, h⟩ := Option.bind_eq_some_iff.1 h
  obtain ⟨⟨q, yielded⟩, hstep, rfl⟩ := Option.map_eq_some_iff.1 h
  obtain ⟨stream, y, w, hstream, hmove, rfl, rfl⟩ := move_of_stepChange? hstep
  refine ⟨p, y, w, _, ?_, rfl, hp, rfl⟩
  exact
    { place := .inr ⟨control, hp,
        (Scheduler.editability?_setEditability hp control).trans (if_pos rfl)⟩
      move := ⟨stream, hstream, hmove⟩
      dependencies := fun q hq => .inr hq
      editability := fun id q hq => by
        rw [Scheduler.editability?_setEditability hp] at hq
        split at hq
        · rename_i heq
          subst heq
          exact .inl ⟨(Option.some.inj hq).symm, hp⟩
        · exact .inr hq
      outline := Scheduler.sameOutline_setEditability hp (outline_eq_of_move hmove)
      table := rfl
      inquiry := fun id => Scheduler.inquiry?_setEditability _ control id _ }

theorem changeStep_of_stepEditability? (h : e.stepEditability? control = some e') :
    ∃ p y w s, e.ChangeStep p y w s ∧
      e' = { e with scheduler := s }.reactIf { p with watcher := w } y.isSome := by
  obtain ⟨p, y, w, s, hchange, he', -⟩ := exists_changeStep_of_stepEditability? h
  exact ⟨p, y, w, s, hchange, he'⟩

theorem ChangeStep.watches {p : ChangePipeline} {y : Option Json} {w : Watcher} {s : Scheduler}
    (h : e.ChangeStep p y w s) : e.scheduler.Watches p :=
  h.place.imp_right fun ⟨id, hp, _⟩ => ⟨id, hp⟩

/-- The moved pipeline is the only new one. -/
theorem ChangeStep.watches_cases {p q : ChangePipeline} {y : Option Json} {w : Watcher}
    {s : Scheduler} (h : e.ChangeStep p y w s) (hq : s.Watches q) :
    q = { p with watcher := w } ∨ e.scheduler.Watches q := by
  rcases hq with hq | ⟨id, hq⟩
  · exact (h.dependencies q hq).imp And.left .inl
  · exact (h.editability id q hq).imp And.left fun hq => .inr ⟨id, hq⟩

end Engine

end ReactiveForm
