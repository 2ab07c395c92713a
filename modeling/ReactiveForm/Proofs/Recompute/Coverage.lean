import ReactiveForm.Proofs.Recompute.Passes

/-!
# Dependencies that have not changed since

What a control has recorded is about an earlier form. It is still about the present one if the
dependencies of the control have kept their values since. A pipeline that asks for every value
covers its dependency: whenever the dependency has another value by now, the pipeline is behind and
will react (`Covers`). No event can take this away, except that the pipeline reacts.

Sometimes there is an excuse for the whole control, such as a forced inquiry that is still to come.
-/

namespace ReactiveForm.Engine

variable {e e' : Engine} {control : ControlId} {reaction : Reaction} {past : Form} {race : Race}
  {excuse : Prop}

/-- The dependencies by whose changes a reaction of the control is triggered have the values of an
earlier form, as far as their pipelines are not behind and there is no excuse. -/
def Covers (e : Engine) (control : ControlId) (reaction : Reaction) (past : Form)
    (excuse : Prop) : Prop :=
  ∀ q ∈ e.scheduler.dependencies, q.control = control → q.reaction = reaction →
    q.Behind e.form ∨ excuse ∨ past.value q.watched = e.form.value q.watched

/-- The pipelines of a control for its dependencies ask for every value. -/
def AsksForAll (e : Engine) (control : ControlId) (reaction : Reaction) : Prop :=
  ∀ q ∈ e.scheduler.dependencies, q.control = control → q.reaction = reaction →
    q.watcher.settings.distinct = false

theorem asksForAll (fit : Scheduler.DependenciesFit e.form e.scheduler)
    (hpolicy : (Scheduler.dependencySettings e.form control reaction).distinct = false) :
    e.AsksForAll control reaction := by
  rintro q hq rfl rfl
  rw [fit.settings q hq]
  exact hpolicy

/-- A pipeline that asks for every value is behind after a step that yields nothing. -/
theorem ChangeStep.behind {p : ChangePipeline} {w : Watcher} {s : Scheduler}
    (hstep : e.ChangeStep p none w s) (h : e.Sound)
    (hall : p.watcher.settings.distinct = false) : { p with watcher := w }.Behind e.form := by
  obtain ⟨stream, hstream, -, hopen, -, hmove⟩ := hstep.exists_move h
  exact ⟨stream, hstream, hmove.behind hopen hall⟩

namespace Covers

/-- A form covers itself. -/
theorem self (e : Engine) (control : ControlId) (reaction : Reaction) (excuse : Prop) :
    Covers e control reaction e.form excuse := fun _ _ _ _ => .inr (.inr rfl)

theorem excused (h : excuse) : Covers e control reaction past excuse :=
  fun _ _ _ _ => .inr (.inl h)

theorem imp {excuse' : Prop} (h : Covers e control reaction past excuse)
    (himp : excuse → excuse') : Covers e control reaction past excuse' :=
  fun q hq hcontrol hreaction => (h q hq hcontrol hreaction).imp_right (·.imp_left himp)

/-- What changes neither the document nor the pipelines for dependencies changes nothing. -/
theorem document (h : Covers e control reaction past excuse)
    (hdoc : Form.SameDocument e'.form e.form)
    (hdeps : e'.scheduler.dependencies = e.scheduler.dependencies) :
    Covers e' control reaction past excuse := by
  intro q hq hcontrol hreaction
  rw [hdoc.value]
  exact (h q (hdeps ▸ hq) hcontrol hreaction).imp_left fun h => h.congr (hdoc.changes _)

/-- A new value of a dependency leaves the pipeline behind. -/
theorem set (h : Covers e control reaction past excuse) (fit : e.Fit) {id : ControlId} {v : Json}
    {f : Form} (hset : e.form.setValue id v = .ok f) :
    Covers { e with form := f } control reaction past excuse := by
  intro q hq hcontrol hreaction
  -- a value is sent to the whole lineage, and no other control has changed its value
  by_cases hmem : q.watched ∈ e.form.lineage id
  · exact .inl ((fit.sound.dependency q hq).behind_of_sendTimes (List.count_pos_iff.2 hmem)
      (Form.changes?_of_setValue hset q.watched))
  · dsimp only
    rw [Form.value_of_setValue hset fit.tree hmem]
    exact (h q hq hcontrol hreaction).imp_left fun h =>
      h.congr (Form.changes?_of_notMem_lineage hset hmem)

/-- A pipeline that asks for every value is behind until it reacts. -/
theorem changeStep (h : Covers e control reaction past excuse) (fit : e.Fit)
    (hall : e.AsksForAll control reaction) {p : ChangePipeline} {y : Option Json} {w : Watcher}
    {s : Scheduler} (hstep : e.ChangeStep p y w s)
    (hquiet : p.control = control → p.reaction = reaction → y = none) :
    Covers ({ e with scheduler := s }.reactIf { p with watcher := w } y.isSome) control reaction
      past excuse := by
  have hdoc := sameDocument_reactIf { e with scheduler := s } { p with watcher := w } y
  intro q hq hcontrol hreaction
  rw [dependencies_reactIf] at hq
  rw [hdoc.value]
  rcases hstep.dependencies q hq with ⟨rfl, hp⟩ | hq
  · cases hquiet hcontrol hreaction
    exact .inl (hstep.behind fit.sound (hall p hp hcontrol hreaction))
  · exact (h q hq hcontrol hreaction).imp_left fun h => h.congr (hdoc.changes _)

/-- A step by which the control makes no pass. -/
theorem step (h : Covers e control reaction past excuse) (fit : e.Fit)
    (hall : e.AsksForAll control reaction) {r : PipelineRef} (hstep : e.step? r race = some e')
    (hquiet : e'.passes control reaction = e.passes control reaction) :
    Covers e' control reaction past excuse := by
  cases r with
  | dependency i =>
      obtain ⟨p, y, w, s, hchange, rfl⟩ := changeStep_of_stepDependency? hstep
      exact h.changeStep fit hall hchange (hchange.eq_none_of_passes hquiet)
  | editability id =>
      obtain ⟨p, y, w, s, hchange, rfl⟩ := changeStep_of_stepEditability? hstep
      exact h.changeStep fit hall hchange (hchange.eq_none_of_passes hquiet)
  | inquiry id =>
      obtain ⟨p, stream, hp, -, hinquiry⟩ := inquiryStep_of_stepInquiry? hstep
      obtain ⟨rfl, -⟩ := fit.sound.inquiry hp
      have frame := hinquiry.frame hp
      exact h.document frame.document frame.dependencies

/-- In a settled state nothing is behind, so without an excuse the dependencies have the values of
the earlier form. -/
theorem of_isSettled (h : e.Covers control reaction past False) (fit : e.Fit)
    (hsettled : e.isSettled = true) {d : ControlId}
    (hdep : Scheduler.DependsOn e.form control d reaction) :
    past.value d = e.form.value d := by
  obtain ⟨q, hq, hcontrol, rfl, hreaction⟩ :=
    fit.dependencies.complete hdep (fit.contains_of_dependsOn hdep)
  rcases h q hq hcontrol hreaction with hbehind | hfalse | hagree
  · exact absurd hbehind (not_behind_of_isSettled hsettled fit.sound (.inl hq))
  · exact hfalse.elim
  · exact hagree

end Covers

end ReactiveForm.Engine
