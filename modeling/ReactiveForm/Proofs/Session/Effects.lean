import ReactiveForm.Proofs.Recompute.Requests
import ReactiveForm.Proofs.Session.Edits

/-!
# What single operations do to a scheduler

An operation that takes no time, or moves the clock alone, and leaves the scheduler attached has one
of a few effects on the form and the scheduler (`Effect`). What such operations keep is shown by
going through these effects. Where an operation lets time pass, it is broken up before.

Only a turn of its own pipeline goes on with the inquiries of a control. All other operations spare
them (`Effect.spares`), and they write what inquiries show only where a caller does so by hand
(`Effect.carries`).
-/

namespace ReactiveForm.Session

variable {s : Session} {e e' : Engine} {op : Op} {control : Nat} {race : Race}

/-- Whether an operation makes pipelines work: it forces an inquiry, or it lets time pass or a
pipeline make a step. -/
def Op.drives : Op → Bool
  | .force _ | .advance _ | .turn _ _ | .wait _ => true
  | _ => false

/-- What an operation makes of a form with a scheduler if it leaves the scheduler attached and lets
no pipelines run on. -/
inductive Effect (e : Engine) : Op → Engine → Prop where
  /-- The structure stays, and so do the states that only callers write. -/
  | moment {op : Op} {e' : Engine} (h : Moment e op e') : Effect e op e'
  /-- A caller writes the state of a control. -/
  | write (id : ControlId) (change : ControlState → ControlState) :
      Effect e (.writeState id change) { e with form := e.form.modifyState id change }
  /-- A caller runs the validity tests of a control. -/
  | revalidate (id : ControlId) :
      Effect e (.revalidate id) { e with form := (e.form.refreshValidity id).2 }
  /-- A caller runs the tests of editability and visibility of a control. -/
  | reassess (id : ControlId) :
      Effect e (.reassess id) { e with form := (e.form.refreshEditability id).2 }
  /-- A caller asks for new pipelines. -/
  | rebuild : Effect e .rebuild { e with scheduler := e.scheduler.rebuild e.form }
  /-- An array gains or loses an item. -/
  | perform {op : Op} {x : ControlId} {edit : Form.Edit} (hedits : op.editsStructure = true)
      (hedit : e.form.Prepared x edit) :
      Effect e op { e with form := edit.publish, scheduler := e.scheduler.rebuild edit.form }

theorem Op.rests_of_editsStructure (hedits : op.editsStructure = true) : op.Rests e := by
  cases op <;> first | exact trivial | cases hedits

theorem effect_of_apply (hop : op.keepsScheduler = true) (hmoment : ∀ ms, op ≠ .advance ms)
    (he : s.engine? = some e) : ∃ e', (s.apply op).engine? = some e' ∧ Effect e op e' := by
  have hform := form_of_engine? he
  by_cases hedits : op.editsStructure = true
  · obtain ⟨x, hx⟩ := exists_target?_of_editsStructure hedits
    rcases perform_of_editsStructure (s := s) hedits hx with ⟨-, heq⟩ | ⟨-, edit, hedit, heq⟩
    · exact ⟨e, heq.symm ▸ he, .moment (.none (Op.rests_of_editsStructure hedits))⟩
    · exact ⟨_, heq ▸ engine?_perform he edit, .perform hedits (hform ▸ hedit)⟩
  · by_cases hquiet : op.isQuiet = true
    · obtain ⟨e', he', h⟩ := moment_of_apply hquiet hmoment he
      exact ⟨e', he', .moment h⟩
    · cases op with
      | writeState id change => exact ⟨_, engine?_withForm he _, hform ▸ .write id change⟩
      | revalidate id => exact ⟨_, engine?_withForm he _, hform ▸ .revalidate id⟩
      | reassess id => exact ⟨_, engine?_withForm he _, hform ▸ .reassess id⟩
      | observe => exact ⟨e, he, .moment (.none trivial)⟩
      | unobserve => exact ⟨e, he, .moment (.none trivial)⟩
      | rebuild => exact ⟨_, engine?_rebuild he, .rebuild⟩
      | attach => cases hop
      | detach => cases hop
      | _ => first | exact absurd rfl hedits | exact absurd rfl hquiet

theorem Effect.follows (h : Effect e op e') (hsound : e.Sound) : Form.Follows e.form e'.form := by
  have hdoc : ∀ {f : Form}, Form.SameDocument f e.form → Form.Follows e.form f := fun hdoc =>
    hdoc.sameTree.follows
  cases h with
  | moment h => exact (h.events.sameTree hsound).follows
  | write id change => exact hdoc (Form.sameDocument_modifyState e.form id change)
  | revalidate id => exact hdoc (Form.sameDocument_refreshValidity e.form id)
  | reassess id => exact hdoc (Form.sameDocument_refreshEditability e.form id)
  | rebuild => exact hdoc (.refl e.form)
  | @perform op x edit hedits hedit =>
      exact hedit.reshapes.follows.trans (Form.sameTree_edit_publish edit).follows

/-- A turn of a pipeline is a step of it, or nothing if it has to wait. -/
theorem turn_cases (he : s.engine? = some e) (r : PipelineRef) :
    s.apply (.turn r race) = s ∨
      ∃ e', e.step? r race = some e' ∧ (s.apply (.turn r race)).engine? = some e' := by
  simp only [apply, he, Option.bind_some]
  cases hstep : e.step? r race with
  | none => exact .inl rfl
  | some e' => exact .inr ⟨e', rfl, engine?_withEngine s e'⟩

/-! ## Inquiries that are spared -/

theorem Moment.spares (h : Moment e op e') (hsound : e.Sound)
    (hother : op.AvoidsInquiry control) : Engine.Spares control e e' := by
  cases h with
  | none => exact .of_scheduler rfl
  | set => exact .of_scheduler rfl
  | external => exact .of_scheduler rfl
  | force id => exact .force_of e control id
  | @step r race _ hstep =>
      have hr : r ≠ .inquiry control := fun heq => hother race (heq ▸ rfl)
      exact .step hsound hr hstep
  | tick _ now => exact .tick e control now

/-- An operation that takes no turn of a control's inquiry pipeline spares its inquiries, as long as
the control is there. -/
theorem Effect.spares (h : Effect e op e') (hsound : e.Sound)
    (hother : op.AvoidsInquiry control) (hid : e'.form.contains control = true) :
    Engine.Spares control e e' := by
  cases h with
  | moment h => exact h.spares hsound hother
  | write => exact .of_scheduler rfl
  | revalidate => exact .of_scheduler rfl
  | reassess => exact .of_scheduler rfl
  | rebuild => exact .rebuild e hid
  | @perform op x edit => exact .rebuild e ((Form.sameTree_edit_publish edit).contains _ ▸ hid)

theorem spares_of_apply (hop : op.keepsScheduler = true) (hmoment : ∀ ms, op ≠ .advance ms)
    (hother : op.AvoidsInquiry control) (h : s.Sound) (he : s.engine? = some e)
    (hid : (s.apply op).form.contains control = true) :
    ∃ e', (s.apply op).engine? = some e' ∧ Engine.Spares control e e' := by
  obtain ⟨e', he', heffect⟩ := effect_of_apply hop hmoment he
  exact ⟨e', he', heffect.spares (h.serves he).sound hother (form_of_engine? he' ▸ hid)⟩

/-- Where nothing is recorded about the inquiries of a control, only a turn of its pipeline records
something. -/
theorem Effect.record_initial (h : Effect e op e') (hsound : e.Sound)
    (hother : op.AvoidsInquiry control) (hrecord : (e.entry control).record = .initial) :
    (e'.entry control).record = .initial := by
  by_cases hid : e'.form.contains control = true
  · exact (h.spares hsound hother hid).record.trans hrecord
  · cases h with
    | moment h => exact (h.spares hsound hother).record.trans hrecord
    | write => exact hrecord
    | revalidate => exact hrecord
    | reassess => exact hrecord
    | rebuild =>
        exact congrArg ScheduleEntry.record (Scheduler.entry_rebuild_of_not_contains _ hid)
    | @perform op x edit =>
        rw [(Form.sameTree_edit_publish edit).contains] at hid
        exact congrArg ScheduleEntry.record (Scheduler.entry_rebuild_of_not_contains _ hid)

/-! ## What inquiries show -/

/-- Something about the state of a control that only inquiries write. -/
def AboutInquiries {α : Type} (shown : ControlState → α) : Prop :=
  ∀ s s' : ControlState, s'.pending = s.pending → s'.asyncErrors = s.asyncErrors →
    shown s' = shown s

/-- A control shows the same as before, or what a control shows at first if it is new. -/
def Carries {α : Type} (shown : ControlState → α) (f g : Form) (id : Nat) : Prop :=
  ∀ s', g.state? id = some s' →
    (∃ s, f.state? id = some s ∧ shown s' = shown s) ∨
      f.state? id = none ∧ shown s' = shown .initial

section Shows

variable {α : Type} {shown : ControlState → α} (hshown : AboutInquiries shown)

theorem Carries.refl (f : Form) (id : Nat) : Carries shown f f id :=
  fun s hs => .inl ⟨s, hs, rfl⟩

theorem Carries.trans {f g h : Form} {id : Nat} (hfg : Carries shown f g id)
    (hgh : Carries shown g h id) (hf : Form.Follows f g) (hg : Form.Follows g h) :
    Carries shown f h id := by
  intro s hs
  rcases hgh s hs with ⟨s₁, hs₁, hsame⟩ | ⟨hnone, hinitial⟩
  · refine (hfg s₁ hs₁).imp (fun ⟨s₀, hs₀, hsame₀⟩ => ⟨s₀, hs₀, hsame.trans hsame₀⟩) fun hnew => ?_
    exact ⟨hnew.1, hsame.trans hnew.2⟩
  · -- a control that came in between the second and the third form was not there before
    refine .inr ⟨?_, hinitial⟩
    have hunborn : g.changes? id = none := by
      refine (hg.contains (by rw [← Form.isSome_state?, hs]; rfl)).resolve_left fun hid => ?_
      rw [← Form.isSome_state?, hnone] at hid
      cases hid
    cases hs₀ : f.state? id with
    | none => rfl
    | some s₀ =>
        obtain ⟨stream, hstream⟩ := Scheduler.exists_changes?_of_contains
          (by rw [← Form.isSome_state?, hs₀]; rfl : f.contains id = true)
        rw [hf.unborn hunborn] at hstream
        cases hstream

include hshown

theorem Carries.of_keepsShowing (h : Engine.KeepsShowing e e' control) :
    Carries shown e.form e'.form control := by
  intro s' hs'
  obtain ⟨s, hs, hpending, herrors⟩ := h s' hs'
  exact .inl ⟨s, hs, hshown s s' hpending herrors⟩

theorem Carries.of_retests {f g : Form} {lineage : List ControlId}
    (h : Form.Retests f g lineage) : Carries shown f g control := by
  have hvalidated : ∀ s, shown (g.validated control s) = shown s := fun s =>
    hshown s _ (g.inquired_validated control s).1 (g.inquired_validated control s).2
  have hedited : ∀ s, shown (g.edited control s) = shown s := fun s =>
    hshown s _ (g.inquired_edited control s).1 (g.inquired_edited control s).2
  intro s' hs'
  rcases h control s' hs' with ⟨s, hs, rfl⟩ | ⟨hnew, rfl⟩
  · refine .inl ⟨s, hs, ?_⟩
    split
    · exact hvalidated s
    · rfl
  · exact .inr ⟨hnew, (hedited _).trans (hvalidated _)⟩

theorem Moment.carries (h : Moment e op e') (hsound : e.Sound)
    (hother : op.AvoidsInquiry control) : Carries shown e.form e'.form control := by
  cases h with
  | none => exact .refl e.form control
  | set hset => exact .of_keepsShowing hshown (Engine.keepsShowing_set hset)
  | external _ id change => exact .of_keepsShowing hshown (Engine.keepsShowing_external e id change)
  | force id => exact .of_keepsShowing hshown (Engine.keepsShowing_force e id)
  | @step r race _ hstep =>
      have hr : r ≠ .inquiry control := fun heq => hother race (heq ▸ rfl)
      exact .of_keepsShowing hshown (Engine.keepsShowing_step hsound hr hstep)
  | tick => exact .refl e.form control

/-- An operation that takes no turn of a control's inquiry pipeline leaves what inquiries show,
unless a caller writes that. -/
theorem Effect.carries (h : Effect e op e') (hsound : e.Sound) (hparents : e.form.ParentsBefore)
    (hother : op.AvoidsInquiry control)
    (hwrite : ∀ id change, op = .writeState id change → ∀ s, shown (change s) = shown s) :
    Carries shown e.form e'.form control := by
  have hstate : ∀ (change : ControlState → ControlState) {g : Form},
      (∀ s, shown (change s) = shown s) →
      (g.state? control = (e.form.state? control).map change ∨
        g.state? control = e.form.state? control) → Carries shown e.form g control := by
    intro change g hchange hg s' hs'
    rcases hg with hg | hg
    · obtain ⟨s, hs, rfl⟩ := Option.map_eq_some_iff.1 (hg.symm.trans hs')
      exact .inl ⟨s, hs, hchange s⟩
    · exact .inl ⟨s', hg.symm.trans hs', rfl⟩
  cases h with
  | moment h => exact h.carries hshown hsound hother
  | write id change =>
      refine hstate change (hwrite id change rfl) ?_
      dsimp only
      rw [Form.state?_modifyState]
      split
      · exact .inl rfl
      · exact .inr rfl
  | revalidate id =>
      refine hstate (e.form.validated control) (fun s => hshown s _
        (e.form.inquired_validated control s).1 (e.form.inquired_validated control s).2) ?_
      dsimp only
      rw [Form.state?_refreshValidity]
      split
      · rename_i heq
        subst heq
        exact .inl rfl
      · exact .inr rfl
  | reassess id =>
      refine hstate (e.form.edited control) (fun s => hshown s _
        (e.form.inquired_edited control s).1 (e.form.inquired_edited control s).2) ?_
      dsimp only
      rw [Form.state?_refreshEditability]
      split
      · rename_i heq
        subst heq
        exact .inl rfl
      · exact .inr rfl
  | rebuild => exact .refl e.form control
  | @perform op x edit hedits hedit =>
      have hretests := (hedit.retests hparents).publish edit.lineage
      exact .of_retests hshown (hretests.announce edit.change)

end Shows

end ReactiveForm.Session
