import ReactiveForm.Proofs.Session.Runs

/-!
# Sessions whose structure changes

When the structure of a form changes, the scheduler makes its pipelines for dependencies anew, and
then the values of the array and its ancestors are published. A caller can also ask for new
pipelines. These are the resubscriptions (`Engine.Resubscribed`). Whatever else is done keeps the
tree of the form and all pipelines (`Engine.Kept`).

Both ways the streams of the form stay in order, the pipelines fit them, and there is a pipeline for
each dependency: the engine serves its form (`Engine.Serves`). So every scheduler of a session
serves the form, whatever was done before (`sound_run`).
-/

namespace ReactiveForm

namespace Engine

variable {e e' : Engine}

/-- The streams of the form are in order, the pipelines fit them, and there is one for each
dependency. -/
structure Serves (e : Engine) : Prop where
  streams : e.form.SoundStreams
  sound : e.Sound
  dependencies : Scheduler.DependenciesFit e.form e.scheduler

/-- What an operation makes of a form with a scheduler if it keeps the tree and the pipelines. -/
inductive Kept (e : Engine) : Engine → Prop where
  /-- Pipelines make steps, time passes, and callers do what leads to events. -/
  | events {e' : Engine} (h : Events e e') : Kept e e'
  /-- The states of controls are written. -/
  | document {f : Form} (hdoc : Form.SameDocument f e.form) : Kept e { e with form := f }

/-- What an operation makes of a form with a scheduler if the pipelines for dependencies are made
anew. -/
inductive Resubscribed (e : Engine) : Engine → Prop where
  /-- A caller asks for it. -/
  | rebuild : Resubscribed e { e with scheduler := e.scheduler.rebuild e.form }
  /-- The structure has changed. New values are published behind that. -/
  | perform {edit : Form.Edit} (h : Form.Reshapes e.form edit.form) :
      Resubscribed e { e with form := edit.publish, scheduler := e.scheduler.rebuild edit.form }

namespace Serves

theorem attach {f : Form} (streams : f.SoundStreams) (clock : Nat) (asked : List Rule) :
    Serves ⟨f, .attach f, clock, asked⟩ :=
  ⟨streams, .attach streams clock asked, Scheduler.dependenciesFit_attach f⟩

theorem document (h : e.Serves) {f : Form} (hdoc : Form.SameDocument f e.form) :
    { e with form := f }.Serves :=
  ⟨h.streams.document hdoc, h.sound.document hdoc, h.dependencies.congr hdoc.sameTree.symm rfl⟩

theorem event (h : e.Serves) (hevent : Event e e') : e'.Serves where
  streams := by
    cases hevent with
    | step hstep => exact h.streams.document (sameDocument_step h.sound hstep)
    | tick now => exact h.streams
    | set hset => exact h.streams.setValue hset
    | external id change =>
        dsimp only
        exact h.streams.document (Form.sameDocument_modifyState e.form id _)
    | force id => exact h.streams.document (sameDocument_force e id)
  sound := hevent.sound h.sound
  dependencies := h.dependencies.congr (hevent.sameTree h.sound).symm
    (hevent.sameOutline h.sound).symm.dependencies

theorem events (h : e.Serves) (hrun : Events e e') : e'.Serves := by
  induction hrun with
  | refl => exact h
  | tail _ hevent ih => exact ih.event hevent

theorem kept (h : e.Serves) (hkept : e.Kept e') : e'.Serves := by
  cases hkept with
  | events hrun => exact h.events hrun
  | document hdoc => exact h.document hdoc

/-- Pipelines that are made anew serve the reshaped form. -/
theorem rebuild (h : e.Serves) {g : Form} (hreshapes : Form.Reshapes e.form g) :
    { e with form := g, scheduler := e.scheduler.rebuild g }.Serves where
  streams := hreshapes.soundStreams h.streams
  sound := h.sound.rebuild (hreshapes.soundStreams h.streams) hreshapes.changes?
  dependencies := Scheduler.dependenciesFit_rebuild e.scheduler g

theorem resubscribed (h : e.Serves) (hre : e.Resubscribed e') : e'.Serves := by
  cases hre with
  | rebuild =>
      exact ⟨h.streams, h.sound.rebuild h.streams fun _ hs => hs,
        Scheduler.dependenciesFit_rebuild e.scheduler e.form⟩
  | @perform edit hreshapes =>
      -- the pipelines are made before the new values are published
      have hrebuilt := h.rebuild hreshapes
      exact ⟨hrebuilt.streams.edit_publish,
        hrebuilt.sound.sendTimes (Form.changes?_edit_publish edit),
        hrebuilt.dependencies.congr (Form.sameTree_edit_publish edit).symm rfl⟩

end Serves

theorem sameOutline_of_kept (hserves : e.Serves) (hkept : e.Kept e') :
    Scheduler.SameOutline e'.scheduler e.scheduler := by
  cases hkept with
  | events hrun => exact hrun.sameOutline hserves.sound
  | document hdoc => exact .refl _

theorem sameTree_of_kept (hserves : e.Serves) (hkept : e.Kept e') :
    Form.SameTree e'.form e.form := by
  cases hkept with
  | events hrun => exact hrun.sameTree hserves.sound
  | document hdoc => exact hdoc.sameTree

end Engine

namespace Session

variable {s : Session} {e : Engine} {op : Op} {x : ControlId}

/-! ## Operations -/

/-- Whether an operation leaves the scheduler attached that is there. -/
def Op.keepsScheduler : Op → Bool
  | .attach | .detach => false
  | _ => true

/-- Whether an operation makes the pipelines for dependencies anew. A structure edit does so unless
it fails. -/
def Op.resubscribes (s : Session) : Op → Bool
  | .insert array index value => (s.insert array index value).isOk
  | .push array value => (s.push array value).isOk
  | .remove array index => (s.remove array index).isOk
  | .rebuild => true
  | _ => false

/-- Whether an operation edits the structure. -/
def Op.editsStructure : Op → Bool
  | .insert .. | .push .. | .remove .. => true
  | _ => false

/-- The field or the array that an operation edits. -/
def Op.target? : Op → Option ControlId
  | .setValue id _ => some id
  | .insert array .. | .push array .. | .remove array _ => some array
  | _ => none

theorem engine?_perform (he : s.engine? = some e) (edit : Form.Edit) :
    (s.perform edit).engine? =
      some { e with form := edit.publish, scheduler := e.scheduler.rebuild edit.form } := by
  obtain ⟨sched, hsched, rfl⟩ := Option.map_eq_some_iff.1 he
  simp [engine?, perform, restructure, notify, withForm, hsched]

theorem engine?_rebuild (he : s.engine? = some e) :
    s.rebuild.engine? = some { e with scheduler := e.scheduler.rebuild e.form } := by
  obtain ⟨sched, hsched, rfl⟩ := Option.map_eq_some_iff.1 he
  simp [engine?, rebuild, hsched]

/-- Where an edit was prepared it is performed, and otherwise nothing happens. -/
theorem edit_cases {α : Type} {result : Except FormError (α × Form.Edit)}
    (hprepared : ∀ a edit, result = .ok (a, edit) → s.form.Prepared x edit) :
    let done := result.map fun (a, edit) => (a, s.perform edit)
    (done.isOk = false ∧ (done.toOption.map Prod.snd).getD s = s) ∨
      (done.isOk = true ∧ ∃ edit, s.form.Prepared x edit ∧
        (done.toOption.map Prod.snd).getD s = s.perform edit) := by
  cases result with
  | error err => exact .inl ⟨rfl, rfl⟩
  | ok next => exact .inr ⟨rfl, next.2, hprepared next.1 next.2 rfl, rfl⟩

/-- A structure edit fails and changes nothing, or it carries out a prepared edit of its array. -/
theorem perform_of_editsStructure (hedits : op.editsStructure = true)
    (htarget : op.target? = some x) :
    (op.resubscribes s = false ∧ s.apply op = s) ∨
      (op.resubscribes s = true ∧
        ∃ edit, s.form.Prepared x edit ∧ s.apply op = s.perform edit) := by
  cases op with
  | insert array index value =>
      cases htarget
      rw [apply_insert, Op.resubscribes, insert_eq]
      exact edit_cases fun _ _ h => Form.prepared_of_prepareInsert h
  | push array value =>
      cases htarget
      rw [apply_push, Op.resubscribes, push_eq]
      exact edit_cases fun _ _ h => Form.prepared_of_preparePush h
  | remove array index =>
      cases htarget
      rw [apply_remove, Op.resubscribes, remove_eq]
      exact edit_cases fun _ _ h => Form.prepared_of_prepareRemove h
  | _ => cases hedits

theorem exists_target?_of_editsStructure (hedits : op.editsStructure = true) :
    ∃ x, op.target? = some x := by
  cases op <;> first | exact ⟨_, rfl⟩ | cases hedits

/-- An edit of the structure fails and changes nothing, or it reshapes the form. -/
theorem apply_cases_of_editsStructure (hedits : op.editsStructure = true) :
    (op.resubscribes s = false ∧ s.apply op = s) ∨
      (op.resubscribes s = true ∧ ∃ edit, Form.Reshapes s.form edit.form ∧
        s.apply op = s.perform edit) := by
  obtain ⟨x, htarget⟩ := exists_target?_of_editsStructure hedits
  refine (perform_of_editsStructure hedits htarget).imp_right fun ⟨hok, edit, hedit, heq⟩ => ?_
  exact ⟨hok, edit, hedit.reshapes, heq⟩

theorem resubscribed_of_apply (hre : op.resubscribes s = true) (he : s.engine? = some e) :
    ∃ e', (s.apply op).engine? = some e' ∧ e.Resubscribed e' := by
  by_cases hedits : op.editsStructure = true
  · obtain ⟨hfailed, -⟩ | ⟨-, edit, hedit, heq⟩ := apply_cases_of_editsStructure (s := s) hedits
    · simp [hfailed] at hre
    · exact ⟨_, heq ▸ engine?_perform he edit, .perform (form_of_engine? he ▸ hedit)⟩
  · cases op with
    | rebuild => exact ⟨_, engine?_rebuild he, .rebuild⟩
    | _ => first | exact absurd rfl hedits | cases hre

/-- An operation that makes no new pipelines keeps the tree and the pipelines. -/
theorem kept_of_apply (hop : op.keepsScheduler = true) (hre : op.resubscribes s = false)
    (he : s.engine? = some e) : ∃ e', (s.apply op).engine? = some e' ∧ e.Kept e' := by
  have hform := form_of_engine? he
  -- an edit that makes no new pipelines has failed
  have hfailed : op.editsStructure = true → (s.apply op).engine? = some e := fun hedits => by
    rcases apply_cases_of_editsStructure (s := s) hedits with ⟨-, heq⟩ | ⟨hok, -⟩
    · rw [heq, he]
    · simp [hok] at hre
  by_cases hquiet : op.isQuiet = true
  · obtain ⟨e', he', hevents⟩ := events_of_apply hquiet he
    exact ⟨e', he', .events hevents⟩
  · cases op with
    | writeState id change =>
        exact ⟨_, engine?_withForm he _,
          hform ▸ .document (Form.sameDocument_modifyState e.form id change)⟩
    | revalidate id =>
        exact ⟨_, engine?_withForm he _,
          hform ▸ .document (Form.sameDocument_refreshValidity e.form id)⟩
    | reassess id =>
        exact ⟨_, engine?_withForm he _,
          hform ▸ .document (Form.sameDocument_refreshEditability e.form id)⟩
    | observe => exact ⟨e, he, .events .refl⟩
    | unobserve => exact ⟨e, he, .events .refl⟩
    | insert array index value => exact ⟨e, hfailed rfl, .events .refl⟩
    | push array value => exact ⟨e, hfailed rfl, .events .refl⟩
    | remove array index => exact ⟨e, hfailed rfl, .events .refl⟩
    | rebuild => cases hre
    | attach => cases hop
    | detach => cases hop
    | _ => exact absurd rfl hquiet

theorem exists_engine?_apply (hop : op.keepsScheduler = true) (he : s.engine? = some e) :
    ∃ e', (s.apply op).engine? = some e' := by
  cases hre : op.resubscribes s with
  | false =>
      obtain ⟨e', he', -⟩ := kept_of_apply hop hre he
      exact ⟨e', he'⟩
  | true =>
      obtain ⟨e', he', -⟩ := resubscribed_of_apply hre he
      exact ⟨e', he'⟩

theorem exists_engine?_run {ops : List Op} (hkeeps : ∀ op ∈ ops, op.keepsScheduler = true)
    (he : s.engine? = some e) : ∃ e', (s.run ops).engine? = some e' := by
  induction ops generalizing s e with
  | nil => exact ⟨e, he⟩
  | cons op ops ih =>
      obtain ⟨e', he'⟩ := exists_engine?_apply (hkeeps op List.mem_cons_self) he
      exact ih (fun o ho => hkeeps o (List.mem_cons_of_mem _ ho)) he'

/-! ## Every scheduler serves its form -/

/-- The streams of the form are in order, and a scheduler that is attached serves the form. -/
structure Sound (s : Session) : Prop where
  streams : s.form.SoundStreams
  serves : ∀ {e}, s.engine? = some e → e.Serves

theorem Sound.of_engine? (he : s.engine? = some e) (h : e.Serves) : s.Sound where
  streams := form_of_engine? he ▸ h.streams
  serves he' := by
    rw [he] at he'
    cases he'
    exact h

theorem Sound.of_none (hnone : s.engine? = none) (streams : s.form.SoundStreams) : s.Sound where
  streams := streams
  serves he := by
    rw [hnone] at he
    cases he

theorem engine?_of_scheduler_none (hnone : s.scheduler = none) : s.engine? = none := by
  rw [engine?, hnone, Option.map_none]

/-- Without a scheduler, an operation that leaves the structure gives a field a new value, or it
leaves the document. -/
theorem apply_cases_of_none (hnone : s.engine? = none) (hedits : op.editsStructure = false) :
    (∃ id v, s.form.setValue id v = .ok (s.apply op).form) ∨
      Form.SameDocument (s.apply op).form s.form := by
  have hsame : Form.SameDocument s.form s.form := .refl s.form
  cases op with
  | setValue id v =>
      simp only [apply_setValue, setValue_eq]
      cases hset : s.form.setValue id v with
      | error err => exact .inr hsame
      | ok f => exact .inl ⟨id, v, hset⟩
  | setExternal id key message =>
      simp only [apply_setExternal, setExternal_eq, Form.setExternal]
      split
      · exact .inr (Form.sameDocument_modifyState s.form id (·.setExternal key message))
      · exact .inr hsame
  | clearExternal id key =>
      simp only [apply_clearExternal, clearExternal_eq, Form.clearExternal]
      split
      · exact .inr (Form.sameDocument_modifyState s.form id (·.clearExternal key))
      · exact .inr hsame
  | writeState id change => exact .inr (Form.sameDocument_modifyState s.form id change)
  | revalidate id => exact .inr (Form.sameDocument_refreshValidity s.form id)
  | reassess id => exact .inr (Form.sameDocument_refreshEditability s.form id)
  | force id =>
      simp only [apply, force, hnone]
      exact .inr hsame
  | advance ms =>
      simp only [apply, advance, hnone]
      exact .inr hsame
  | turn r race =>
      simp only [apply, hnone]
      exact .inr hsame
  | wait ms =>
      simp only [apply, hnone]
      exact .inr hsame
  | insert array index value => cases hedits
  | push array value => cases hedits
  | remove array index => cases hedits
  | _ => exact .inr hsame

/-- Only attaching a scheduler gives a session one. -/
theorem engine?_apply_of_none (hnone : s.engine? = none) (hop : op.keepsScheduler = true) :
    (s.apply op).engine? = none := by
  have hscheduler : s.scheduler = none := Option.map_eq_none_iff.1 hnone
  have hform : ∀ f : Form, (s.withForm f).engine? = none := fun _ =>
    engine?_of_scheduler_none hscheduler
  by_cases hedits : op.editsStructure = true
  · rcases apply_cases_of_editsStructure (s := s) hedits with ⟨-, heq⟩ | ⟨-, edit, -, heq⟩
    · rw [heq, hnone]
    · rw [heq]
      refine engine?_of_scheduler_none ?_
      simp [perform, restructure, notify, withForm, hscheduler]
  · cases op with
    | setValue id v =>
        simp only [apply_setValue, setValue_eq]
        cases s.form.setValue id v with
        | error err => exact hnone
        | ok f => exact hform f
    | setExternal id key message =>
        simp only [apply_setExternal, setExternal_eq]
        cases s.form.setExternal id key message with
        | error err => exact hnone
        | ok f => exact hform f
    | clearExternal id key =>
        simp only [apply_clearExternal, clearExternal_eq]
        cases s.form.clearExternal id key with
        | error err => exact hnone
        | ok f => exact hform f.2
    | rebuild =>
        refine engine?_of_scheduler_none ?_
        simp [apply, rebuild, hscheduler]
    | attach => cases hop
    | detach => cases hop
    | force id =>
        simp only [apply, force, hnone]
    | advance ms =>
        simp only [apply, advance, hnone]
        exact engine?_of_scheduler_none hscheduler
    | turn r race =>
        simp only [apply, hnone]
        exact hnone
    | wait ms =>
        simp only [apply, hnone]
        exact engine?_of_scheduler_none hscheduler
    | observe => exact hnone
    | unobserve => exact hnone
    | writeState id change => exact hform _
    | revalidate id => exact hform _
    | reassess id => exact hform _
    | _ => exact absurd rfl hedits

/-- Without a scheduler operations only change the form. -/
private theorem sound_apply_of_none (streams : s.form.SoundStreams) (hnone : s.engine? = none)
    (hop : op.keepsScheduler = true) : (s.apply op).Sound := by
  refine .of_none (engine?_apply_of_none hnone hop) ?_
  cases hedits : op.editsStructure with
  | true =>
      rcases apply_cases_of_editsStructure (s := s) hedits with ⟨-, heq⟩ | ⟨-, edit, hedit, heq⟩
      · rw [heq]
        exact streams
      · rw [heq]
        exact (hedit.soundStreams streams).edit_publish
  | false =>
      obtain ⟨id, v, hset⟩ | hdoc := apply_cases_of_none hnone hedits
      · exact streams.setValue hset
      · exact streams.document hdoc

theorem sound_apply (h : s.Sound) (op : Op) : (s.apply op).Sound := by
  by_cases hop : op.keepsScheduler = true
  · cases he : s.engine? with
    | none => exact sound_apply_of_none h.streams he hop
    | some e =>
        cases hre : op.resubscribes s with
        | false =>
            obtain ⟨e', he', hkept⟩ := kept_of_apply hop hre he
            exact .of_engine? he' ((h.serves he).kept hkept)
        | true =>
            obtain ⟨e', he', hnew⟩ := resubscribed_of_apply hre he
            exact .of_engine? he' ((h.serves he).resubscribed hnew)
  · cases op with
    | attach =>
        have he : (s.apply .attach).engine? = some ⟨s.form, .attach s.form, s.clock, s.asked⟩ := rfl
        exact .of_engine? he (.attach h.streams s.clock s.asked)
    | detach => exact .of_none rfl h.streams
    | _ => exact absurd rfl hop

theorem sound_run (h : s.Sound) (ops : List Op) : (s.run ops).Sound := by
  induction ops generalizing s with
  | nil => exact h
  | cons op ops ih => exact ih (sound_apply h op)

theorem sound_start (m : Model) (data : Json) (c : Config) : (start (.build m data c)).Sound :=
  .of_none rfl (Form.soundStreams_build m data c)

end Session

end ReactiveForm
