import ReactiveForm.Proofs.Session.Agreement

/-!
# After a scheduler is dropped

A scheduler that is dropped takes its pipelines along, with all that they were doing. What is left
behaves like a form that looks the same and never had a scheduler (`detached_of_run`): callers see
the same calls of rules, the same values and the same states, whatever they do. If they let time
pass only, nothing happens at all. What inquiries have shown stays as it is, so no answer of an
evaluation that was under way ever arrives.

A scheduler that is attached later on is a new one.
-/

namespace ReactiveForm.Session

variable {sight : Sight} {s t : Session} {op : Op} {more : List Op}

/-! ## Sessions without a scheduler -/

/-- Without a scheduler no inquiry is started, and only attaching one changes that. -/
theorem alone_apply (hnone : s.engine? = none) (hattach : op ≠ .attach) :
    (s.apply op).engine? = none ∧ (s.apply op).asked = s.asked := by
  constructor
  · cases op with
    | attach => exact absurd rfl hattach
    | detach => rfl
    | _ => exact engine?_apply_of_none hnone rfl
  · cases op with
    | setValue id value =>
        simp only [apply_setValue, setValue_eq]
        cases s.form.setValue id value <;> rfl
    | insert array index value =>
        simp only [apply_insert, insert_eq]
        cases s.form.prepareInsert array index value <;> rfl
    | push array value =>
        simp only [apply_push, push_eq]
        cases s.form.preparePush array value <;> rfl
    | remove array index =>
        simp only [apply_remove, remove_eq]
        cases s.form.prepareRemove array index <;> rfl
    | setExternal id key message =>
        simp only [apply_setExternal, setExternal_eq]
        cases s.form.setExternal id key message <;> rfl
    | clearExternal id key =>
        simp only [apply_clearExternal, clearExternal_eq]
        cases s.form.clearExternal id key <;> rfl
    | force id => simp only [apply, force, hnone]
    | advance ms => simp only [apply, advance, hnone]
    | turn r race => simp [apply, hnone]
    | wait ms => simp only [apply, hnone]
    | _ => rfl

theorem alone_run (hnone : s.engine? = none) (hattach : .attach ∉ more) :
    (s.run more).engine? = none ∧ (s.run more).asked = s.asked := by
  induction more generalizing s with
  | nil => exact ⟨hnone, rfl⟩
  | cons op more ih =>
      rw [List.mem_cons, not_or] at hattach
      obtain ⟨hnone', hasked⟩ := alone_apply hnone (Ne.symm hattach.1)
      obtain ⟨hlast, hlater⟩ := ih hnone' hattach.2
      exact ⟨hlast, hlater.trans hasked⟩

/-- Forms that look the same go on to do so where no scheduler is attached. -/
theorem agrees_run_of_none (hsight : sight.inquiries = true) (hs : s.engine? = none)
    (ht : t.engine? = none) (hattach : .attach ∉ more) (h : Form.Agrees sight s.form t.form) :
    Form.Agrees sight (s.run more).form (t.run more).form := by
  induction more generalizing s t with
  | nil => exact h
  | cons op more ih =>
      rw [List.mem_cons, not_or] at hattach
      refine ih (alone_apply hs (Ne.symm hattach.1)).1 (alone_apply ht (Ne.symm hattach.1)).1
        hattach.2 ?_
      cases hdrives : op.drives with
      | true =>
          rw [form_apply_of_drives hs hdrives, form_apply_of_drives ht hdrives]
          exact h
      | false =>
          exact agrees_apply h hdrives fun _ change _ => Sight.admits_of_inquiries hsight change

/-- Without a scheduler time changes nothing. -/
theorem form_run_of_drives (hnone : s.engine? = none) (hdrives : ∀ op ∈ more, op.drives = true) :
    (s.run more).form = s.form := by
  induction more generalizing s with
  | nil => rfl
  | cons op more ih =>
      have hop := hdrives op List.mem_cons_self
      have hattach : op ≠ .attach := by
        rintro rfl
        cases hop
      exact (ih (alone_apply hnone hattach).1 fun op hmem =>
        hdrives op (List.mem_cons_of_mem _ hmem)).trans (form_apply_of_drives hnone hop)

/-! ## Dropping a scheduler -/

/-- What can be told from outside about two sessions: the rules that were called, and the values and
the states of the controls. -/
structure LooksLike (s t : Session) : Prop where
  called : s.form.called = t.form.called
  asked : s.asked = t.asked
  value : ∀ id, s.form.value id = t.form.value id
  state? : ∀ id, s.form.state? id = t.form.state? id

theorem looksLike_of_agrees (h : Form.Agrees .all s.form t.form) (hasked : s.asked = t.asked) :
    s.LooksLike t where
  called := h.called rfl
  asked := hasked
  value := h.value
  state? id := by
    have hstate := h.state? id
    have hall : Sight.all.state = fun st => st := rfl
    rwa [hall, Option.map_id', Option.map_id'] at hstate

/-- Whatever has happened in a session, when the scheduler is dropped the form looks like one that
never had a scheduler. From there on, until a scheduler is attached, it behaves like every form that
looks the same and has none: the same rules are called, none of them by an inquiry, and the values
and the states are the same. If only time passes the form stays as it is. It stays as it is what
inquiries have shown, unless a caller writes that. -/
theorem detached_of_run {m : Model} {data : Json} {c : Config} {ops : List Op}
    (hs : (start (.build m data c)).run ops = s) :
    (∃ before, .attach ∉ before ∧
      Form.Agrees .states s.form ((start (.build m data c)).run before).form) ∧
    ∀ more, .attach ∉ more →
      (∀ t : Session, t.scheduler = none → Form.Agrees .states s.form t.form →
        (s.detach.clearCalled.run more).LooksLike (t.clearCalled.run more)) ∧
      (s.detach.run more).asked = s.asked ∧
      ((∀ op ∈ more, op.drives = true) → (s.detach.run more).form = s.form) ∧
      ((∀ id change, .writeState id change ∈ more → ∀ st : ControlState,
          (change st).pending = st.pending ∧ (change st).asyncErrors = st.asyncErrors) →
        ∀ id, Carries (fun st => (st.pending, st.asyncErrors)) s.form (s.detach.run more).form
          id) := by
  have hsound : s.Sound := hs ▸ sound_run (sound_start m data c) ops
  have hparents : s.form.ParentsBefore :=
    hs ▸ parentsBefore_run (sound_start m data c) (Form.parentsBefore_build m data c) ops
  have hnone : s.detach.engine? = none := rfl
  refine ⟨?_, fun more hattach => ⟨fun t ht hagrees => ?_, (alone_run hnone hattach).2,
    form_run_of_drives hnone, fun hwrites id => ?_⟩⟩
  · obtain ⟨before, hbefore, hagrees⟩ := exists_unscheduled (sound_start m data c) ops
    rw [hs] at hagrees
    exact ⟨before, hbefore, hagrees.symm⟩
  · have ht' : t.clearCalled.engine? = none := by rw [engine?, clearCalled, ht]; rfl
    have hs' : s.detach.clearCalled.engine? = none := rfl
    have hcleared : Form.Agrees .all s.detach.clearCalled.form t.clearCalled.form :=
      hagrees.clearCalled true
    refine looksLike_of_agrees (agrees_run_of_none rfl hs' ht' hattach hcleared) ?_
    exact (alone_run hs' hattach).2.trans (alone_run ht' hattach).2.symm
  · have hshown : AboutInquiries fun st : ControlState => (st.pending, st.asyncErrors) :=
      fun _ _ hpending herrors => Prod.ext hpending herrors
    refine (carries_run_of_none hshown (sound_apply hsound .detach) hparents ?_ hnone
      hattach).2.2
    rintro _ hmem id change rfl st
    exact Prod.ext (hwrites id change hmem st).1 (hwrites id change hmem st).2

/-! ## A field that is evaluated when the scheduler is dropped -/

/-- What comes before: the tests of a field are going to fail, and an evaluation has begun. -/
def beginsToFail : List Op := [.setValue 2 (.natural 2), .attach, .advance 55]

/-- The session in which this has happened. -/
def failing : Session := (start (.build inquiredPair pairData .standard)).run beginsToFail

/-- The other field is changed, and more time passes than the evaluation takes. -/
def later : List Op := [.setValue 2 (.natural 3), .advance 1000]

/-- Whether an evaluation is under way that will have errors. -/
def isFailing (p : InquiryPipeline) : Bool :=
  match p.phase with
  | .evaluating e => !e.results.passed
  | _ => false

/-- The field is pending from then on, and has no errors. -/
theorem detached_failing :
    (failing.engine?.bind fun e => e.scheduler.inquiry? 1).any isFailing = true ∧
    (∃ t : Session, t.scheduler = none ∧
      (failing.detach.clearCalled.run later).LooksLike (t.clearCalled.run later)) ∧
    ((failing.detach.run later).form.state? 1).any (fun st =>
      st.pending && st.asyncErrors.isNone) = true ∧
    (failing.detach.run [.advance 1000]).form = failing.form ∧
    Carries (fun st => (st.pending, st.asyncErrors)) failing.form
      (failing.detach.run later).form 1 := by
  obtain ⟨⟨before, hbefore, hagrees⟩, hlater⟩ :=
    @detached_of_run failing inquiredPair pairData .standard beginsToFail rfl
  have hnone : ((start (.build inquiredPair pairData .standard)).run before).scheduler = none :=
    Option.map_eq_none_iff.1 (alone_run rfl hbefore).1
  obtain ⟨hlooks, -, -, hcarries⟩ := hlater later (by simp [later])
  obtain ⟨-, -, htime, -⟩ := hlater [.advance 1000] (by simp)
  refine ⟨by decide +kernel, ⟨_, hnone, hlooks _ hnone hagrees⟩, by decide +kernel, htime ?_,
    hcarries ?_ 1⟩
  · intro op hop
    rw [List.mem_singleton.1 hop]
    rfl
  · intro id change hmem
    simp [later] at hmem

end ReactiveForm.Session
