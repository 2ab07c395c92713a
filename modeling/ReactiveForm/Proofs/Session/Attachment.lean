import Mathlib.Data.List.Induction
import ReactiveForm.Proofs.Session.Edits

/-!
# Attaching a scheduler

Attaching a scheduler requests inquiries and runs no test by checks. What a control shows right
afterwards is therefore what it has shown before: its validity is the verdict of the last edit that
has touched it, or of its creation, and whether it can be edited and seen is the verdict of its
creation (`Traced`). What its tests read may have changed since then, and nothing but a further
change will tell the control (`outOfDate_attachedLate`). Only a form without any edit shows the
verdicts on its present document for certain (`upToDate_launch`).
-/

namespace ReactiveForm

/-- What a control shows are the verdicts of its tests on the present document. -/
def Form.UpToDate (f : Form) (control : Nat) : Prop :=
  ∀ state, f.state? control = some state →
    state.syncErrors = (f.verdict control Property.validTests).errors? ∧
      state.enabled = (f.verdict control Property.editTests).passed ∧
      state.visible = (f.verdict control Property.viewTests).passed

namespace Session

variable {m : Model} {data : Json} {c : Config} {s s' : Session} {op : Op} {ops : List Op}
  {control x : Nat} {state : ControlState}

/-- Whether an operation edits the form. -/
def Op.isEdit (op : Op) : Bool := op.target?.isSome

/-- No edit that succeeds changes the value of a control. -/
def Untouched (control : Nat) : Session → List Op → Prop
  | _, [] => True
  | s, op :: ops =>
    (∀ x, op.target? = some x → op.succeeds s = true → control ∉ (s.apply op).form.lineage x) ∧
      Untouched control (s.apply op) ops

theorem untouched_append (s : Session) (ops : List Op) (op : Op) :
    Untouched control s (ops ++ [op]) ↔ Untouched control s ops ∧
      ∀ x, op.target? = some x → op.succeeds (s.run ops) = true →
        control ∉ (s.run (ops ++ [op])).form.lineage x := by
  induction ops generalizing s with
  | nil => simp [Untouched, run]
  | cons first ops ih =>
      simp only [List.cons_append, Untouched, ih (s.apply first), and_assoc]
      rfl

/-- What a control shows after some operations are verdicts on earlier forms: on its validity at the
last edit that has touched it, and on its editability and visibility at its creation. -/
structure Traced (s : Session) (ops : List Op) (control : Nat) (state : ControlState) : Prop where
  valid : ∃ done rest, ops = done ++ rest ∧ Untouched control (s.run done) rest ∧
    state.syncErrors = ((s.run done).form.verdict control Property.validTests).errors?
  shown : ∃ done rest, ops = done ++ rest ∧
    (done = [] ∨ ∃ before op, done = before ++ [op] ∧
      (s.run before).form.contains control = false) ∧
    state.enabled = ((s.run done).form.verdict control Property.editTests).passed ∧
    state.visible = ((s.run done).form.verdict control Property.viewTests).passed

namespace Traced

/-- An operation that does not touch the control leaves what it shows. -/
theorem untouched (h : s.Traced ops control state)
    (hnot : ∀ x, op.target? = some x → op.succeeds (s.run ops) = true →
      control ∉ (s.run (ops ++ [op])).form.lineage x) : s.Traced (ops ++ [op]) control state where
  valid := by
    obtain ⟨done, rest, rfl, hrest, herrors⟩ := h.valid
    refine ⟨done, rest ++ [op], List.append_assoc .., ?_, herrors⟩
    rw [untouched_append, ← run_append, ← run_append, ← List.append_assoc]
    exact ⟨hrest, hnot⟩
  shown := by
    obtain ⟨done, rest, rfl, hborn, hshown⟩ := h.shown
    exact ⟨done, rest ++ [op], List.append_assoc .., hborn, hshown⟩

/-- An edit that touches the control gives a new verdict on its validity. -/
theorem touched (h : s.Traced ops control state) (op : Op) {p : Property}
    (hp : (s.run (ops ++ [op])).form.property? control = some p) :
    s.Traced (ops ++ [op]) control ((s.run (ops ++ [op])).form.validated control state) := by
  rw [Form.validated, hp]
  exact
    { valid := ⟨ops ++ [op], [], (List.append_nil _).symm, trivial, rfl⟩
      shown := by
        obtain ⟨done, rest, rfl, hborn, hshown⟩ := h.shown
        exact ⟨done, rest ++ [op], List.append_assoc .., hborn, hshown⟩ }

/-- The edit that creates the control gives all verdicts. -/
theorem created {p : Property} (hp : (s.run (ops ++ [op])).form.property? control = some p)
    (hnew : (s.run ops).form.contains control = false) :
    s.Traced (ops ++ [op]) control ((s.run (ops ++ [op])).form.edited control
      ((s.run (ops ++ [op])).form.validated control .initial)) := by
  rw [Form.validated, hp, Form.edited, hp]
  exact
    { valid := ⟨ops ++ [op], [], (List.append_nil _).symm, trivial, rfl⟩
      shown := ⟨ops ++ [op], [], (List.append_nil _).symm, .inr ⟨ops, op, rfl, hnew⟩, rfl, rfl⟩ }

end Traced

/-- A form that was just made shows the verdicts on its document. -/
theorem upToDate_build {p : Property} (hp : (Form.build m data c).property? control = some p) :
    (Form.build m data c).UpToDate control := by
  intro state hstate
  have hstate := Form.state?_build hstate
  generalize Form.build m data c = f at hp hstate ⊢
  rw [hstate, Form.validated, hp, Form.edited, hp]
  exact ⟨rfl, rfl, rfl⟩

/-- An edit keeps the property of a control that was there before. -/
theorem Edited.property? (h : s.Edited x s') (hold : s.form.contains control = true)
    (hnew : s'.form.contains control = true) :
    s'.form.property? control = s.form.property? control := by
  cases h with
  | set hset => exact (Form.sameTree_setValue hset).property? control
  | @perform edit hedit =>
      have htree := Form.sameTree_edit_publish edit
      exact (htree.property? control).trans
        (hedit.keepsProperties.property? control hold ((htree.contains control).symm.trans hnew))

/-- Every edit of a form that was just made traces the verdicts that it leaves. -/
theorem traced_of_isEdit (hedits : ∀ op ∈ ops, op.isEdit = true) {p : Property}
    (hp : ((start (.build m data c)).run ops).form.property? control = some p)
    (hstate : ((start (.build m data c)).run ops).form.state? control = some state) :
    (start (.build m data c)).Traced ops control state := by
  induction ops using List.reverseRec generalizing p state with
  | nil =>
      have h := upToDate_build hp state hstate
      exact ⟨⟨[], [], rfl, trivial, h.1⟩, [], [], rfl, .inl rfl, h.2⟩
  | append_singleton ops op ih =>
      have ih {p : Property} {state : ControlState} :=
        @ih state (fun o ho => hedits o (List.mem_append_left _ ho)) p
      obtain ⟨x, hx⟩ := Option.isSome_iff_exists.1 (hedits op (by simp))
      have happly : (start (.build m data c)).run (ops ++ [op]) =
          ((start (.build m data c)).run ops).apply op := run_append ..
      have hcontains :
          ((start (.build m data c)).run (ops ++ [op])).form.contains control = true := by
        rw [← Form.isSome_state?, hstate]
        rfl
      rcases edited_of_target? (s := (start (.build m data c)).run ops) hx with
        ⟨hfails, hsame⟩ | ⟨-, hedited⟩
      · rw [happly, hsame] at hp hstate
        refine (ih hp hstate).untouched fun _ _ hsucceeds => ?_
        rw [hfails] at hsucceeds
        cases hsucceeds
      · rw [← happly] at hedited
        have hretests := hedited.retests
          (parentsBefore_run (sound_start m data c) (Form.parentsBefore_build m data c) ops)
        rcases hretests control state hstate with ⟨before, hbefore, rfl⟩ | ⟨hnone, rfl⟩
        · -- the control was there before, and the edit touches it or it does not
          have hold : ((start (.build m data c)).run ops).form.contains control = true := by
            rw [← Form.isSome_state?, hbefore]
            rfl
          have htraced := ih ((hedited.property? hold hcontains).symm.trans hp) hbefore
          split
          · exact htraced.touched op hp
          · rename_i hnot
            refine htraced.untouched fun y hy _ => ?_
            cases hx.symm.trans hy
            exact hnot
        · refine .created hp ?_
          rw [← Form.isSome_state?, hnone]
          rfl

/-- Attaching a scheduler after any edits leaves the form as it is, and with it the verdicts of
these edits. -/
theorem traced_attach (hedits : ∀ op ∈ ops, op.isEdit = true)
    (hs : (start (.build m data c)).run ops = s) :
    s.attach.form = s.form ∧ ∀ control p state, s.attach.form.property? control = some p →
      s.attach.form.state? control = some state →
        (start (.build m data c)).Traced ops control state := by
  subst hs
  exact ⟨rfl, fun control p state hp hstate => traced_of_isEdit hedits hp hstate⟩

/-- A scheduler that is attached at once finds a form that shows the verdicts on its document. -/
theorem upToDate_launch {p : Property} (hp : (launch m data c).form.property? control = some p) :
    (launch m data c).form.UpToDate control := upToDate_build hp

/-! ## Attached late

One field depends on the other one. The other one gets a new value, and a scheduler is attached
behind that. The field has not been told and shows what it has shown before, and it stays so however
long one waits, because its pipelines wait for a further change.
-/

/-- A field that can only be valid, edited and seen while the other field is one. -/
def guardedPair : Model :=
  pairModel { Property.template with
    validTests := [pairTest (some otherIsOne) none]
    editTests := [pairTest (some otherIsOne) none]
    viewTests := [pairTest (some otherIsOne) none] }

/-- The other field becomes two before a scheduler is attached. -/
def attachedLate : Session :=
  ((start (.build guardedPair pairData .standard)).run [.setValue 2 (.natural 2)]).attach

theorem traced_attachedLate :
    ∃ p state, attachedLate.form.property? 1 = some p ∧ attachedLate.form.state? 1 = some state ∧
      (start (.build guardedPair pairData .standard)).Traced [.setValue 2 (.natural 2)] 1
        state := by
  obtain ⟨p, hp⟩ := Option.isSome_iff_exists.1
    (by decide +kernel : (attachedLate.form.property? 1).isSome = true)
  obtain ⟨state, hstate⟩ := Option.isSome_iff_exists.1
    (by decide +kernel : (attachedLate.form.state? 1).isSome = true)
  exact ⟨p, state, hp, hstate, (traced_attach (by decide) rfl).2 1 p state hp hstate⟩

/-- Nothing that a control with tests shows is right. -/
def IsOutOfDate (s : Session) (control : Nat) : Prop :=
  ∃ p state, s.form.property? control = some p ∧ s.form.state? control = some state ∧
    state.syncErrors ≠ (s.form.verdict control Property.validTests).errors? ∧
    state.enabled ≠ (s.form.verdict control Property.editTests).passed ∧
    state.visible ≠ (s.form.verdict control Property.viewTests).passed

/-- A scheduler that is attached late finds a field that is out of date, and leaves it so. -/
theorem outOfDate_attachedLate :
    attachedLate.IsOutOfDate 1 ∧ (attachedLate.run [.advance 1000]).IsOutOfDate 1 := by
  have hwrong : ∀ {s : Session}, (s.form.property? 1).isSome = true →
      (s.form.state? 1).any (fun state => decide
        (state.syncErrors ≠ (s.form.verdict 1 Property.validTests).errors? ∧
          state.enabled ≠ (s.form.verdict 1 Property.editTests).passed ∧
          state.visible ≠ (s.form.verdict 1 Property.viewTests).passed)) = true →
      s.IsOutOfDate 1 := by
    intro s hp hstate
    obtain ⟨p, hp⟩ := Option.isSome_iff_exists.1 hp
    obtain ⟨state, hstate, hall⟩ := (Option.any_eq_true _ _).1 hstate
    exact ⟨p, state, hp, hstate, of_decide_eq_true hall⟩
  exact ⟨hwrong (by decide +kernel) (by decide +kernel),
    hwrong (by decide +kernel) (by decide +kernel)⟩

end Session

end ReactiveForm
