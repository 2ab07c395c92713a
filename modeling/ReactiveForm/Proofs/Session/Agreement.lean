import Mathlib.Data.List.Induction
import ReactiveForm.Proofs.Form.Agreement
import ReactiveForm.Proofs.Session.Pending

/-!
# Sessions whose forms look the same

What an operation does to a form does not depend on the scheduler, unless it makes pipelines work.
So forms that look the same do so after it (`agrees_apply`). What pipelines do to a form can be done
without them: they change states only, and a caller can write these states. Every form that a
session comes to looks like one that never had a scheduler, up to the rules that were called
(`exists_unscheduled`).
-/

namespace ReactiveForm

/-- All of a control is looked at, but not which rules were called. -/
def Sight.states : Sight := ⟨true, false⟩

/-- All of a control is looked at, and which rules were called. -/
def Sight.all : Sight := ⟨true, true⟩

/-- Where all of a state is seen, any change to it is admitted. -/
theorem Sight.admits_of_inquiries {sight : Sight} (h : sight.inquiries = true)
    (change : ControlState → ControlState) : sight.Admits change := by
  intro s s' heq
  rw [Sight.state, Sight.state, if_pos h, if_pos h] at heq
  rw [heq]

namespace Session

variable {sight : Sight} {s t : Session} {f : Form} {op : Op} {ops : List Op}

/-- If the operation writes states, it does not depend on what is not seen of them. -/
def Op.Respects (sight : Sight) (op : Op) : Prop :=
  ∀ id change, op = .writeState id change → sight.Admits change

/-! ## Operations -/

theorem agrees_perform {e e' : Form.Edit} (h : e.Agrees sight e') :
    Form.Agrees sight (s.perform e).form (t.perform e').form :=
  (Form.Agrees.edit_publish e).trans (h.form.trans (Form.Agrees.edit_publish e').symm)

private theorem cases_of_alike {α : Type} {a b : Except FormError (α × Form.Edit)}
    (h : Alike (fun a b => a.1 = b.1 ∧ Form.Edit.Agrees sight a.2 b.2) a b) :
    (∃ err, a = .error err ∧ b = .error err) ∨
      ∃ x edit edit', a = .ok (x, edit) ∧ b = .ok (x, edit') ∧ edit.Agrees sight edit' := by
  cases h with
  | error err => exact .inl ⟨err, rfl, rfl⟩
  | @ok a b h => exact .inr ⟨a.1, a.2, b.2, rfl, h.1 ▸ rfl, h.2⟩

/-- An edit of the structure fails for both and changes nothing, or it does the same to both. -/
theorem edits_of_agrees (h : Form.Agrees sight s.form t.form)
    (hedits : op.editsStructure = true) :
    (s.apply op = s ∧ t.apply op = t) ∨
      ∃ array edit edit', s.form.Prepared array edit ∧ t.form.Prepared array edit' ∧
        edit.Agrees sight edit' ∧ s.apply op = s.perform edit ∧ t.apply op = t.perform edit' := by
  cases op with
  | insert array index value =>
      rcases cases_of_alike (h.prepareInsert array index value) with
        ⟨err, hs, ht⟩ | ⟨x, edit, edit', hs, ht, hagrees⟩
      · exact .inl (by simp only [apply_insert, insert_eq, hs, ht]; exact ⟨rfl, rfl⟩)
      · exact .inr ⟨array, edit, edit', Form.prepared_of_prepareInsert hs,
          Form.prepared_of_prepareInsert ht, hagrees,
          by simp only [apply_insert, insert_eq, hs, ht]; exact ⟨rfl, rfl⟩⟩
  | push array value =>
      rcases cases_of_alike (h.preparePush array value) with
        ⟨err, hs, ht⟩ | ⟨x, edit, edit', hs, ht, hagrees⟩
      · exact .inl (by simp only [apply_push, push_eq, hs, ht]; exact ⟨rfl, rfl⟩)
      · exact .inr ⟨array, edit, edit', Form.prepared_of_preparePush hs,
          Form.prepared_of_preparePush ht, hagrees,
          by simp only [apply_push, push_eq, hs, ht]; exact ⟨rfl, rfl⟩⟩
  | remove array index =>
      rcases cases_of_alike (h.prepareRemove array index) with
        ⟨err, hs, ht⟩ | ⟨x, edit, edit', hs, ht, hagrees⟩
      · exact .inl (by simp only [apply_remove, remove_eq, hs, ht]; exact ⟨rfl, rfl⟩)
      · exact .inr ⟨array, edit, edit', Form.prepared_of_prepareRemove hs,
          Form.prepared_of_prepareRemove ht, hagrees,
          by simp only [apply_remove, remove_eq, hs, ht]; exact ⟨rfl, rfl⟩⟩
  | _ => cases hedits

/-- An operation by which no pipeline works does the same to forms that look the same. -/
theorem agrees_apply (h : Form.Agrees sight s.form t.form) (hdrives : op.drives = false)
    (hop : op.Respects sight) : Form.Agrees sight (s.apply op).form (t.apply op).form := by
  have hedit : op.editsStructure = true →
      Form.Agrees sight (s.apply op).form (t.apply op).form := fun hedits => by
    rcases edits_of_agrees h hedits with ⟨hs, ht⟩ | ⟨_, edit, edit', -, -, hagrees, hs, ht⟩
    · rw [hs, ht]
      exact h
    · rw [hs, ht]
      exact agrees_perform hagrees
  cases op with
  | setValue id value =>
      have hset := h.setValue id value
      simp only [apply_setValue, setValue_eq]
      generalize s.form.setValue id value = a at hset
      generalize t.form.setValue id value = b at hset
      cases hset with
      | error => exact h
      | ok hforms => exact hforms
  | insert array index value => exact hedit rfl
  | push array value => exact hedit rfl
  | remove array index => exact hedit rfl
  | setExternal id key message =>
      have hset := h.setExternal id key message
      simp only [apply_setExternal, setExternal_eq]
      generalize s.form.setExternal id key message = a at hset
      generalize t.form.setExternal id key message = b at hset
      cases hset with
      | error => exact h
      | ok hforms => exact hforms
  | clearExternal id key =>
      have hclear := h.clearExternal id key
      simp only [apply_clearExternal, clearExternal_eq]
      generalize s.form.clearExternal id key = a at hclear
      generalize t.form.clearExternal id key = b at hclear
      cases hclear with
      | error => exact h
      | ok hcleared => exact hcleared.2
  | writeState id change => exact h.modifyState id (hop id change rfl)
  | revalidate id => exact h.refreshValidity id
  | reassess id => exact h.refreshEditability id
  | observe => exact h
  | unobserve => exact h
  | rebuild => exact h
  | attach => exact h
  | detach => exact h
  | _ => cases hdrives

/-- What makes pipelines work leaves the document. -/
theorem sameDocument_apply_of_drives (hsound : s.Sound) (hdrives : op.drives = true) :
    Form.SameDocument (s.apply op).form s.form := by
  cases he : s.engine? with
  | none =>
      rw [form_apply_of_drives he hdrives]
      exact .refl s.form
  | some e =>
      have hserves := (hsound.serves he).sound
      rw [← form_of_engine? he]
      cases op with
      | force id =>
          simp only [apply, force, he]
          exact Engine.sameDocument_force e id
      | advance ms =>
          simp only [apply, advance, he]
          exact Engine.sameDocument_advance hserves ms
      | turn r race =>
          simp only [apply, he, Option.bind_some]
          cases hstep : e.step? r race with
          | none =>
              rw [form_of_engine? he]
              exact .refl s.form
          | some e' => exact Engine.sameDocument_step hserves hstep
      | wait ms =>
          simp only [apply, he]
          exact .refl e.form
      | _ => cases hdrives

/-! ## Writing states -/

/-- A caller gives controls the states that they have in another form. -/
def writes (f : Form) (ids : List ControlId) : List Op :=
  ids.map fun id => .writeState id (f.state? id).getD

theorem attach_not_mem_writes (f : Form) (ids : List ControlId) : .attach ∉ writes f ids := by
  intro hmem
  obtain ⟨id, -, heq⟩ := List.mem_map.1 hmem
  cases heq

theorem sameDocument_run_writes (s : Session) (f : Form) (ids : List ControlId) :
    Form.SameDocument (s.run (writes f ids)).form s.form := by
  induction ids generalizing s with
  | nil => exact .refl s.form
  | cons id ids ih => exact (ih _).trans (Form.sameDocument_modifyState s.form id _)

theorem state?_run_writes (s : Session) (f : Form) (ids : List ControlId) (other : ControlId) :
    (s.run (writes f ids)).form.state? other =
      if other ∈ ids then (s.form.state? other).map (f.state? other).getD
      else s.form.state? other := by
  induction ids generalizing s with
  | nil => rfl
  | cons id ids ih =>
      have hwritten := Form.state?_modifyState s.form id (f.state? id).getD other
      refine (ih (s.apply (.writeState id (f.state? id).getD))).trans ?_
      change (if other ∈ ids then ((s.form.modifyState id (f.state? id).getD).state? other).map
        (f.state? other).getD else (s.form.modifyState id (f.state? id).getD).state? other) = _
      rw [hwritten]
      by_cases heq : other = id
      · -- a state that is written twice is written in the same way
        subst heq
        cases f.state? other <;> cases s.form.state? other <;> simp
      · simp [heq]

/-- A caller can give a form the states that another one with the same document has. -/
theorem agrees_run_writes {g : Form} (h : Form.Agrees .states t.form f)
    (d : Form.SameDocument g f) :
    Form.Agrees .states (t.run (writes g (List.range g.slots.size))).form g := by
  have hdoc := sameDocument_run_writes t g (List.range g.slots.size)
  have hlive : ∀ id, (t.form.state? id).isSome = (g.state? id).isSome := fun id => by
    rw [Form.isSome_state?, Form.isSome_state?, h.sameTree.contains, d.sameTree.contains]
  refine h.of_sameDocument hdoc d (fun id => congrArg (Option.map _) ?_) rfl
  have hlive := hlive id
  rw [state?_run_writes]
  cases hstate : g.state? id with
  | none =>
      rw [hstate] at hlive
      rw [Option.isNone_iff_eq_none.1 (Option.isSome_eq_false_iff.1 hlive)]
      exact ite_self _
  | some state =>
      have hlt : id < g.slots.size := by
        refine Form.lt_size_of_contains ?_
        rw [← Form.isSome_state?, hstate]
        rfl
      rw [hstate] at hlive
      obtain ⟨old, hold⟩ := Option.isSome_iff_exists.1 hlive
      rw [if_pos (List.mem_range.2 hlt), hold]
      rfl

/-! ## Without a scheduler -/

/-- A form that a session comes to looks like one that never had a scheduler. -/
theorem exists_unscheduled (hsound : s.Sound) (ops : List Op) :
    ∃ before, .attach ∉ before ∧
      Form.Agrees .states (s.run before).form (s.run ops).form := by
  induction ops using List.reverseRecOn with
  | nil => exact ⟨[], List.not_mem_nil, .refl s.form⟩
  | append_singleton ops op ih =>
      obtain ⟨before, hbefore, hagrees⟩ := ih
      have hlast : s.run (ops ++ [op]) = (s.run ops).apply op := run_append s ops [op]
      rw [hlast]
      cases hdrives : op.drives with
      | true =>
          have hdoc := sameDocument_apply_of_drives (sound_run hsound ops) hdrives
          let f := ((s.run ops).apply op).form
          refine ⟨before ++ writes f (List.range f.slots.size), ?_, ?_⟩
          · rw [List.mem_append, not_or]
            exact ⟨hbefore, attach_not_mem_writes _ _⟩
          · rw [run_append]
            exact agrees_run_writes hagrees hdoc
      | false =>
          by_cases hattach : op = .attach
          · subst hattach
            exact ⟨before, hbefore, hagrees⟩
          · refine ⟨before ++ [op], ?_, ?_⟩
            · rw [List.mem_append, List.mem_singleton, not_or]
              exact ⟨hbefore, Ne.symm hattach⟩
            · rw [run_append]
              exact agrees_apply hagrees hdrives fun _ change _ =>
                Sight.admits_of_inquiries rfl change

end Session

end ReactiveForm
