import ReactiveForm.Proofs.Form.Items
import ReactiveForm.Session

/-!
# What edits make of a session

An edit of a session goes step by step until it fails or succeeds. It makes all of its checks before
its first change, so one that fails has changed nothing, and one that succeeds does as a whole what
it does to the form (`Editing.Yields`): the session has another form (`withForm`), or a change to
its structure is told and then published (`perform`).
-/

namespace ReactiveForm.Session

variable {s t : Session} {α β : Type}

namespace Editing

/-! ## Runs of edits -/

/-- The session that an edit leaves, whether it fails or not. -/
def after (edit : Editing α) (s : Session) : Session :=
  match edit s with
  | .ok _ t | .error _ t => t

/-- The error with which an edit fails. -/
def error? (edit : Editing α) (s : Session) : Option FormError :=
  match edit s with
  | .ok _ _ => none
  | .error err _ => some err

/-- What an edit that succeeds gives back and leaves, or why it fails. -/
def outcome (edit : Editing α) (s : Session) : Except FormError (α × Session) :=
  match edit s with
  | .ok a t => .ok (a, t)
  | .error err _ => .error err

/-- An edit has the given outcomes, and leaves the session as it was where it fails. -/
def Yields (edit : Editing α) (result : Session → Except FormError (α × Session)) : Prop :=
  ∀ s, edit s = match result s with
    | .ok (a, t) => .ok a t
    | .error err => .error err s

section Yields

variable {edit : Editing α} {result : Session → Except FormError (α × Session)} {err : FormError}

theorem error?_eq_some : edit.error? s = some err ↔ edit.outcome s = .error err := by
  unfold error? outcome
  cases edit s <;> simp

theorem Yields.outcome (h : edit.Yields result) (s : Session) : edit.outcome s = result s := by
  rw [Editing.outcome, h]
  cases result s <;> rfl

theorem Yields.after (h : edit.Yields result) (s : Session) :
    edit.after s = ((edit.outcome s).toOption.map Prod.snd).getD s := by
  rw [h.outcome, Editing.after, h]
  cases result s <;> rfl

/-- An edit fails and changes nothing, or it succeeds. -/
theorem Yields.cases (h : edit.Yields result) (s : Session) :
    (∃ err, edit.outcome s = .error err) ∧ edit.after s = s ∨
      ∃ a, edit.outcome s = .ok (a, edit.after s) := by
  rw [h.after]
  cases edit.outcome s with
  | error err => exact .inl ⟨⟨err, rfl⟩, rfl⟩
  | ok next => exact .inr ⟨next.1, rfl⟩

/-- An edit that fails leaves the session as it was. -/
theorem Yields.after_eq_self (h : edit.Yields result) (herr : edit.error? s = some err) :
    edit.after s = s := by
  rw [h.after, error?_eq_some.1 herr]
  rfl

end Yields

/-! ## Single steps -/

theorem bind_apply (edit : Editing α) (rest : α → Editing β) (s : Session) :
    (edit >>= rest) s = match edit s with
      | .ok a t => rest a t
      | .error err t => .error err t := by
  change EStateM.bind edit rest s = _
  unfold EStateM.bind
  cases edit s <;> rfl

theorem form_apply (s : Session) : form s = .ok s.form s := rfl

theorem control_apply (id : ControlId) (s : Session) :
    control id s = match s.form.control? id with
      | some c => .ok c s
      | none => .error (.unknownControl id) s := by
  rw [control, bind_apply, form_apply]
  dsimp only
  cases s.form.control? id <;> rfl

end Editing

/-! ## Edits of values -/

/-- Give a field a new value. -/
def setValue (s : Session) (id : ControlId) (value : Json) : Except FormError Session :=
  ((Editing.setValue id value).outcome s).map Prod.snd

/-- The lineage of a field does not depend on the values. -/
theorem Editing.yields_setValue (id : ControlId) (value : Json) :
    (Editing.setValue id value).Yields fun s =>
      (s.form.setValue id value).map fun f => ((), s.withForm f) := by
  intro s
  dsimp only
  rw [Editing.setValue, bind_apply, control_apply]
  unfold Form.setValue
  cases s.form.control? id with
  | none => rfl
  | some c =>
      dsimp only
      by_cases hkind : c.kind ≠ .field
      · simp only [if_pos hkind]
        rfl
      · have hlineage := (Form.sameTree_stored s.form id value).lineage id
        simp only [if_neg hkind, ← hlineage]
        rfl

theorem setValue_eq (s : Session) (id : ControlId) (value : Json) :
    s.setValue id value = (s.form.setValue id value).map s.withForm := by
  rw [setValue, (Editing.yields_setValue id value).outcome]
  cases s.form.setValue id value <;> rfl

/-! ## Edits of the structure -/

/-- Let the scheduler and the observers see a form with a new structure. -/
def restructure (s : Session) (form : Form) (change : StructureChange) : Session :=
  (s.withForm form).notify change

/-- Carry out a structure edit: tell it, and then publish it. -/
def perform (s : Session) (e : Form.Edit) : Session :=
  (s.restructure e.form e.change).withForm e.publish

/-- Put an item into an array. The result is the number of its control. -/
def insert (s : Session) (array : ControlId) (index : Nat) (value : Json) :
    Except FormError (ControlId × Session) :=
  (Editing.insert array index value).outcome s

/-- Put an item at the end of an array. The result is the number of its control. -/
def push (s : Session) (array : ControlId) (value : Json) :
    Except FormError (ControlId × Session) :=
  (Editing.push array value).outcome s

/-- Take an item out of an array. The result is the value that it had. -/
def remove (s : Session) (array : ControlId) (index : Nat) : Except FormError (Json × Session) :=
  (Editing.remove array index).outcome s

namespace Editing

theorem yields_insert (array : ControlId) (index : Nat) (value : Json) :
    (insert array index value).Yields fun s =>
      (s.form.prepareInsert array index value).map fun (id, e) => (id, s.perform e) := by
  intro s
  dsimp only
  rw [insert, bind_apply, control_apply]
  unfold Form.prepareInsert
  cases s.form.control? array with
  | none => rfl
  | some c =>
      dsimp only
      cases c.children with
      | indexed items =>
          cases c.property.bind Property.item? with
          | none => rfl
          | some item =>
              dsimp only
              by_cases hbehind : items.length < index
              · simp only [if_pos hbehind]
                rfl
              · simp only [if_neg hbehind]
                rfl
      | none | named _ => rfl

theorem yields_push (array : ControlId) (value : Json) :
    (push array value).Yields fun s =>
      (s.form.preparePush array value).map fun (id, e) => (id, s.perform e) := by
  intro s
  dsimp only
  rw [push, bind_apply, control_apply]
  unfold Form.preparePush
  cases s.form.control? array with
  | none => rfl
  | some c =>
      dsimp only
      cases c.children with
      | indexed items => exact yields_insert array items.length value s
      | none | named _ => rfl

theorem yields_remove (array : ControlId) (index : Nat) :
    (remove array index).Yields fun s =>
      (s.form.prepareRemove array index).map fun (value, e) => (value, s.perform e) := by
  intro s
  dsimp only
  rw [remove, bind_apply, control_apply]
  unfold Form.prepareRemove
  cases s.form.control? array with
  | none => rfl
  | some c =>
      dsimp only
      cases c.children with
      | indexed items =>
          dsimp only
          cases items[index]? <;> rfl
      | none | named _ => rfl

end Editing

theorem insert_eq (s : Session) (array : ControlId) (index : Nat) (value : Json) :
    s.insert array index value =
      (s.form.prepareInsert array index value).map fun (id, e) => (id, s.perform e) :=
  (Editing.yields_insert array index value).outcome s

theorem push_eq (s : Session) (array : ControlId) (value : Json) :
    s.push array value =
      (s.form.preparePush array value).map fun (id, e) => (id, s.perform e) :=
  (Editing.yields_push array value).outcome s

theorem remove_eq (s : Session) (array : ControlId) (index : Nat) :
    s.remove array index =
      (s.form.prepareRemove array index).map fun (value, e) => (value, s.perform e) :=
  (Editing.yields_remove array index).outcome s

/-! ## Messages of callers -/

/-- Record a message of a caller under a key. -/
def setExternal (s : Session) (id : ControlId) (key message : String) : Except FormError Session :=
  ((Editing.setExternal id key message).outcome s).map Prod.snd

/-- Drop the message of a caller under a key. The result is whether there was one. -/
def clearExternal (s : Session) (id : ControlId) (key : String) :
    Except FormError (Bool × Session) :=
  (Editing.clearExternal id key).outcome s

namespace Editing

theorem yields_setExternal (id : ControlId) (key message : String) :
    (setExternal id key message).Yields fun s =>
      (s.form.setExternal id key message).map fun f => ((), s.withForm f) := by
  intro s
  dsimp only
  rw [setExternal, bind_apply, control_apply]
  unfold Form.setExternal Form.contains
  cases s.form.control? id <;> rfl

theorem yields_clearExternal (id : ControlId) (key : String) :
    (clearExternal id key).Yields fun s =>
      (s.form.clearExternal id key).map fun (had, f) => (had, s.withForm f) := by
  intro s
  dsimp only
  rw [clearExternal, bind_apply, control_apply]
  unfold Form.clearExternal Form.state?
  cases s.form.control? id <;> rfl

end Editing

theorem setExternal_eq (s : Session) (id : ControlId) (key message : String) :
    s.setExternal id key message = (s.form.setExternal id key message).map s.withForm := by
  rw [setExternal, (Editing.yields_setExternal id key message).outcome]
  cases s.form.setExternal id key message <;> rfl

theorem clearExternal_eq (s : Session) (id : ControlId) (key : String) :
    s.clearExternal id key =
      (s.form.clearExternal id key).map fun (had, f) => (had, s.withForm f) :=
  (Editing.yields_clearExternal id key).outcome s

end ReactiveForm.Session
