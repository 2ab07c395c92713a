import ReactiveForm.Form.Growth

/-!
# Changes to a form

What an edit changes before any test is run and anything is published: a field stores a value, or an
array gains or loses an item together with its controls.
-/

namespace ReactiveForm.Form

/-- The path of a control for an error, empty if it has none. -/
def pathOrEmpty (f : Form) (id : ControlId) : String := (f.path? id).getD ""

/-- The form in which a control has a value. -/
def stored (f : Form) (id : ControlId) (value : Json) : Form :=
  f.modify id fun c => { c with value }

/-- The form with an item put into an array, before any test is run. -/
def grown (f : Form) (array : ControlId) (items : List ControlId) (index : Nat) (item : Property)
    (value : Json) : Form :=
  (f.append (item.block (some array) f.slots.size value)).modify array fun c =>
    { c with children := .indexed (items.take index ++ f.slots.size :: items.drop index) }

/-- Drop controls and close their streams. -/
def drop (f : Form) (ids : List ControlId) : Form :=
  { f with
    slots := ids.foldl
      (fun slots id => slots.modify id fun s => ⟨none, s.changes.close⟩) f.slots }

/-- The form with an item taken out of an array, before any test is run. -/
def shrunk (f : Form) (array : ControlId) (items : List ControlId) (index : Nat)
    (item : ControlId) : Form :=
  (f.drop (f.subtree item)).modify array fun c =>
    { c with children := .indexed (items.eraseIdx index) }

end ReactiveForm.Form
