import ReactiveForm.Form.Edit
import ReactiveForm.Form.Refresh

/-!
# What edits make of a form

An edit of a session goes step by step and can fail on the way. Here is what it makes of the form as
a whole, or why it fails: the form behind an edit of a value, and the form behind an edit of the
structure before it is published (`Edit`) and afterwards (`Edit.publish`).
-/

namespace ReactiveForm.Form

/-! ## Messages of callers -/

/-- Record a message of a caller under a key. -/
def setExternal (f : Form) (id : ControlId) (key message : String) : Except FormError Form :=
  if f.contains id then .ok (f.modifyState id (·.setExternal key message))
  else .error (.unknownControl id)

/-- Drop the message of a caller under a key, and tell whether there was one. -/
def clearExternal (f : Form) (id : ControlId) (key : String) : Except FormError (Bool × Form) :=
  match f.state? id with
  | some s => .ok (s.hasExternal key, f.modifyState id (·.clearExternal key))
  | none => .error (.unknownControl id)

/-! ## Values and items -/

/-- Give a field a new value. -/
def setValue (f : Form) (id : ControlId) (value : Json) : Except FormError Form :=
  match f.control? id with
  | none => .error (.unknownControl id)
  | some c =>
    if c.kind ≠ .field then .error (.notAField (f.pathOrEmpty id))
    else
      let lineage := f.lineage id
      .ok (((f.stored id value).refreshLineage lineage).publish lineage)

/-- A structure edit that is made but not published. -/
structure Edit where
  /-- The form with the change. -/
  form : Form
  /-- The change. -/
  change : StructureChange
  /-- The array and its ancestors, from the inside out. -/
  lineage : List ControlId
deriving Inhabited

/-- Publish the values of the array and its ancestors, and then the change to the structure. -/
def Edit.publish (e : Edit) : Form := (e.form.publish e.lineage).announce e.change

/-- The edit that puts an item into an array. -/
def growth (f : Form) (array : ControlId) (items : List ControlId) (index : Nat) (item : Property)
    (value : Json) : Edit :=
  let g := f.grown array items index item value
  ⟨(g.refreshNew (g.idsFrom f.slots.size)).refreshLineage (g.lineage array),
    .inserted array index, g.lineage array⟩

/-- The edit that takes an item out of an array. -/
def shrinkage (f : Form) (array : ControlId) (items : List ControlId) (index : Nat)
    (item : ControlId) : Edit :=
  let g := f.shrunk array items index item
  ⟨g.refreshLineage (g.lineage array), .removed array index, g.lineage array⟩

/-- Put an item into an array. The result is the number of its control. -/
def prepareInsert (f : Form) (array : ControlId) (index : Nat) (value : Json) :
    Except FormError (ControlId × Edit) :=
  match f.control? array with
  | none => .error (.unknownControl array)
  | some c =>
    match c.children, c.property.bind Property.item? with
    | .indexed items, some item =>
      if items.length < index then
        .error (.indexOutOfBounds (f.pathOrEmpty array) index items.length)
      else
        .ok (f.slots.size, f.growth array items index item value)
    | _, _ => .error (.notAnArray (f.pathOrEmpty array))

/-- Put an item at the end of an array. The result is the number of its control. -/
def preparePush (f : Form) (array : ControlId) (value : Json) :
    Except FormError (ControlId × Edit) :=
  match f.control? array with
  | none => .error (.unknownControl array)
  | some c =>
    match c.children with
    | .indexed items => f.prepareInsert array items.length value
    | _ => .error (.notAnArray (f.pathOrEmpty array))

/-- Take an item out of an array. The result is the value that it had. -/
def prepareRemove (f : Form) (array : ControlId) (index : Nat) :
    Except FormError (Json × Edit) :=
  match f.control? array with
  | none => .error (.unknownControl array)
  | some c =>
    match c.children with
    | .indexed items =>
      match items[index]? with
      | none => .error (.indexOutOfBounds (f.pathOrEmpty array) index items.length)
      | some item =>
        .ok (f.value item, f.shrinkage array items index item)
    | _ => .error (.notAnArray (f.pathOrEmpty array))

end ReactiveForm.Form
