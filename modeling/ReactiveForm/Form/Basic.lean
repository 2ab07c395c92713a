import ReactiveForm.Form.Control

/-!
# Forms

A form holds the controls for a document, numbered in the order of their creation, together with the
change stream of each control and the stream of structure changes. It also records the rules whose
checks were called, in order.

## Shape of the numbering

Control `0` is the root. A control is created before the controls below it, so a parent always has a
smaller number than its children. The number of a removed control is not given away again: its slot
stays, without a control and with a closed stream.
-/

namespace ReactiveForm

/-- The place of a control: the control, unless it was removed, and the stream of its values. -/
structure Slot where
  /-- The control. -/
  control : Option Control
  /-- The values that the control had, each sent when it or something below it changed. -/
  changes : Stream Json
deriving Inhabited

/-- A form. -/
structure Form where
  /-- The model that the form was made from. -/
  model : Model
  /-- The policy of properties without one of their own. -/
  defaults : ChangePolicy
  /-- How many values a change stream keeps, before rounding up. -/
  capacity : Nat
  /-- The controls by their numbers. -/
  slots : Array Slot
  /-- The changes to the structure. -/
  structureChanges : Stream StructureChange
  /-- The rules whose check was called, in order. -/
  called : List Rule
deriving Inhabited

namespace Form

/-! ## Single controls -/

/-- The number of the root. -/
def root : ControlId := 0

/-- The control of a number, unless it was removed. -/
def control? (f : Form) (id : ControlId) : Option Control := f.slots[id]?.bind Slot.control

/-- Whether the form has a control of this number. -/
def contains (f : Form) (id : ControlId) : Bool := (f.control? id).isSome

/-- The numbers of all controls, in the order of their creation. -/
def controls (f : Form) : List ControlId := (List.range f.slots.size).filter f.contains

/-- The kind of a control. -/
def kind? (f : Form) (id : ControlId) : Option ControlKind := (f.control? id).map Control.kind

/-- The parent of a control. -/
def parent? (f : Form) (id : ControlId) : Option ControlId := (f.control? id).bind Control.parent

/-- The property of a control. -/
def property? (f : Form) (id : ControlId) : Option Property := (f.control? id).bind Control.property

/-- The change policy of a control. -/
def policy (f : Form) (id : ControlId) : ChangePolicy :=
  match f.property? id with
  | some p => p.policyOr f.defaults
  | none => f.defaults

/-- The state of a control. -/
def state? (f : Form) (id : ControlId) : Option ControlState := (f.control? id).map Control.state

/-- Whether a control has no errors. A control that is not there is not valid. -/
def isValid (f : Form) (id : ControlId) : Bool := (f.state? id).any ControlState.isValid

/-- The change stream of a control, also of a removed one. -/
def changes? (f : Form) (id : ControlId) : Option (Stream Json) := f.slots[id]?.map Slot.changes

/-- Change a control. -/
def modify (f : Form) (id : ControlId) (change : Control → Control) : Form :=
  { f with slots := f.slots.modify id fun s => { s with control := s.control.map change } }

/-- Change the state of a control. -/
def modifyState (f : Form) (id : ControlId) (change : ControlState → ControlState) : Form :=
  f.modify id fun c => { c with state := change c.state }

/-! ## Walking the tree

The walks take as their first argument a bound on the number of steps. The number of slots is always
enough: on the way up the numbers fall, and on the way down they rise.
-/

/-- A control and its ancestors, from the inside out. -/
def lineageWithin (f : Form) : Nat → ControlId → List ControlId
  | 0, _ => []
  | n + 1, id =>
    match f.control? id with
    | none => []
    | some c =>
      match c.parent with
      | none => [id]
      | some parent => id :: f.lineageWithin n parent

/-- A control and its ancestors, from the inside out. -/
def lineage (f : Form) (id : ControlId) : List ControlId := f.lineageWithin f.slots.size id

/-- The segments on the way from the root to a control, the last one first. There are none if some
control on the way does not know its child any more. -/
def trailWithin (f : Form) : Nat → ControlId → Option (List String)
  | 0, _ => none
  | n + 1, id =>
    (f.control? id).bind fun c =>
      match c.parent with
      | none => some []
      | some parent =>
        (f.control? parent).bind fun p =>
          (p.children.segment? id).bind fun segment =>
            (f.trailWithin n parent).map fun trail => segment :: trail

/-- The path of a control from the root, with dots between its segments. -/
def path? (f : Form) (id : ControlId) : Option String :=
  (f.trailWithin f.slots.size id).map fun trail => ".".intercalate trail.reverse

/-- The value of a control: that of a field itself, or the one that a group or an array assembles
from the controls below it. The names of a group are in ascending order, as the keys of an object
are. -/
def valueWithin (f : Form) : Nat → ControlId → Json
  | 0, _ => .null
  | n + 1, id =>
    match f.control? id with
    | none => .null
    | some c =>
      match c.children with
      | .none => c.value
      | .named parts => .object (parts.map fun p => (p.1, f.valueWithin n p.2))
      | .indexed items => .array (items.map (f.valueWithin n))

/-- The value of a control, null if it is not there. -/
def value (f : Form) (id : ControlId) : Json := f.valueWithin f.slots.size id

/-- The value of the whole form. -/
def rootValue (f : Form) : Json := f.value root

/-- A control and everything below it. -/
def subtreeWithin (f : Form) : Nat → ControlId → List ControlId
  | 0, _ => []
  | n + 1, id =>
    match f.control? id with
    | none => []
    | some c => id :: c.children.ids.flatMap (f.subtreeWithin n)

/-- A control and everything below it, from the top down. -/
def subtree (f : Form) (id : ControlId) : List ControlId := f.subtreeWithin f.slots.size id

/-! ## Paths -/

/-- The child of a control that a segment leads to. -/
def child? (f : Form) (id : ControlId) (segment : String) : Option ControlId :=
  (f.control? id).bind fun c => c.children.find? segment

/-- How paths are followed in the form. -/
def navigator (f : Form) : Navigator ControlId := ⟨root, f.parent?, f.child?⟩

/-- The control that a path leads to from an anchor. -/
def resolve (f : Form) (anchor : ControlId) (path : String) : Option ControlId :=
  f.navigator.resolve anchor path

/-- The control that a path leads to from the root. -/
def get? (f : Form) (path : String) : Option ControlId := f.resolve root path

/-! ## Streams -/

/-- Send the current values of controls to their streams. -/
def publish (f : Form) (ids : List ControlId) : Form :=
  let outgoing := ids.filter f.contains
  let send (slots : Array Slot) (id : ControlId) : Array Slot :=
    slots.modify id fun s => { s with changes := s.changes.send (f.value id) }
  { f with slots := outgoing.foldl send f.slots }

/-- Send a change to the stream of structure changes. -/
def announce (f : Form) (change : StructureChange) : Form :=
  { f with structureChanges := f.structureChanges.send change }

/-- The form with an empty record of called rules. -/
def clearCalled (f : Form) : Form := { f with called := [] }

end Form

end ReactiveForm
