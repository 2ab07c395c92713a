import ReactiveForm.Model.Basic
import ReactiveForm.Stream

/-!
# Controls

A form consists of controls, one for each part of its document. A control is a field with a value of
its own, a group of named controls, or an array of controls. Beside its value it has a state, which
the engine and its callers write: whether it can be edited and seen, whether an inquiry is under
way, and the errors of its tests and of its callers.
-/

namespace ReactiveForm

/-- The observable state of a control. -/
structure ControlState where
  /-- Whether the control can be edited. -/
  enabled : Bool
  /-- Whether the control can be seen. -/
  visible : Bool
  /-- Whether an inquiry is under way. -/
  pending : Bool
  /-- The results of the validity tests by their checks, if one failed. -/
  syncErrors : Option TestResults
  /-- The results of the validity tests by their inquiries, if one failed. -/
  asyncErrors : Option TestResults
  /-- Messages that callers set, in ascending order of their keys. -/
  externalErrors : List (String × String)
deriving DecidableEq, Inhabited

namespace ControlState

/-- The state of a control before any test. -/
def initial : ControlState := ⟨true, true, false, none, none, []⟩

/-- Whether the control has no errors of any kind. -/
def isValid (s : ControlState) : Bool :=
  s.syncErrors.isNone && s.asyncErrors.isNone && s.externalErrors.isEmpty

/-- The messages of the failed tests, each once, and of the callers behind them. -/
def messages (s : ControlState) : List String :=
  let engine := s.syncErrors.toList ++ s.asyncErrors.toList
  distinct (engine.flatMap TestResults.messages) ++ s.externalErrors.map Prod.snd

/-- The state with a message of a caller. -/
def setExternal (s : ControlState) (key message : String) : ControlState :=
  { s with externalErrors := Keyed.insert key message s.externalErrors }

/-- Whether a caller has set a message under a key. -/
def hasExternal (s : ControlState) (key : String) : Bool := s.externalErrors.any (·.1 == key)

/-- The state without the message of a caller. -/
def clearExternal (s : ControlState) (key : String) : ControlState :=
  { s with externalErrors := s.externalErrors.filter (·.1 != key) }

end ControlState

/-- What a control has below it. -/
inductive Children where
  /-- Nothing. -/
  | none
  /-- Controls with names, in ascending order of the names. -/
  | named (controls : List (String × ControlId))
  /-- Controls in a row. -/
  | indexed (controls : List ControlId)
deriving DecidableEq, Inhabited

namespace Children

/-- The controls below a control, in order. -/
def ids : Children → List ControlId
  | none => []
  | named controls => controls.map Prod.snd
  | indexed controls => controls

/-- The control that a segment of a path leads to: the name of a part, or the index of an item. -/
def find? (segment : String) : Children → Option ControlId
  | none => Option.none
  | named controls => controls.lookup segment
  | indexed controls => (Text.readWord? segment).bind fun i => controls[i]?

/-- The segment that leads to a control. -/
def segment? (id : ControlId) : Children → Option String
  | none => Option.none
  | named controls => (controls.find? fun c => c.2 == id).map Prod.fst
  | indexed controls => (controls.findIdx? (· == id)).map toString

/-- Controls under their names. The last control of a name wins. -/
def ofNamed (controls : List (String × ControlId)) : Children := named (Keyed.ofList controls)

end Children

/-- The kinds of controls. -/
inductive ControlKind where
  /-- A control with a value of its own. -/
  | field
  /-- A control with named parts. -/
  | group
  /-- A control with items. -/
  | array
deriving DecidableEq, Inhabited

/-- The kind of a control by what it has below it. -/
def Children.kind : Children → ControlKind
  | none => .field
  | named _ => .group
  | indexed _ => .array

/-- A control of a form. -/
structure Control where
  /-- The control above. The root has none. -/
  parent : Option ControlId
  /-- The controls below. -/
  children : Children
  /-- The value of a field, null for the others. -/
  value : Json
  /-- The property that describes the control. The root has none. -/
  property : Option Property
  /-- The observable state. -/
  state : ControlState
deriving Inhabited

namespace Control

/-- A new control. -/
def create (parent : Option ControlId) (property : Option Property) (children : Children)
    (value : Json) : Control :=
  ⟨parent, children, value, property, .initial⟩

/-- The kind of the control. -/
def kind (c : Control) : ControlKind := c.children.kind

end Control

/-- A change to the structure of a form. -/
inductive StructureChange where
  /-- An array has a new item at an index. -/
  | inserted (array : ControlId) (index : Nat)
  /-- An array has lost its item at an index. -/
  | removed (array : ControlId) (index : Nat)
deriving DecidableEq, Inhabited

end ReactiveForm
