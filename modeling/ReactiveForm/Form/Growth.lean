import ReactiveForm.Form.Refresh
import ReactiveForm.Model.Registry

/-!
# Making controls from properties

A property and a document give a block of controls: one for the property, followed by those for the
parts of an object or the items of an array, each with its own block. The controls of a block are
numbered without gaps in this order.

Where the document lacks a part the part is null, and where it has no array the array is empty. Of
several parts with one name the last one is found under the name; the controls of the others exist,
but nothing leads to them.
-/

namespace ReactiveForm

mutual

/-- The controls for a shape, the first of them with the number `next`. -/
def Shape.block (parent : Option ControlId) (property : Option Property) (next : ControlId) :
    Shape → Json → List Control
  | .value, data => [.create parent property .none data]
  | .object children, data =>
    let (named, below) := Property.blockOfParts next (next + 1) children data
    .create parent property (.ofNamed named) .null :: below
  | .array item, data =>
    let (items, below) := data.items.foldl
      (fun (done : List ControlId × List Control) element =>
        let here := next + 1 + done.2.length
        (done.1 ++ [here], done.2 ++ Property.block (some next) here item element))
      ([], [])
    .create parent property (.indexed items) .null :: below

/-- The controls for a property, the first of them with the number `next`. -/
def Property.block (parent : Option ControlId) (next : ControlId) :
    Property → Json → List Control
  | p@⟨_, _, _, _, _, _, shape, _⟩, data => Shape.block parent (some p) next shape data

/-- The controls for the parts of an object, the first of them with the number `next`, and their
names with the numbers that they belong to. A part without a name has no controls. -/
def Property.blockOfParts (parent next : ControlId) :
    List Property → Json → List (String × ControlId) × List Control
  | [], _ => ([], [])
  | p :: parts, data =>
    match p.name with
    | none => Property.blockOfParts parent next parts data
    | some name =>
      let first := Property.block (some parent) next p (data.field name)
      let (named, rest) := Property.blockOfParts parent (next + first.length) parts data
      ((name, next) :: named, first ++ rest)

end

namespace Form

/-- The form with a block of controls behind its last one. -/
def append (f : Form) (block : List Control) : Form :=
  { f with
    slots := f.slots ++ (block.map fun c => ⟨some c, .ofCapacity f.capacity⟩).toArray }

/-- The numbers of the controls that a form has beyond a number. -/
def idsFrom (f : Form) (first : ControlId) : List ControlId :=
  (List.range f.slots.size).filter (first ≤ ·)

/-- The form of a model and a document under a configuration. All tests are run once. -/
def build (m : Model) (data : Json) (c : Config) : Form :=
  let capacity := max 1 c.channelCapacity
  let empty : Form :=
    { model := m
      defaults := m.defaultPolicy.getD (.ofConfig c)
      capacity
      slots := #[]
      structureChanges := .ofCapacity capacity
      called := [] }
  let f := empty.append (Shape.block none none root (.object m.properties) data)
  f.refreshNew (f.idsFrom root)

/-- The form of a registered model and a document under the standard configuration. -/
def buildNamed (r : Registry) (name : String) (data : Json) : Except FormError Form :=
  (r.require name).map fun m => build m data .standard

end Form

end ReactiveForm
