import ReactiveForm.Error
import ReactiveForm.Path
import ReactiveForm.Property.Policy
import ReactiveForm.Test.Basic
import ReactiveForm.Text.Basic

/-!
# Properties

A property describes a part of a document: a plain value, an object with named parts, or an array
all of whose items are described by one template. It carries the tests that say whether the part is
valid, may be edited and can be seen, and possibly a change policy of its own.

A property is described first and placed into a model afterwards. Placing it gives it and all
properties below it their paths, in which a template stands as the segment `[]`.
-/

namespace ReactiveForm

mutual

/-- What a property contains. -/
inductive Shape where
  /-- A plain value. -/
  | value
  /-- An object with parts. -/
  | object (children : List Property)
  /-- An array whose items all have the same description. -/
  | array (item : Property)

/-- The description of a part of a document. -/
structure Property where
  /-- The name of the part. A template of array items has none. -/
  name : Option String
  /-- The path in the model, empty before the property is placed. -/
  path : String
  /-- The name of the model, none before the property is placed. -/
  owner : Option String
  /-- The tests of validity. -/
  validTests : List Test
  /-- The tests of editability. -/
  editTests : List Test
  /-- The tests of visibility. -/
  viewTests : List Test
  /-- What the part contains. -/
  shape : Shape
  /-- The change policy, if it is not the default one. -/
  policy : Option ChangePolicy

end

instance : Inhabited Shape := ⟨.value⟩

instance : Inhabited Property := ⟨⟨none, "", none, [], [], [], .value, none⟩⟩

namespace Property

/-! ## Describing a property -/

/-- The segment that stands for array items in the path of a template. -/
def itemSegment : String := "[]"

/-- The template of array items, without any tests. -/
def template : Property := default

/-- What is wrong with the name of a property, if anything. -/
def nameFault? (name : String) : Option NameFault :=
  if name.isEmpty then some .empty
  else if Text.isAllBlank name then some .blank
  else if '.' ∈ name.toList ∨ '/' ∈ name.toList then some .separator
  else if name = itemSegment then some .reserved
  else none

/-- The property of a name, without any tests. -/
def named (name : String) : Except FormError Property :=
  match nameFault? name with
  | some fault => .error (.invalidPropertyName name fault)
  | none => .ok { template with name := some name }

/-- The property with a further test of validity. -/
def valid (p : Property) (t : Test) : Property := { p with validTests := p.validTests ++ [t] }

/-- The property with a further test of editability. -/
def edit (p : Property) (t : Test) : Property := { p with editTests := p.editTests ++ [t] }

/-- The property with a further test of visibility. -/
def view (p : Property) (t : Test) : Property := { p with viewTests := p.viewTests ++ [t] }

/-- The property as an object with the given parts. -/
def withChildren (p : Property) (children : List Property) : Property :=
  { p with shape := .object children }

/-- The property as an array with the given template. -/
def withItem (p : Property) (item : Property) : Property := { p with shape := .array item }

/-- The property with a change policy of its own. -/
def withPolicy (p : Property) (policy : ChangePolicy) : Property :=
  { p with policy := some policy }

/-! ## Looking at a property -/

/-- Whether the property is a template of array items. -/
def isItem (p : Property) : Bool := p.name.isNone

/-- What the property adds to a path. -/
def segment (p : Property) : String := p.name.getD itemSegment

/-- The parts of an object. -/
def children (p : Property) : List Property :=
  match p.shape with
  | .object children => children
  | _ => []

/-- The template of an array. -/
def item? (p : Property) : Option Property :=
  match p.shape with
  | .array item => some item
  | _ => none

/-- The part of an object that has a name. -/
def child? (p : Property) (name : String) : Option Property :=
  p.children.find? fun c => c.name == some name

/-- The policy of the property, or the default one. -/
def policyOr (p : Property) (defaults : ChangePolicy) : ChangePolicy := p.policy.getD defaults

/-! ## Placing a property -/

mutual

/-- Place a property of a model below a path. -/
def place (owner parent : String) : Property → Property
  | ⟨name, _, _, valid, edit, view, shape, policy⟩ =>
    let path := joinPath parent (name.getD itemSegment)
    ⟨name, path, some owner, valid, edit, view, placeShape owner path shape, policy⟩

/-- Place what a property contains. -/
def placeShape (owner parent : String) : Shape → Shape
  | .value => .value
  | .object children => .object (placeAll owner parent children)
  | .array item => .array (place owner parent item)

/-- Place the parts of an object. -/
def placeAll (owner parent : String) : List Property → List Property
  | [] => []
  | p :: ps => place owner parent p :: placeAll owner parent ps

end

/-! ## The properties below a property -/

mutual

/-- A property and everything below it, from the top down and from left to right. -/
def nodes : Property → List Property
  | p@⟨_, _, _, _, _, _, shape, _⟩ => p :: nodesOfShape shape

/-- Everything in what a property contains. -/
def nodesOfShape : Shape → List Property
  | .value => []
  | .object children => nodesOfAll children
  | .array item => nodes item

/-- Everything in the parts of an object. -/
def nodesOfAll : List Property → List Property
  | [] => []
  | p :: ps => nodes p ++ nodesOfAll ps

end

/-! ## Paths with indices -/

/-- Whether a segment of a concrete path fits a segment of a template path: an index fits the
segment of array items, and every segment fits itself. -/
def segmentFits (template concrete : String) : Bool :=
  template == concrete || template == itemSegment && (Text.readWord? concrete).isSome

/-- Whether two lists of segments have the same length and fit, segment by segment. -/
def segmentsFit : List String → List String → Bool
  | [], [] => true
  | t :: ts, c :: cs => segmentFits t c && segmentsFit ts cs
  | _, _ => false

/-- Whether a path with indices is an instance of the path of the property. -/
def matchesPath (p : Property) (concrete : String) : Bool :=
  segmentsFit (Text.cut '.' p.path) (Text.cut '.' concrete)

/-- The property that one segment leads to: the template of an array by its own segment, a part of
an object by its name. -/
def next? (p : Property) (segment : String) : Option Property :=
  match p.item? with
  | some item => if segment = item.segment then some item else none
  | none => p.child? segment

/-- The property that a list of segments leads to. -/
def descend? : Property → List String → Option Property
  | p, [] => some p
  | p, s :: segments => (p.next? s).bind fun q => q.descend? segments

end Property

end ReactiveForm
