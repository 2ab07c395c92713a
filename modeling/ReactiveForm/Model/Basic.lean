import ReactiveForm.Property.Basic

/-!
# Models

A model is a name with a list of properties. Every property in it is placed: it knows its path from
the top of the model and the name of the model.
-/

namespace ReactiveForm

/-- A named list of properties. -/
structure Model where
  /-- The name of the model. -/
  name : String
  /-- The properties at the top. -/
  properties : List Property
  /-- The policy of properties without one of their own. Without it the engine's defaults count. -/
  defaultPolicy : Option ChangePolicy
deriving Inhabited

namespace Model

/-- The name of models that nobody named. -/
def adhocName : String := "adhoc"

/-- The model with a further property at the top. -/
def add (m : Model) (p : Property) : Model :=
  { m with properties := m.properties ++ [p.place m.name ""] }

/-- The model of a name and a list of properties. The name must not be blank. -/
def ofProperties (name : String) (properties : List Property) : Except FormError Model :=
  if Text.isAllBlank name then .error .emptySettingsName
  else .ok (properties.foldl add ⟨name, [], none⟩)

/-- The model with a default policy. -/
def withDefaultPolicy (m : Model) (policy : ChangePolicy) : Model :=
  { m with defaultPolicy := some policy }

/-- All properties of the model, from the top down and from left to right. -/
def nodes (m : Model) : List Property := m.properties.flatMap Property.nodes

/-- The property of a path. -/
def property? (m : Model) (path : String) : Option Property :=
  match Text.cut '.' path with
  | [] => none
  | first :: segments =>
    (m.properties.find? fun p => p.segment == first).bind fun p => p.descend? segments

/-- The property that a path with indices is an instance of. -/
def propertyFor? (m : Model) (concrete : String) : Option Property :=
  (m.nodes.find? fun p => p.matchesPath concrete).bind fun p => m.property? p.path

end Model

end ReactiveForm
