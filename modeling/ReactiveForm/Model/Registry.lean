import ReactiveForm.Model.Basic

/-!
# Registered models

A registry keeps models by their names. The first model of a name stays: another one of the same
name is refused. A model without a default policy receives that of the registry when it is
registered. What a lookup returns is a value of its own, so that changing it leaves the registry as
it is.
-/

namespace ReactiveForm

/-- Models by their names. -/
structure Registry where
  /-- The policy of models without a default policy. -/
  defaultPolicy : ChangePolicy
  /-- The registered models, in ascending order of their names. -/
  models : List Model
deriving Inhabited

namespace Registry

/-- A registry without models under a configuration. -/
def ofConfig (c : Config) : Registry := ⟨.ofConfig c, []⟩

/-- The model of a name. -/
def get? (r : Registry) (name : String) : Option Model := r.models.find? fun m => m.name == name

/-- The model of a name, which has to be registered. -/
def require (r : Registry) (name : String) : Except FormError Model :=
  match r.get? name with
  | some m => .ok m
  | none => .error (.settingsNotFound name)

/-- Whether a model of the name is registered. -/
def contains (r : Registry) (name : String) : Bool := (r.get? name).isSome

/-- The registered names, in ascending order. -/
def names (r : Registry) : List String := r.models.map Model.name

/-- The model as the registry keeps it. -/
def fillPolicy (r : Registry) (m : Model) : Model :=
  { m with defaultPolicy := m.defaultPolicy.or (some r.defaultPolicy) }

/-- Put a model in front of the first one with a larger name. -/
def insertModel (m : Model) : List Model → List Model
  | [] => [m]
  | n :: ns => if m.name < n.name then m :: n :: ns else n :: insertModel m ns

/-- Register a model under its name. -/
def register (r : Registry) (m : Model) : Except FormError Registry :=
  if Text.isAllBlank m.name then .error .emptySettingsName
  else if r.contains m.name then .error (.duplicateSettings m.name)
  else .ok { r with models := insertModel (r.fillPolicy m) r.models }

end Registry

end ReactiveForm
