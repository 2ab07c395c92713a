import ReactiveForm.Text.Quoted

/-!
# Errors

What can go wrong when a model is described, looked up or edited as a form. A rule that fails is not
an error but a result, and a dependency path that leads nowhere is ignored.

Each cause is a constructor with the data that its message needs; `FormError.message` holds all the
wording. Names and paths appear quoted, so that blanks and controls in them can be seen.
-/

namespace ReactiveForm

/-- A control of a form, by its number in the order of creation. Numbers are never used again. -/
abbrev ControlId := Nat

/-- Why a name cannot be the name of a property. -/
inductive NameFault where
  /-- It has no characters. -/
  | empty
  /-- It has only blank characters. -/
  | blank
  /-- It holds a character that separates the parts of a path. -/
  | separator
  /-- It is the segment of array items. -/
  | reserved
deriving DecidableEq, Inhabited

/-- The fault in words, to be put behind the name. -/
def NameFault.reason : NameFault → String
  | empty => "must not be empty"
  | blank => "must not be whitespace"
  | separator => "must not contain '.' or '/'"
  | reserved => "is reserved for array items"

/-- What can go wrong. -/
inductive FormError where
  /-- A property cannot have this name. -/
  | invalidPropertyName (name : String) (fault : NameFault)
  /-- A model has a blank name. -/
  | emptySettingsName
  /-- A model of this name is registered already. -/
  | duplicateSettings (name : String)
  /-- No model of this name is registered. -/
  | settingsNotFound (name : String)
  /-- The form has no such control, or no longer. -/
  | unknownControl (id : ControlId)
  /-- Only a field has a value of its own. -/
  | notAField (path : String)
  /-- Only an array has items. -/
  | notAnArray (path : String)
  /-- An array has no item at this index, or no place for one. -/
  | indexOutOfBounds (path : String) (index length : Nat)
deriving DecidableEq, Inhabited

/-- The error in words. -/
def FormError.message : FormError → String
  | invalidPropertyName name fault =>
    "Invalid property name " ++ Text.quoted name ++ ": " ++ fault.reason
  | emptySettingsName => "Model settings name must not be empty"
  | duplicateSettings name => "Model settings " ++ Text.quoted name ++ " already registered"
  | settingsNotFound name => "Model settings " ++ Text.quoted name ++ " not found"
  | unknownControl id => "Unknown control #" ++ toString id
  | notAField path => "Control at " ++ Text.quoted path ++ " is not a field"
  | notAnArray path => "Control at " ++ Text.quoted path ++ " is not an array"
  | indexOutOfBounds path index length =>
    "Index " ++ toString index ++ " out of bounds for array " ++ Text.quoted path ++ " of length "
      ++ toString length

end ReactiveForm
