import ReactiveForm.Form.Basic
import ReactiveForm.Test.Document

/-!
# States as documents

The state of a control is written as an object. Errors that are not there are null, and messages of
callers stand under their keys.
-/

namespace ReactiveForm.ControlState

/-- Errors as a document. -/
def errorsToJson : Option TestResults → Json
  | some errors => errors.toJson
  | none => .null

/-- The messages of callers by their keys. -/
def externalToJson (s : ControlState) : Json :=
  .ofFields (s.externalErrors.map fun e => (e.1, .string e.2))

/-- The messages of all errors. -/
def messagesToJson (s : ControlState) : Json := .array (s.messages.map .string)

/-- The state as an object. -/
def toJson (s : ControlState) : Json :=
  .ofFields
    [ ("enabled", .bool s.enabled),
      ("visible", .bool s.visible),
      ("pending", .bool s.pending),
      ("sync_errors", errorsToJson s.syncErrors),
      ("async_errors", errorsToJson s.asyncErrors),
      ("external_errors", s.externalToJson) ]

end ReactiveForm.ControlState
