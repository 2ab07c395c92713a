import ReactiveForm.Form.Document
import ReactiveForm.Proofs.Json.RoundTrip
import ReactiveForm.Proofs.Test.Document

/-!
# States that are read from documents

A state is written as an object without numbers, so its text is read back (`legible_toJson`). The
object shows what the state is (`ControlState.shownBy_toJson`): three truth values, and two lists of
errors that are null where there are none.
-/

namespace ReactiveForm

/-! ## Documents without numbers -/

namespace Json

variable {depth : Nat}

theorem legible_ofFields {fields : List (String × Json)} (h : ∀ e ∈ fields, Legible depth e.2) :
    Legible (depth + 1) (ofFields fields) :=
  .object (Keyed.ascending_ofList fields) fun e he => h e (Keyed.mem_of_mem_ofList he)

theorem legible_strings (texts : List String) : Legible (depth + 1) (array (texts.map string)) := by
  refine .array fun j hj => ?_
  obtain ⟨text, -, rfl⟩ := List.mem_map.1 hj
  exact .string text

theorem legible_textField {key : String} {text : Option String} :
    ∀ e ∈ textField key text, Legible depth e.2 := by
  intro e he
  cases text with
  | none => cases he
  | some s =>
      cases List.mem_singleton.1 he
      exact .string s

theorem legible_result (r : TestResult) : Legible (depth + 1) r.toJson := by
  refine legible_ofFields fun e he => ?_
  rcases List.mem_append.1 he with he | he
  · rcases List.mem_append.1 he with he | he
    · rcases List.mem_append.1 he with he | he
      · exact legible_textField e he
      · exact legible_textField e he
    · cases List.mem_singleton.1 he
      exact .bool r.passed
  · split at he
    · cases List.mem_singleton.1 he
      exact .bool true
    · cases he

theorem legible_results (r : TestResults) : Legible (depth + 2) r.toJson := by
  refine .array fun j hj => ?_
  obtain ⟨result, -, rfl⟩ := List.mem_map.1 hj
  exact legible_result result

end Json

namespace ControlState

open Json

variable {depth : Nat} {s : ControlState} {j : Json}

theorem legible_errorsToJson (errors : Option TestResults) :
    Legible (depth + 2) (errorsToJson errors) := by
  cases errors with
  | none => exact .null
  | some errors => exact legible_results errors

theorem legible_messagesToJson (s : ControlState) : Legible (depth + 1) s.messagesToJson :=
  legible_strings s.messages

theorem legible_externalToJson (s : ControlState) : Legible (depth + 1) s.externalToJson := by
  refine legible_ofFields fun e he => ?_
  obtain ⟨message, -, rfl⟩ := List.mem_map.1 he
  exact .string message.2

theorem legible_toJson (s : ControlState) : Legible (depth + 3) s.toJson := by
  refine legible_ofFields ?_
  simp only [List.forall_mem_cons]
  exact ⟨.bool _, .bool _, .bool _, legible_errorsToJson _, legible_errorsToJson _,
    legible_externalToJson s, List.forall_mem_nil _⟩

/-! ## What a document shows -/

/-- The errors that a document stands for, of which null stands for none. -/
def errorsOfJson? : Json → Option (Option TestResults)
  | .null => some none
  | j => (TestResults.ofJson? j).map some

theorem errorsOfJson?_errorsToJson (errors : Option TestResults) :
    errorsOfJson? (errorsToJson errors) = some errors := by
  cases errors with
  | none => rfl
  | some errors => exact congrArg (Option.map some) errors.ofJson?_toJson

/-- The document has the truth values of the state, and stands for its errors. -/
structure ShownBy (s : ControlState) (j : Json) : Prop where
  enabled : j.field? "enabled" = some (.bool s.enabled)
  visible : j.field? "visible" = some (.bool s.visible)
  pending : j.field? "pending" = some (.bool s.pending)
  syncErrors : (j.field? "sync_errors").bind errorsOfJson? = some s.syncErrors
  asyncErrors : (j.field? "async_errors").bind errorsOfJson? = some s.asyncErrors

theorem shownBy_toJson (s : ControlState) : s.ShownBy s.toJson := by
  have hfield : ∀ {key value}, (key, value) ∈ [("enabled", Json.bool s.enabled),
      ("visible", .bool s.visible), ("pending", .bool s.pending),
      ("sync_errors", errorsToJson s.syncErrors), ("async_errors", errorsToJson s.asyncErrors),
      ("external_errors", s.externalToJson)] → s.toJson.field? key = some value := fun hmem =>
    (Json.field?_ofFields (by simp)).2 hmem
  have hsync : s.toJson.field? "sync_errors" = some (errorsToJson s.syncErrors) :=
    hfield (by simp)
  have hasync : s.toJson.field? "async_errors" = some (errorsToJson s.asyncErrors) :=
    hfield (by simp)
  refine ⟨hfield (by simp), hfield (by simp), hfield (by simp), ?_, ?_⟩
  · rw [hsync]
    exact errorsOfJson?_errorsToJson s.syncErrors
  · rw [hasync]
    exact errorsOfJson?_errorsToJson s.asyncErrors

end ControlState

end ReactiveForm
