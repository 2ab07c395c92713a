import ReactiveForm.Test.Basic

/-!
# Results as documents

A result is written as an object. A missing name, a missing message and a skip mark that is not set
are left out, and are filled in again when the object is read. An object is read if its mark of
success is a truth value, its name and message are texts, null or missing, and its skip mark is a
truth value or missing; other fields are ignored.

A result can also be read from a row of its parts: the name, the message, the mark of success and
the skip mark. The row may end behind the mark of success, and has nothing behind the skip mark.
-/

namespace ReactiveForm

/-- A field with a text, left out if there is none. -/
def textField (key : String) : Option String → List (String × Json)
  | some s => [(key, .string s)]
  | none => []

/-- The text of a part that may be missing or null. The outer option is none where the part is
something else. -/
def readText? : Option Json → Option (Option String)
  | none => some none
  | some .null => some none
  | some (.string s) => some (some s)
  | some _ => none

/-- The truth value of a mark that is not set where it is missing. -/
def readMark? : Option Json → Option Bool
  | none => some false
  | some mark => mark.bool?

namespace TestResult

/-- A result as an object. -/
def toJson (r : TestResult) : Json :=
  .ofFields (textField "name" r.name ++ textField "message" r.message
    ++ [("passed", .bool r.passed)] ++ if r.skipped then [("skipped", .bool true)] else [])

/-- The result of four parts. -/
def ofParts? (name message passed skipped : Option Json) : Option TestResult := do
  let name ← readText? name
  let message ← readText? message
  let passed ← passed.bind Json.bool?
  let skipped ← readMark? skipped
  pure ⟨name, message, passed, skipped⟩

/-- The result that a document describes. -/
def ofJson? (j : Json) : Option TestResult :=
  match j with
  | .object _ =>
    ofParts? (j.field? "name") (j.field? "message") (j.field? "passed") (j.field? "skipped")
  | .array parts =>
    if parts.length ≤ 4 then ofParts? parts[0]? parts[1]? parts[2]? parts[3]? else none
  | _ => none

end TestResult

namespace TestResults

/-- The results as an array. -/
def toJson (r : TestResults) : Json := .array (r.results.map TestResult.toJson)

/-- The results that an array describes. -/
def ofJson? : Json → Option TestResults
  | .array items => (items.mapM TestResult.ofJson?).map TestResults.mk
  | _ => none

end TestResults

end ReactiveForm
