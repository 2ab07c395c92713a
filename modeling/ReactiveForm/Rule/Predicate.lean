import ReactiveForm.Rule.Basic

/-!
# Predicates

A small language of conditions on a value and its document, from which rules can be made. A
condition can be moved to another place of the value or of the document; what it says about the
document stays a statement about the whole document.
-/

namespace ReactiveForm

/-- A step into a document. -/
inductive Segment where
  /-- To the field of an object. -/
  | key (name : String)
  /-- To the item of an array. -/
  | index (n : Nat)
  /-- To nothing. -/
  | nowhere
deriving DecidableEq, Inhabited

/-- The document one step further in, null where the step does not fit. -/
def Json.enter (j : Json) : Segment → Json
  | .key name => j.field name
  | .index n => j.item n
  | .nowhere => .null

/-- The document at a place. -/
def Json.place (j : Json) (segments : List Segment) : Json := segments.foldl Json.enter j

/-- A condition on a value and its document. -/
inductive Predicate where
  /-- Holds always or never. -/
  | const (b : Bool)
  /-- The value equals a given one. -/
  | eq (v : Json)
  /-- The value is of a class. -/
  | kind (c : Json.Class)
  /-- The value is a natural number that is large enough. -/
  | min (n : Nat)
  /-- The value is a text, array or object that is long enough. -/
  | minSize (n : Nat)
  /-- A condition holds at a place of the document. -/
  | inRoot (segments : List Segment) (p : Predicate)
  /-- A condition holds at a place of the value. -/
  | inValue (segments : List Segment) (p : Predicate)
  /-- The value equals the one at a place of the document. -/
  | sameAsRoot (segments : List Segment)
  /-- A condition does not hold. -/
  | not (p : Predicate)
deriving Inhabited

/-- Whether a condition holds of a value in a document. -/
def Predicate.holds (value root : Json) : Predicate → Bool
  | const b => b
  | eq v => value == v
  | kind c => value.kind == c
  | min n => value.natural?.any (n ≤ ·)
  | minSize n => value.size?.any (n ≤ ·)
  | inRoot segments p => p.holds (root.place segments) root
  | inValue segments p => p.holds (value.place segments) root
  | sameAsRoot segments => value == root.place segments
  | not p => !p.holds value root

/-- The rule that checks one condition at once and inquires into another one. -/
def Rule.ofPredicates (label : Option String) (check inquiry : Option Predicate) (delay : Nat)
    (dependencies : List String) : Rule :=
  { label
    check := check.map fun p value root => p.holds value root
    inquiry := inquiry.map fun p value root => ⟨p.holds value root, delay⟩
    dependencies }

end ReactiveForm
