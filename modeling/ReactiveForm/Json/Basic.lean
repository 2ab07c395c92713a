import ReactiveForm.Double.Basic

/-!
# Documents

The values that forms hold and rules look at. A document keeps three classes of numbers apart, by
how they are written: natural numbers, negative integers, and numbers with a point or an exponent.
Numbers of different classes are never equal, so `18` and `18.0` differ.

## Shape of an object

An object lists its fields in ascending order of their keys, each key once. `Keyed.ofList` makes
such a list from entries in any order. `Json.ofFields` builds an object so from any list of fields,
and for such objects `Json.same` is equality without regard to the order in which the fields were
written.
-/

namespace ReactiveForm

/-! ## Lists with keys -/

namespace Keyed

variable {α : Type}

/-- Put an entry into a list, in place of an entry with the same key. -/
def insert (key : String) (value : α) : List (String × α) → List (String × α)
  | [] => [(key, value)]
  | (k, v) :: rest =>
    if key < k then (key, value) :: (k, v) :: rest
    else if key = k then (key, value) :: rest
    else (k, v) :: insert key value rest

/-- The list of the given entries. The last entry of a key wins. -/
def ofList (entries : List (String × α)) : List (String × α) :=
  entries.foldl (fun sorted e => insert e.1 e.2 sorted) []

end Keyed

/-! ## Documents -/

/-- A document. -/
inductive Json where
  /-- The value of everything that is not there. -/
  | null
  /-- A truth value. -/
  | bool (b : Bool)
  /-- A natural number below `2 ^ 64`. -/
  | natural (n : Nat)
  /-- The negative integer `-(n + 1)`, not below `-2 ^ 63`. -/
  | negative (n : Nat)
  /-- A number written with a point or an exponent, or too large for an integer. -/
  | real (x : Double)
  /-- A text. -/
  | string (s : String)
  /-- A list of documents. -/
  | array (items : List Json)
  /-- A record of documents, in ascending order of the keys. -/
  | object (fields : List (String × Json))
deriving Inhabited

namespace Json

/-! ## Equality -/

mutual

/-- Whether two documents are equal. -/
def same : Json → Json → Bool
  | null, null => true
  | bool a, bool b => a == b
  | natural a, natural b => a == b
  | negative a, negative b => a == b
  | real a, real b => a.equal b
  | string a, string b => a == b
  | array as, array bs => sameItems as bs
  | object as, object bs => sameFields as bs
  | _, _ => false

/-- Whether two lists of documents are equal, item by item. -/
def sameItems : List Json → List Json → Bool
  | [], [] => true
  | a :: as, b :: bs => same a b && sameItems as bs
  | _, _ => false

/-- Whether two lists of fields have the same keys and equal documents, field by field. -/
def sameFields : List (String × Json) → List (String × Json) → Bool
  | [], [] => true
  | (k, a) :: as, (l, b) :: bs => k == l && same a b && sameFields as bs
  | _, _ => false

end

instance : BEq Json := ⟨same⟩

/-! ## Objects -/

/-- The object with the given fields. The last field of a key wins. -/
def ofFields (fields : List (String × Json)) : Json := object (Keyed.ofList fields)

/-- The field of an object; a document that is no object has none. -/
def field? (key : String) : Json → Option Json
  | object fields => fields.lookup key
  | _ => none

/-- The field of an object, null if it is not there. -/
def field (key : String) (j : Json) : Json := (j.field? key).getD null

/-- The items of an array; a document that is no array has none. -/
def items : Json → List Json
  | array items => items
  | _ => []

/-- The item of an array at an index, null if it is not there. -/
def item (index : Nat) (j : Json) : Json := j.items[index]?.getD null

/-! ## Views of single classes -/

/-- The natural number that a document is, if it is one. -/
def natural? : Json → Option Nat
  | natural n => some n
  | _ => none

/-- The text that a document is, if it is one. -/
def string? : Json → Option String
  | string s => some s
  | _ => none

/-- The truth value that a document is, if it is one. -/
def bool? : Json → Option Bool
  | bool b => some b
  | _ => none

/-- Whether the document is null. -/
def isNull : Json → Bool
  | null => true
  | _ => false

/-- The classes of documents that a rule can ask for. -/
inductive Class where
  | null | bool | number | string | array | object
deriving DecidableEq, Inhabited

/-- The class of a document. -/
def kind : Json → Class
  | null => .null
  | bool _ => .bool
  | natural _ | negative _ | real _ => .number
  | string _ => .string
  | array _ => .array
  | object _ => .object

/-- The number of characters, items or fields; other documents have no size. -/
def size? : Json → Option Nat
  | string s => some s.length
  | array items => some items.length
  | object fields => some fields.length
  | _ => none

end Json

end ReactiveForm
