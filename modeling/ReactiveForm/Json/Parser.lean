import ReactiveForm.Json.Number

/-!
# Reading a document

A reader for the usual text form of documents: exact keywords, strings with escapes, no trailing
commas, blanks between tokens only. Of several fields with one key the last one counts.

## Shape of the reader

Each reader takes the characters in front of it and returns what it read together with the rest, or
nothing. `readValue` descends at most as deep as its second argument says. Its first argument bounds
the number of steps, and the length of the text is always enough: every step but those from a
container to its members takes a character.
-/

namespace ReactiveForm.Json

/-- The blanks between tokens. -/
def isSpace (c : Char) : Bool :=
  c == ' ' || c == '\n' || c == '\t' || c == '\r'

/-- The text without the blanks in front of it. -/
def skipSpace (cs : List Char) : List Char := cs.dropWhile isSpace

/-! ## Strings -/

/-- The value of a hexadecimal digit. -/
def hexValue? (c : Char) : Option Nat :=
  if '0' ≤ c ∧ c ≤ '9' then some (c.toNat - '0'.toNat)
  else if 'a' ≤ c ∧ c ≤ 'f' then some (c.toNat - 'a'.toNat + 10)
  else if 'A' ≤ c ∧ c ≤ 'F' then some (c.toNat - 'A'.toNat + 10)
  else none

/-- The value of four hexadecimal digits. -/
def hexUnit? (a b c d : Char) : Option Nat := do
  let a ← hexValue? a
  let b ← hexValue? b
  let c ← hexValue? c
  let d ← hexValue? d
  pure (((a * 16 + b) * 16 + c) * 16 + d)

/-- The character of an escape by a single letter. -/
def letterEscape? (c : Char) : Option Char :=
  match c with
  | '"' => some '"'
  | '\\' => some '\\'
  | '/' => some '/'
  | 'b' => some '\x08'
  | 'f' => some '\x0c'
  | 'n' => some '\n'
  | 'r' => some '\r'
  | 't' => some '\t'
  | _ => none

/-- Whether a code unit is the first half of a pair. -/
def isHighHalf (u : Nat) : Bool := 0xD800 ≤ u && u ≤ 0xDBFF

/-- Whether a code unit is the second half of a pair. -/
def isLowHalf (u : Nat) : Bool := 0xDC00 ≤ u && u ≤ 0xDFFF

/-- The character of a pair of code units. -/
def joinHalves (high low : Nat) : Char :=
  Char.ofNat (0x10000 + (high - 0xD800) * 0x400 + (low - 0xDC00))

/-- Read a string behind its opening quote. Controls have to be escaped. The second argument is the
first half of a pair whose other half has to come next. -/
def readString (done : String) : Option Nat → List Char → Option (String × List Char)
  | none, '"' :: cs => some (done, cs)
  | high, '\\' :: 'u' :: a :: b :: c :: d :: cs =>
    match hexUnit? a b c d, high with
    | none, _ => none
    | some u, none =>
      if isHighHalf u then readString done (some u) cs
      else if isLowHalf u then none
      else readString (done.push (Char.ofNat u)) none cs
    | some v, some u =>
      if isLowHalf v then readString (done.push (joinHalves u v)) none cs else none
  | some _, _ => none
  | none, '\\' :: c :: cs =>
    match letterEscape? c with
    | none => none
    | some c => readString (done.push c) none cs
  | none, c :: cs => if c.toNat < 0x20 then none else readString (done.push c) none cs
  | none, [] => none

/-! ## Documents -/

/-- Read a keyword. -/
def readKeyword (word : List Char) (value : Json) (cs : List Char) : Option (Json × List Char) :=
  if word.isPrefixOf cs then some (value, cs.drop word.length) else none

mutual

/-- Read a document, blanks in front of it included. -/
def readValue : Nat → Nat → List Char → Option (Json × List Char)
  | 0, _, _ => none
  | steps + 1, depth, cs =>
    match skipSpace cs with
    | 'n' :: cs => readKeyword ['u', 'l', 'l'] null cs
    | 't' :: cs => readKeyword ['r', 'u', 'e'] (bool true) cs
    | 'f' :: cs => readKeyword ['a', 'l', 's', 'e'] (bool false) cs
    | '"' :: cs => (readString "" none cs).map fun r => (string r.1, r.2)
    | '[' :: cs =>
      match depth with
      | 0 => none
      | depth + 1 =>
        match skipSpace cs with
        | ']' :: cs => some (array [], cs)
        | cs => readItems steps depth [] cs
    | '{' :: cs =>
      match depth with
      | 0 => none
      | depth + 1 =>
        match skipSpace cs with
        | '}' :: cs => some (object [], cs)
        | cs => readFields steps depth [] cs
    | cs => readNumber cs

/-- Read the items of an array from the first one on. The items read so far are kept in reverse. -/
def readItems : Nat → Nat → List Json → List Char → Option (Json × List Char)
  | 0, _, _, _ => none
  | steps + 1, depth, done, cs =>
    match readValue steps depth cs with
    | none => none
    | some (item, cs) =>
      match skipSpace cs with
      | ',' :: cs => readItems steps depth (item :: done) cs
      | ']' :: cs => some (array (item :: done).reverse, cs)
      | _ => none

/-- Read the fields of an object from the first one on. The fields read so far are kept in
reverse. -/
def readFields : Nat → Nat → List (String × Json) → List Char → Option (Json × List Char)
  | 0, _, _, _ => none
  | steps + 1, depth, done, cs =>
    match skipSpace cs with
    | '"' :: cs =>
      match readString "" none cs with
      | none => none
      | some (key, cs) =>
        match skipSpace cs with
        | ':' :: cs =>
          match readValue steps depth cs with
          | none => none
          | some (value, cs) =>
            match skipSpace cs with
            | ',' :: cs => readFields steps depth ((key, value) :: done) cs
            | '}' :: cs => some (ofFields ((key, value) :: done).reverse, cs)
            | _ => none
        | _ => none
    | _ => none

end

/-- Read a text that is one document with containers nested at most `depth` deep. -/
def parseWithin (depth : Nat) (text : String) : Option Json :=
  let cs := text.toList
  match readValue (2 * cs.length + 2) depth cs with
  | some (j, rest) => if (skipSpace rest).isEmpty then some j else none
  | none => none

/-- How deep the containers of a document may be nested. -/
def maxDepth : Nat := 127

/-- Read a text that is one document. -/
def parse (text : String) : Option Json := parseWithin maxDepth text

end ReactiveForm.Json
