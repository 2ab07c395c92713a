import ReactiveForm.Json.Basic
import ReactiveForm.Double.Shortest

/-!
# Writing a document

The text form of a document, on one line or indented. Strings escape the quote, the backslash and
the controls; every other character stands for itself. Numbers keep their class: an integer has
neither point nor exponent, every other number has one of them.
-/

namespace ReactiveForm.Json

/-- The hexadecimal digit of a number below sixteen, in lower case. -/
def hexDigit (n : Nat) : Char := "0123456789abcdef".toList.getD n '0'

/-- One character of a string. -/
def stringChar (c : Char) : List Char :=
  match c with
  | '"' => ['\\', '"']
  | '\\' => ['\\', '\\']
  | '\x08' => ['\\', 'b']
  | '\x0c' => ['\\', 'f']
  | '\n' => ['\\', 'n']
  | '\r' => ['\\', 'r']
  | '\t' => ['\\', 't']
  | c =>
    if c.toNat < 0x20 then ['\\', 'u', '0', '0', hexDigit (c.toNat / 16), hexDigit (c.toNat % 16)]
    else [c]

/-- A string between quotes. -/
def stringText (s : String) : String :=
  String.ofList ('"' :: (s.toList.flatMap stringChar ++ ['"']))

/-- The text of a document that holds no other one. -/
def scalarText : Json → String
  | null => "null"
  | bool true => "true"
  | bool false => "false"
  | natural n => toString n
  | negative n => "-" ++ toString (n + 1)
  | real x => x.text
  | string s => stringText s
  | array _ => "[]"
  | object _ => "\x7b\x7d"

mutual

/-- A document on one line. -/
def compact : Json → String
  | array items => "[" ++ compactItems "" items ++ "]"
  | object fields => "\x7b" ++ compactFields "" fields ++ "\x7d"
  | j => j.scalarText

/-- The items of an array, each behind a separator and the first one behind the given one. -/
def compactItems (separator : String) : List Json → String
  | [] => ""
  | j :: js => separator ++ compact j ++ compactItems "," js

/-- The fields of an object, each behind a separator and the first one behind the given one. -/
def compactFields (separator : String) : List (String × Json) → String
  | [] => ""
  | (k, j) :: js =>
    separator ++ stringText k ++ ":" ++ compact j ++ compactFields "," js

end

/-- A line break and the blanks of a nesting depth, two for each level. -/
def lineBreak (depth : Nat) : String :=
  String.ofList ('\n' :: List.replicate (2 * depth) ' ')

mutual

/-- A document with one member a line, at a nesting depth. Empty containers stay on their line. -/
def pretty (depth : Nat) : Json → String
  | array (j :: js) =>
    "[" ++ prettyItems "" (depth + 1) (j :: js) ++ lineBreak depth ++ "]"
  | object (f :: fs) =>
    "\x7b" ++ prettyFields "" (depth + 1) (f :: fs) ++ lineBreak depth ++ "\x7d"
  | j => j.scalarText

/-- The items of an array, each on its line. -/
def prettyItems (separator : String) (depth : Nat) : List Json → String
  | [] => ""
  | j :: js => separator ++ lineBreak depth ++ pretty depth j ++ prettyItems "," depth js

/-- The fields of an object, each on its line. -/
def prettyFields (separator : String) (depth : Nat) : List (String × Json) → String
  | [] => ""
  | (k, j) :: js =>
    separator ++ lineBreak depth ++ stringText k ++ ": " ++ pretty depth j
      ++ prettyFields "," depth js

end

end ReactiveForm.Json
