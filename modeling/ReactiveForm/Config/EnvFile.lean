import ReactiveForm.Config.Environment
import ReactiveForm.Text.Alphanumeric
import ReactiveForm.Text.Basic

/-!
# Environment files

A text that sets variables, one in a line: `NAME=value`, possibly behind the word `export`. Lines
that are blank or start with `#` set nothing.

## Shape of a line

A line ends at a line break that stands outside of quotes and is not escaped, so that a quoted value
may run over several lines. A `#` behind a blank starts a comment that ends the line.

## Shape of a value

Single quotes keep everything as it is. Double quotes keep blanks. In double quotes and outside of
quotes a backslash takes the next character literally, with `\n` for a line break, and `$NAME` or
the same with braces stands for the value of a variable: the one in the environment if it is there,
the one set earlier in the text otherwise. Outside of quotes a blank ends the value.
-/

namespace ReactiveForm.EnvFile

open Text (isBlank isAlphanumeric)

/-! ## Lines -/

/-- The lines of a text, each with its line break. -/
def physicalLines : List Char → List (List Char)
  | [] => []
  | c :: cs =>
    if c = '\n' then [c] :: physicalLines cs
    else
      match physicalLines cs with
      | [] => [[c]]
      | l :: ls => (c :: l) :: ls

/-- Where the end of a line may be found. -/
inductive Scan where
  /-- Nothing is open. -/
  | complete
  /-- The next character is escaped. -/
  | escape
  /-- Inside single quotes. -/
  | strong
  /-- Inside single quotes behind a backslash. -/
  | strongEscape
  /-- Inside double quotes. -/
  | weak
  /-- Inside double quotes behind a backslash. -/
  | weakEscape
  /-- Behind a blank, where a comment may start. -/
  | blank
deriving DecidableEq, Inhabited

/-- The scan behind a character that is neither in quotes nor escaped. -/
def Scan.enter (c : Char) : Scan :=
  if c = '\\' then .escape else if c = '"' then .weak else if c = '\'' then .strong else .complete

/-- The scan behind one more character. -/
def Scan.next (s : Scan) (c : Char) : Scan :=
  match s with
  | .blank => .enter c
  | .escape => .complete
  | .complete => if isBlank c ∧ c ≠ '\n' ∧ c ≠ '\r' then .blank else .enter c
  | .weak => if c = '\\' then .weakEscape else if c = '"' then .complete else .weak
  | .weakEscape => .weak
  | .strong => if c = '\\' then .strongEscape else if c = '\'' then .complete else .strong
  | .strongEscape => .strong

/-- Scan a line. The result is the scan at its end, or none together with the text in front of a
comment. -/
def scanLine (s : Scan) : List Char → Option Scan × List Char
  | [] => (some s, [])
  | c :: cs =>
    if s = .blank ∧ c = '#' then (none, [])
    else
      let (last, kept) := scanLine (s.next c) cs
      (last, c :: kept)

/-- A line without its line break. -/
def dropBreak (line : List Char) : List Char :=
  match line.reverse with
  | '\n' :: '\r' :: rest => rest.reverse
  | '\n' :: rest => rest.reverse
  | _ => line

/-- Gather the lines of a text from its physical lines. The first two arguments belong to the line
that is still open. A text that ends inside of a line has none as its last line. -/
def gather (s : Scan) (begun : List Char) : List (List Char) → List (Option (List Char))
  | [] => if s = .complete then [] else [none]
  | l :: ls =>
    if ((begun ++ l).dropWhile isBlank).head? = some '#' then some [] :: gather .complete [] ls
    else
      match scanLine s l with
      | (none, kept) => some (begun ++ kept) :: gather .complete [] ls
      | (some .complete, _) => some (dropBreak (begun ++ l)) :: gather .complete [] ls
      | (some s, _) => gather s (begun ++ l) ls

/-- The lines of a text. -/
def lines (text : String) : List (Option (List Char)) :=
  gather .complete [] (physicalLines text.toList)

/-! ## Values -/

/-- The quotes in which a character of a value stands. -/
inductive Quote where
  /-- Outside of quotes. -/
  | none
  /-- In double quotes. -/
  | weak
  /-- In single quotes. -/
  | strong
deriving DecidableEq, Inhabited

/-- The variable reference that is being read. -/
inductive Reference where
  /-- No reference. -/
  | none
  /-- A name without braces. -/
  | bare
  /-- A name in braces. -/
  | braced
deriving DecidableEq, Inhabited

/-- A value that has been read up to some character. -/
structure Reading where
  /-- The open quotes. -/
  quote : Quote
  /-- Whether the next character is escaped. -/
  escaped : Bool
  /-- The open reference. -/
  reference : Reference
  /-- The name in the open reference. -/
  name : List Char
  /-- The value so far. -/
  output : List Char
deriving Inhabited

namespace Reading

/-- The value before the first character. -/
def start : Reading := ⟨.none, false, .none, [], []⟩

/-- The value with one more character. -/
def push (r : Reading) (c : Char) : Reading := { r with output := r.output ++ [c] }

/-- The value with the open reference resolved. -/
def resolve (vars : String → Option String) (r : Reading) : Reading :=
  let value := if r.name.isEmpty then "" else (vars (String.ofList r.name)).getD ""
  { r with name := [], reference := .none, output := r.output ++ value.toList }

/-- Read one more character while a reference is open. -/
def stepReference (vars : String → Option String) (r : Reading) (c : Char) : Reading :=
  if isAlphanumeric c then { r with name := r.name ++ [c] }
  else if r.reference = .braced then
    if c = '}' then r.resolve vars else { r with name := r.name ++ [c] }
  else if c = '{' ∧ r.name.isEmpty then { r with reference := .braced }
  else if c = '$' then { r.resolve vars with reference := .bare }
  else (r.resolve vars).push c

/-- Read an escaped character. -/
def stepEscaped? (r : Reading) (c : Char) : Option Reading :=
  if c ∈ ['\\', '\'', '"', '$', ' '] then some { r.push c with escaped := false }
  else if c = 'n' then some { r.push '\n' with escaped := false }
  else none

/-- Read a character where neither an escape nor a reference is open and which does not end the
value. -/
def stepPlain (r : Reading) (c : Char) : Reading :=
  if r.quote = .strong then if c = '\'' then { r with quote := .none } else r.push c
  else if c = '$' then { r with reference := .bare }
  else if c = '\\' then { r with escaped := true }
  else if r.quote = .weak then if c = '"' then { r with quote := .none } else r.push c
  else if c = '\'' then { r with quote := .strong }
  else if c = '"' then { r with quote := .weak }
  else r.push c

/-- Whether a character at this point is outside of everything that could be open. -/
def isBare (r : Reading) : Bool :=
  r.quote == .none && !r.escaped && r.reference == .none

end Reading

/-- Whether nothing but blanks and a comment follows a value. -/
def endsValue (cs : List Char) : Bool :=
  match cs.dropWhile fun c => c = ' ' || c = '\t' with
  | [] => true
  | c :: _ => c == '#'

/-- Read a value to its end. -/
def readValue? (vars : String → Option String) (r : Reading) : List Char → Option String
  | [] =>
    if r.reference = .braced ∨ r.quote ≠ .none then none
    else some (String.ofList (r.resolve vars).output)
  | c :: cs =>
    if r.escaped then (r.stepEscaped? c).bind fun r => readValue? vars r cs
    else if r.reference ≠ .none then readValue? vars (r.stepReference vars c) cs
    else if r.isBare ∧ (c = ' ' ∨ c = '\t') then
      if endsValue cs then some (String.ofList r.output) else none
    else readValue? vars (r.stepPlain c) cs

/-! ## Assignments -/

/-- Whether a character may start a name. -/
def isNameStart (c : Char) : Bool := c.isAlpha || c == '_'

/-- Whether a character may stand in a name. -/
def isNamePart (c : Char) : Bool := c.isAlphanum || c == '_' || c == '.'

/-- Read a name, and drop the blanks behind it. -/
def readName? (cs : List Char) : Option (String × List Char) :=
  if (cs.head?.map isNameStart).getD false then
    some (String.ofList (cs.takeWhile isNamePart), (cs.dropWhile isNamePart).dropWhile isBlank)
  else none

/-- Read the name of an assignment up to and with its equals sign. The word `export` may stand in
front of the name, or be the name. -/
def readTarget? (cs : List Char) : Option (String × List Char) :=
  match readName? cs with
  | none => none
  | some (name, '=' :: rest) => some (name, rest)
  | some ("export", rest) =>
    match readName? rest with
    | some (name, '=' :: rest) => some (name, rest)
    | _ => none
  | some _ => none

/-- What a line says. -/
inductive Entry where
  /-- Nothing. -/
  | blank
  /-- The value of a variable. -/
  | assign (name value : String)
deriving DecidableEq, Inhabited

/-- Whether a line, or what is left of it, is blank or a comment. -/
def isIdle (cs : List Char) : Bool := cs.isEmpty || cs.head? == some '#'

/-- Read a line. -/
def readLine? (vars : String → Option String) (line : List Char) : Option Entry :=
  let cs := Text.trimChars line
  if isIdle cs then some .blank
  else
    (readTarget? cs).bind fun (name, rest) =>
      let rest := rest.dropWhile isBlank
      if isIdle rest then some (.assign name "")
      else (readValue? vars .start rest).map fun value => .assign name value

/-! ## Whole texts -/

/-- Variables with their values, the latest assignment first. -/
abbrev Assignments := List (String × String)

/-- The first of two values that is there: of the environment, or of the assignments. -/
def lookup (env : String → Option String) (set : Assignments) (name : String) : Option String :=
  (env name).or (set.lookup name)

/-- Read lines on top of earlier assignments. -/
def readLines? (env : String → Option String) (set : Assignments) :
    List (Option (List Char)) → Option Assignments
  | [] => some set
  | none :: _ => none
  | some line :: rest =>
    match readLine? (lookup env set) line with
    | none => none
    | some .blank => readLines? env set rest
    | some (.assign name value) => readLines? env ((name, value) :: set) rest

/-- The assignments of a text that is well formed as a whole. -/
def parse? (env : String → Option String) (text : String) : Option Assignments :=
  readLines? env [] (lines text)

/-- Read lines into an environment. A variable that is there already keeps its value. The first
line that is not well formed ends the reading. There is no result if a value holds the character
with the code zero, which an environment cannot hold. -/
def addLines? (e : Environment) : List (Option (List Char)) → Option Environment
  | [] => some e
  | none :: _ => some e
  | some line :: rest =>
    match readLine? e.get? line with
    | none => some e
    | some .blank => addLines? e rest
    | some (.assign name value) =>
      if (e.get? name).isSome then addLines? e rest
      else if '\x00' ∈ value.toList then none
      else addLines? (e.add name value) rest

/-- A text without a byte order mark in front of it. -/
def dropMark (text : String) : String :=
  match text.toList with
  | '\ufeff' :: cs => String.ofList cs
  | _ => text

/-- An environment with the variables that a text adds to it, if it can hold them. -/
def load? (e : Environment) (text : String) : Option Environment :=
  addLines? e (lines (dropMark text))

end ReactiveForm.EnvFile
