import ReactiveForm.Text.Quoted

/-!
# Texts for a terminal

A terminal takes some controls as the beginning of a command, for instance to change a colour. A
text from outside must not give such commands. A line of a log shows the controls by their codes,
and a message that is not written to a terminal leaves out the commands together with the controls.

## Shape of a command

A command starts with the escape control. A bracket behind it starts a list of parameters, which a
letter ends; the other bracket starts a title, which the bell ends; a few letters start a string,
which the byte `0x9C` ends, be it a part of a character. A command to the device is a string, too,
but has a head in front of it, with parameters and signs and with a letter as its end. A head that
breaks this order is the beginning of a string already. Any other letter ends the command at once.
An escape control starts another command, and the controls cancel and substitute give it up.
-/

namespace ReactiveForm.Text

/-! ## Lines of a log -/

/-- A character as a line of a log shows it. -/
def loggedChar (c : Char) : List Char :=
  let n := c.toNat
  if c ∈ ['\x07', '\x08', '\x0c', '\x1b', '\x7f'] then
    ['\\', 'x', Nat.digitChar (n / 16), Nat.digitChar (n % 16)]
  else if 0x80 ≤ n ∧ n ≤ 0x9F then codePointEscape c
  else [c]

/-- A text as a line of a log shows it. -/
def logged (s : String) : String := String.ofList (s.toList.flatMap loggedChar)

/-! ## Messages without commands -/

/-- Where in a command a character stands. -/
inductive Command where
  /-- In none. -/
  | none
  /-- Behind the escape control. -/
  | escape
  /-- Behind the escape control and a sign that does not end the command. -/
  | sign
  /-- In a list of parameters. -/
  | parameters
  /-- In a title. -/
  | title
  /-- At the beginning of the head of a command to the device. -/
  | head
  /-- In the parameters of a head. -/
  | headParameters
  /-- Behind a sign of a head. -/
  | headSign
  /-- In a string. -/
  | string
deriving DecidableEq, Inhabited

namespace Command

/-- Whether the character is a control of ASCII, the delete control excepted. -/
def isControl (c : Char) : Bool := c.toNat < 0x20

/-- Whether the character is a sign of ASCII that can end a command. -/
def isFinal (first : Nat) (c : Char) : Bool := first ≤ c.toNat && c.toNat < 0x7F

/-- The command behind one more character. -/
def next (s : Command) (c : Char) : Command :=
  if c = '\x1b' then .escape
  else if c = '\x18' ∨ c = '\x1a' then .none
  else
    match s with
    | .none => .none
    | .escape =>
      if c = '[' then .parameters
      else if c = ']' then .title
      else if c = 'P' then .head
      else if c ∈ ['X', '^', '_'] then .string
      else if isFinal 0x30 c then .none
      else if isFinal 0x20 c then .sign
      else .escape
    | .sign => if isFinal 0x30 c then .none else .sign
    | .parameters => if isFinal 0x40 c then .none else .parameters
    | .title => if c = '\x07' then .none else .title
    | .head =>
      if isFinal 0x40 c then .string
      else if isFinal 0x30 c then .headParameters
      else if isFinal 0x20 c then .headSign
      else .head
    | .headParameters =>
      if isFinal 0x3C c then .string
      else if isFinal 0x30 c then .headParameters
      else if isFinal 0x20 c then .headSign
      else .headParameters
    | .headSign => if isFinal 0x30 c then .string else .headSign
    | .string => if (String.utf8EncodeChar c).contains 0x9C then .none else .string

/-- Whether a character outside of commands is written: everything but the controls that are no
blanks. -/
def isWritten (c : Char) : Bool :=
  c ∈ ['\t', '\n', '\x0c', '\r'] || !isControl c && c != '\x7f'

/-- Whether a character at some point of a command is written. Blank controls are, unless they
belong to a title, a head or a string. -/
def shows (s : Command) (c : Char) : Bool :=
  match s with
  | .none => isWritten c
  | .escape | .sign | .parameters => isControl c && isWritten c
  | .title | .head | .headParameters | .headSign | .string => false

/-- Write the rest of a text without its commands. The flag says whether the last character was
written. Where a blank control interrupts a command, what follows it is written, too, until a
character is left out again: then the command goes on. A character beyond ASCII ends it instead. -/
def strip (writing : Bool) (s : Command) : List Char → List Char
  | [] => []
  | c :: cs =>
    if writing && isWritten c || !writing && s.shows c then
      c :: strip true (if c.toNat < 0x80 then s else .none) cs
    else strip false (s.next c) cs

end Command

/-- A text without commands and controls. -/
def stripped (s : String) : String := String.ofList (Command.strip false .none s.toList)

end ReactiveForm.Text
