import ReactiveForm.Text.Pieces
import ReactiveForm.Text.Terminal

/-!
# Options of the command line

The command line takes options with values, `--data`, `--set` and `--env-file`, and the flags
`--help` and `--version`. A value follows its option as the next argument or behind an equals sign.
The environment may stand in for `--env-file`.

## Shape of the reading

Arguments are read from left to right, and the first one that cannot be used ends the reading. An
option that waits for its value is only looked at again when the next option comes or the arguments
end: an argument that is no option at all is reported before an option that has no value.
-/

namespace ReactiveForm.Checker

/-- The options with values. -/
inductive OptionName where
  /-- The document to be checked. -/
  | data
  /-- An edit of the form. -/
  | set
  /-- The file with the settings. -/
  | envFile
deriving DecidableEq, Inhabited

namespace OptionName

/-- The option behind its two dashes. -/
def word : OptionName → String
  | data => "data"
  | set => "set"
  | envFile => "env-file"

/-- The option of a word. -/
def ofWord? (word : String) : Option OptionName :=
  [data, set, envFile].find? fun o => o.word == word

/-- The option together with the name of its value. -/
def usage : OptionName → String
  | data => "--data <DATA>"
  | set => "--set <PATH=JSON>"
  | envFile => "--env-file <ENV_FILE>"

end OptionName

/-- What the arguments ask for. -/
structure Options where
  /-- The file with the document. Without it the standard input is read. -/
  data : Option String
  /-- The edits, in order. -/
  edits : List String
  /-- The file with the settings. -/
  envFile : Option String
deriving DecidableEq, Inhabited

/-- What can be wrong with the arguments. -/
inductive UsageError where
  /-- An argument that is no option. -/
  | unexpected (argument : String)
  /-- An option without its value. -/
  | missingValue (option : OptionName)
  /-- An option that may stand only once. -/
  | repeated (option : OptionName)
  /-- A flag with a value. -/
  | unneededValue (flag value : String)
deriving DecidableEq, Inhabited

/-- The error in words. What comes from the arguments is written without commands to a terminal. -/
def UsageError.message : UsageError → String
  | unexpected argument => "error: unexpected argument '" ++ Text.stripped argument ++ "' found"
  | missingValue option =>
    "error: a value is required for '" ++ option.usage ++ "' but none was supplied"
  | repeated option =>
    "error: the argument '" ++ option.usage ++ "' cannot be used multiple times"
  | unneededValue flag value =>
    "error: unexpected value '" ++ Text.stripped value ++ "' for '" ++ flag
      ++ "' found; no more were expected"

/-- What the arguments come to. -/
inductive Request where
  /-- Check a document. -/
  | check (options : Options)
  /-- Show the help text. -/
  | help
  /-- Show the version. -/
  | version
  /-- Nothing: the arguments are wrong. -/
  | usage (error : UsageError)
deriving DecidableEq, Inhabited

namespace Options

/-- No options. -/
def none : Options := ⟨.none, [], .none⟩

/-- The options with one more value. A file needs a name that is not empty. -/
def add (o : Options) (name : OptionName) (value : String) : Except UsageError Options :=
  match name with
  | .set => .ok { o with edits := o.edits ++ [value] }
  | .data =>
    if o.data.isSome then .error (.repeated .data)
    else if value.isEmpty then .error (.missingValue .data)
    else .ok { o with data := some value }
  | .envFile =>
    if o.envFile.isSome then .error (.repeated .envFile)
    else if value.isEmpty then .error (.missingValue .envFile)
    else .ok { o with envFile := some value }

end Options

/-- An option that was met last: it waits for its value, or has it and is not yet added. -/
inductive Pending where
  /-- No such option. -/
  | nothing
  /-- An option without its value. -/
  | bare (name : OptionName)
  /-- An option with its value. -/
  | filled (name : OptionName) (value : String)
deriving DecidableEq, Inhabited

/-- The options with the one that was met last. -/
def Pending.settle (p : Pending) (o : Options) : Except UsageError Options :=
  match p with
  | .nothing => .ok o
  | .bare name => .error (.missingValue name)
  | .filled name value => o.add name value

/-- An argument taken apart. -/
inductive Argument where
  /-- Two dashes alone: no options follow. -/
  | separator
  /-- Two dashes and a word, possibly with a value behind an equals sign. -/
  | long (word : String) (value : Option String)
  /-- One dash and a letter. -/
  | short (letter : Char)
  /-- Anything else. -/
  | plain (text : String)
deriving DecidableEq, Inhabited

/-- Take an argument apart. -/
def Argument.ofText (text : String) : Argument :=
  match text.toList with
  | ['-', '-'] => .separator
  | '-' :: '-' :: cs =>
    let word := String.ofList (cs.takeWhile (· ≠ '='))
    match cs.dropWhile (· ≠ '=') with
    | [] => .long word none
    | _ :: value => .long word (some (String.ofList value))
  | '-' :: c :: _ => .short c
  | _ => .plain text

/-- Answer a flag, once the option before it has been settled. -/
def flag (o : Options) (pending : Pending) (answer : Request) : Request :=
  match pending.settle o with
  | .ok _ => answer
  | .error e => .usage e

/-- Finish the reading. The environment stands in for a missing file with the settings. -/
def finish (o : Options) (pending : Pending) (envValue : Option String) : Request :=
  match pending.settle o with
  | .error e => .usage e
  | .ok o =>
    match o.envFile, envValue with
    | none, some value =>
      match o.add .envFile value with
      | .ok o => .check o
      | .error e => .usage e
    | _, _ => .check o

/-- Read arguments behind those that have been read. -/
def readArguments (envValue : Option String) (o : Options) (pending : Pending) :
    List String → Request
  | [] => finish o pending envValue
  | text :: rest =>
    match Argument.ofText text with
    | .separator =>
      match rest with
      | [] => finish o pending envValue
      | next :: _ => .usage (.unexpected next)
    | .long word value =>
      match OptionName.ofWord? word with
      | some name =>
        match value with
        | none =>
          match pending.settle o with
          | .ok o => readArguments envValue o (.bare name) rest
          | .error e => .usage e
        | some value =>
          match pending.settle o with
          | .ok o =>
            match o.add name value with
            | .ok o => readArguments envValue o .nothing rest
            | .error e => .usage e
          | .error e => .usage e
      | none =>
        if word = "help" ∨ word = "version" then
          match value with
          | some value => .usage (.unneededValue ("--" ++ word) value)
          | none => flag o pending (if word = "help" then .help else .version)
        else .usage (.unexpected ("--" ++ word))
    | .short 'h' => flag o pending .help
    | .short 'V' => flag o pending .version
    | .short c => .usage (.unexpected (String.ofList ['-', c]))
    | .plain text =>
      match pending with
      | .bare name => readArguments envValue o (.filled name text) rest
      | _ => .usage (.unexpected text)

/-- The variable that stands in for `--env-file`. -/
def envFileVariable : String := "FIELDRULES_ENV_FILE"

/-- Read the arguments, given the value of the variable that stands in for `--env-file`. -/
def Request.ofArguments (arguments : List String) (envValue : Option String) : Request :=
  readArguments envValue .none .nothing arguments

/-- The name and version of the program. -/
def versionText : String := "fieldrules-check 0.1.0\n"

/-- Where the descriptions of the help text begin. -/
def helpIndent : Nat := 29

/-- A text within a description of the help text: every further line is indented. -/
def indented (s : String) : String :=
  Text.join '\n' (match Text.cut '\n' s with
    | [] => []
    | first :: rest => first :: rest.map (String.pushn "" ' ' helpIndent ++ ·))

/-- The name of an option as a terminal shows it, in bold. -/
def bold (name : String) : String := "\x1b[1m" ++ name ++ "\x1b[0m"

/-- The help text, given the value of the variable that stands in for `--env-file`. It is written
without the commands that make names bold, and without those that the value may hold. -/
def helpText (envValue : Option String) : String :=
  Text.stripped (
    "Usage: " ++ bold "fieldrules-check" ++ " [OPTIONS]\n\nOptions:\n"
      ++ "      " ++ bold "--data"
      ++ " <DATA>          JSON document to check. Reads stdin when omitted\n"
      ++ "      " ++ bold "--set"
      ++ " <PATH=JSON>      Edit applied after attach, as \x60PATH=JSON\x60 (repeatable)\n"
      ++ "      " ++ bold "--env-file"
      ++ " <ENV_FILE>  Read engine settings from this .env file instead of the environment"
      ++ " [env: " ++ envFileVariable ++ "=" ++ indented (envValue.getD "") ++ "]\n"
      ++ "  " ++ bold "-h" ++ ", " ++ bold "--help" ++ "                 Print help\n"
      ++ "  " ++ bold "-V" ++ ", " ++ bold "--version" ++ "              Print version\n")

end ReactiveForm.Checker
