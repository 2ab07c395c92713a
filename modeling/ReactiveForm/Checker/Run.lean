import ReactiveForm.Checker.Options
import ReactiveForm.Checker.Person
import ReactiveForm.Config.EnvFile
import ReactiveForm.Form.Document
import ReactiveForm.Json.Parser
import ReactiveForm.Json.Printer
import ReactiveForm.Session

/-!
# Checking a document

A run of the command line makes a form from a document, attaches a scheduler, applies the edits,
waits until the pipelines are quiet and reports the state of every control.

All that a run needs from outside is an argument: the variables, the files by their names, the
standard input, how the log writes what is told to it, and how much memory a stream takes. What it
gives back is an exit code and the texts of the two outputs. The log goes to the standard output, in
front of the report.
-/

namespace ReactiveForm.Checker

/-- Something that is told to the log: a message as the log shows it, and the numbers behind it. -/
structure LogEvent where
  /-- The message. -/
  message : String
  /-- The numbers with their names. -/
  numbers : List (String × Nat)
deriving DecidableEq, Inhabited

/-- What a run finds outside. -/
structure Surroundings where
  /-- The environment variables. -/
  environment : Environment
  /-- The text of a file, if it can be read. -/
  fileText : String → Option String
  /-- The text of the standard input, if it is well formed. -/
  input : Option String
  /-- What the log has written by the time that it was told these events. Its filter says how much
  of them it writes, and what else. -/
  log : List LogEvent → String
  /-- How many bytes one place of a stream takes. -/
  slotSize : Nat

/-- What a run gives back. -/
structure Result where
  /-- The exit code. -/
  exitCode : Nat
  /-- The text of the standard output. -/
  output : String
  /-- The text of the error output. -/
  errors : String
deriving DecidableEq, Inhabited

/-- Why a run fails after its arguments were understood. -/
inductive Failure where
  /-- A file cannot be read, or is not well formed. -/
  | unreadable (file : String)
  /-- The standard input is not well formed. -/
  | badInput
  /-- The text is not a document. -/
  | badDocument
  /-- An edit is not a path and a value. -/
  | badEdit (edit : String)
  /-- The path of an edit leads nowhere. -/
  | noControl (path : String)
  /-- The form refuses something. -/
  | refused (error : FormError)
  /-- The environment cannot hold a value of the file in the current directory. -/
  | unfitValue
  /-- A change stream cannot be made with that many places. -/
  | unfitCapacity
deriving DecidableEq, Inhabited

/-- The failure in words. -/
def Failure.text : Failure → String
  | unreadable file => "failed to read " ++ file
  | badInput => "stream did not contain valid UTF-8"
  | badDocument => "document is not valid JSON"
  | badEdit edit => "edit '" ++ edit ++ "' is not PATH=JSON"
  | noControl path => "no control at '" ++ path ++ "'"
  | refused error => error.message
  | unfitValue => "an environment variable cannot hold a value with the code zero"
  | unfitCapacity => "a change stream cannot have that many places"

/-- Whether the run breaks off at the failure instead of reporting it as an error. -/
def Failure.breaksOff : Failure → Bool
  | unfitValue | unfitCapacity => true
  | _ => false

/-- What a failed run gives back behind what the log has written. A run that breaks off leaves a
line empty before it says why. -/
def Failure.result (log : String) (f : Failure) : Result :=
  if f.breaksOff then ⟨101, log, "\n" ++ f.text ++ "\n"⟩
  else ⟨1, log, "Error: " ++ f.text ++ "\n"⟩

/-- The name of the file whose variables are added to the environment. -/
def dotFile : String := ".env"

/-- The configuration: of the given file alone, or of the environment together with the file in the
current directory. -/
def configuration (s : Surroundings) (envFile : Option String) : Except Failure Config :=
  match envFile with
  | some file =>
    match (s.fileText file).bind (EnvFile.parse? s.environment.get?) with
    | some set => .ok (.ofVariables fun name => set.lookup name)
    | none => .error (.unreadable file)
  | none =>
    match s.fileText dotFile with
    | some text =>
      match EnvFile.load? s.environment text with
      | some e => .ok (.ofVariables e.get?)
      | none => .error .unfitValue
    | none => .ok (.ofVariables s.environment.get?)

/-- The document: of the given file, or of the standard input. -/
def document (s : Surroundings) (file : Option String) : Except Failure Json := do
  let text ← match file with
    | some file =>
      match s.fileText file with
      | some text => Except.ok text
      | none => .error (.unreadable file)
    | none =>
      match s.input with
      | some text => .ok text
      | none => .error .badInput
  match Json.parse text with
  | some j => .ok j
  | none => .error .badDocument

/-- Apply an edit. A value that is not a document is a text. -/
def applyEdit (session : Session) (edit : String) : Except Failure Session :=
  match Text.cutOnce? '=' edit with
  | none => .error (.badEdit edit)
  | some (path, raw) =>
    match session.form.get? path with
    | none => .error (.noControl path)
    | some id =>
      match Session.Editing.setValue id ((Json.parse raw).getD (.string raw)) session with
      | .ok _ session => .ok session
      | .error e _ => .error (.refused e)

/-- How long to wait until the pipelines are quiet: a little longer than the longest debounce, as a
64-bit number of milliseconds. -/
def settleTime (c : Config) : Nat := (c.longestDebounce + 50) % (Text.maxWord + 1)

/-- What is reported about a control that has a path, the root excepted. -/
def reportOf? (f : Form) (id : ControlId) : Option (String × Json) :=
  match f.path? id, f.state? id with
  | some path, some state =>
    if path.isEmpty then none
    else some (path, .ofFields [("state", state.toJson), ("messages", state.messagesToJson)])
  | _, _ => none

/-- The entries of the report on all controls, by their paths. -/
def entries (f : Form) : List (String × Json) := Keyed.ofList (f.controls.filterMap (reportOf? f))

/-- The report on all controls, by their paths. -/
def report (f : Form) : Json := .object (entries f)

/-! ## The log -/

/-- The configuration as it is told to the log. -/
def begun (c : Config) : List LogEvent := c.summary.map fun line => ⟨line, []⟩

/-- The report as it is told to the log: how many controls it is about, and how many of them are
invalid. -/
def completed (f : Form) : LogEvent :=
  ⟨"check complete",
    [("controls", (entries f).length),
      ("invalid",
        (f.controls.filter fun id => (reportOf? f id).isSome && !f.isValid id).length)]⟩

/-! ## Runs -/

/-- The form of a document at rest: built, attached, edited and left alone for a while. -/
def settled (c : Config) (data : Json) (edits : List String) : Except Failure Form := do
  let model ← match person with
    | .ok model => Except.ok model
    | .error e => .error (.refused e)
  let session := (Session.start (.build model data c)).attach
  let session ← edits.foldlM applyEdit session
  pure (session.advance (settleTime c)).form

/-- The most bytes that anything in memory can take. -/
def maxBytes : Nat := 9223372036854775807

/-- The largest number of places that the memory of a stream can be asked for. -/
def Surroundings.maxPlaces (s : Surroundings) : Nat := maxBytes / s.slotSize

/-- The form of the document at rest, under a configuration. -/
def checked (s : Surroundings) (o : Options) (config : Config) : Except Failure Form := do
  let data ← document s o.data
  if s.maxPlaces < Stream.roundUp config.channelCapacity then .error .unfitCapacity
  else settled config data o.edits

/-- Check a document with options that were understood. -/
def check (s : Surroundings) (o : Options) : Result :=
  match configuration s o.envFile with
  | .error failure => failure.result ""
  | .ok config =>
    match checked s o config with
    | .error failure => failure.result (s.log (begun config))
    | .ok form =>
      let log := s.log (begun config ++ [completed form])
      ⟨0, log ++ (report form).pretty 0 ++ "\n", ""⟩

/-- Run the command line. -/
def run (s : Surroundings) (arguments : List String) : Result :=
  let envValue := s.environment.get? envFileVariable
  match Request.ofArguments arguments envValue with
  | .help => ⟨0, helpText envValue, ""⟩
  | .version => ⟨0, versionText, ""⟩
  | .usage e => ⟨2, "", e.message ++ "\n"⟩
  | .check o => check s o

end ReactiveForm.Checker
