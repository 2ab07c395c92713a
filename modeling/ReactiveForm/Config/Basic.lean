import ReactiveForm.Text.Basic
import ReactiveForm.Text.Terminal
import ReactiveForm.Text.Uppercase

/-!
# Engine configuration

The defaults of the engine, read from named variables. A profile selects variants of the variables:
under the profile `PROD` the variable `PROD_X` is asked before `X`.

## Shape of a reading

Each setting has one key. The text of the key is that of its profile variant if it has one that is
not empty, and otherwise that of the key itself if it is not empty. A text that cannot be read gives
the default: it does not fall back from the variant to the key.
-/

namespace ReactiveForm

/-- The defaults of the change policies: how long each kind of recomputation waits for further
changes, in milliseconds, and whether it ignores a repeated value. -/
structure PolicyDefaults where
  /-- The wait of a validity test on a change of a dependency. -/
  dependencyValidDebounce : Nat
  /-- The wait of an editability test on a change of a dependency. -/
  dependencyEditDebounce : Nat
  /-- The wait of an editability test on a change of the control itself. -/
  selfEditDebounce : Nat
  /-- The wait of an inquiry on a change of the control itself. -/
  selfAsyncValidDebounce : Nat
  /-- Whether repeated values of dependencies are ignored. -/
  dependencyDistinct : Bool
  /-- Whether editability tests ignore repeated values of the control itself. -/
  selfEditDistinct : Bool
  /-- Whether inquiries ignore repeated values of the control itself. -/
  selfAsyncValidDistinct : Bool
deriving DecidableEq, Inhabited

/-- The configuration of the engine. -/
structure Config where
  /-- The active profile in upper case, empty for none. -/
  profile : String
  /-- The defaults of the change policies. -/
  policy : PolicyDefaults
  /-- How many values a change stream keeps. -/
  channelCapacity : Nat
deriving DecidableEq, Inhabited

namespace PolicyDefaults

/-- Nothing waits, and only a control's own repeated values are ignored. -/
def standard : PolicyDefaults := ⟨0, 0, 0, 0, false, true, true⟩

end PolicyDefaults

namespace Config

/-- The configuration where no variable is set. -/
def standard : Config := ⟨"", .standard, 64⟩

/-- A source of variables. -/
abbrev Variables := String → Option String

/-- The text of a variable, if it is not empty. -/
def nonempty? (vars : Variables) (key : String) : Option String :=
  (vars key).filter fun s => !s.isEmpty

/-- The text of a key under a profile. -/
def profiled? (vars : Variables) (profile key : String) : Option String :=
  if profile.isEmpty then nonempty? vars key
  else (nonempty? vars (profile ++ "_" ++ key)).or (nonempty? vars key)

/-- A number, blanks around it allowed. -/
def readNumber? (text : String) : Option Nat := Text.readWord? (Text.trim text)

/-- A switch, blanks around it allowed and without regard to ASCII case. -/
def readSwitch? (text : String) : Option Bool :=
  let word := String.ofList ((Text.trimChars text.toList).map Char.toLower)
  if word ∈ ["1", "true", "yes", "on"] then some true
  else if word ∈ ["0", "false", "no", "off"] then some false
  else none

/-- The number of a key under a profile, or the default. -/
def number (vars : Variables) (profile key : String) (default : Nat) : Nat :=
  ((profiled? vars profile key).bind readNumber?).getD default

/-- The switch of a key under a profile, or the default. -/
def switch (vars : Variables) (profile key : String) (default : Bool) : Bool :=
  ((profiled? vars profile key).bind readSwitch?).getD default

/-- The configuration of a profile. Its name may be given in any case. A stream keeps at least one
value. -/
def forProfile (vars : Variables) (name : String) : Config :=
  let profile := Text.upper name
  let d := PolicyDefaults.standard
  { profile
    policy :=
      { dependencyValidDebounce :=
          number vars profile "FIELDRULES_DEPENDENCY_VALID_DEBOUNCE_MS" d.dependencyValidDebounce
        dependencyEditDebounce :=
          number vars profile "FIELDRULES_DEPENDENCY_EDIT_DEBOUNCE_MS" d.dependencyEditDebounce
        selfEditDebounce :=
          number vars profile "FIELDRULES_SELF_EDIT_DEBOUNCE_MS" d.selfEditDebounce
        selfAsyncValidDebounce :=
          number vars profile "FIELDRULES_SELF_ASYNC_VALID_DEBOUNCE_MS" d.selfAsyncValidDebounce
        dependencyDistinct :=
          switch vars profile "FIELDRULES_DEPENDENCY_DISTINCT" d.dependencyDistinct
        selfEditDistinct := switch vars profile "FIELDRULES_SELF_EDIT_DISTINCT" d.selfEditDistinct
        selfAsyncValidDistinct :=
          switch vars profile "FIELDRULES_SELF_ASYNC_VALID_DISTINCT" d.selfAsyncValidDistinct }
    channelCapacity :=
      max 1 (number vars profile "FIELDRULES_CHANNEL_CAPACITY" standard.channelCapacity) }

/-- The configuration of the profile that the variables name themselves. -/
def ofVariables (vars : Variables) : Config :=
  forProfile vars ((nonempty? vars "FIELDRULES_PROFILE").getD "")

/-- The profile as it is shown. -/
def profileLabel (c : Config) : String := if c.profile.isEmpty then "default" else c.profile

/-- The configuration in words, one line of a log each. -/
def summary (c : Config) : List String :=
  let ms (n : Nat) : String := toString n
  let flag (b : Bool) : String := if b then "true" else "false"
  let p := c.policy
  [ "Engine config loaded (profile: " ++ Text.logged c.profileLabel ++ "):",
    "  debounce ms: dependency_valid=" ++ ms p.dependencyValidDebounce ++ ", dependency_edit="
      ++ ms p.dependencyEditDebounce ++ ", self_edit=" ++ ms p.selfEditDebounce
      ++ ", self_async_valid=" ++ ms p.selfAsyncValidDebounce,
    "  distinct:    dependency=" ++ flag p.dependencyDistinct ++ ", self_edit="
      ++ flag p.selfEditDistinct ++ ", self_async_valid=" ++ flag p.selfAsyncValidDistinct,
    "  channels:    capacity=" ++ ms c.channelCapacity ]

/-- The longest wait of any kind of recomputation. -/
def longestDebounce (c : Config) : Nat :=
  max (max c.policy.dependencyValidDebounce c.policy.dependencyEditDebounce)
    (max c.policy.selfEditDebounce c.policy.selfAsyncValidDebounce)

end Config

end ReactiveForm
