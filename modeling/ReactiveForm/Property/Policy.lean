import ReactiveForm.Config.Basic

/-!
# Change policies

A control is recomputed for four reasons. For each of them its policy says how long to wait for
further changes and whether to ignore a value that is the same as before.
-/

namespace ReactiveForm

/-- How one kind of recomputation reacts to changes. -/
structure ChangeSettings where
  /-- How long to wait for further changes, in milliseconds. -/
  debounce : Nat
  /-- Whether to ignore a value that is the same as before. -/
  distinct : Bool
deriving DecidableEq, Inhabited

namespace ChangeSettings

/-- React at once and to every value. -/
def immediate : ChangeSettings := ⟨0, false⟩

end ChangeSettings

/-- How a control reacts to changes. -/
structure ChangePolicy where
  /-- Validity tests, on a change of a dependency. -/
  dependencyValid : ChangeSettings
  /-- Editability and visibility tests, on a change of a dependency. -/
  dependencyEdit : ChangeSettings
  /-- Editability and visibility tests, on a change of the control itself. -/
  selfEdit : ChangeSettings
  /-- Inquiries, on a change of the control itself. -/
  selfAsyncValid : ChangeSettings
deriving DecidableEq, Inhabited

namespace ChangePolicy

/-- React at once and to every value. -/
def immediate : ChangePolicy := ⟨.immediate, .immediate, .immediate, .immediate⟩

/-- The policy of a configuration. One switch governs both kinds of dependencies. -/
def ofConfig (c : Config) : ChangePolicy :=
  let p := c.policy
  { dependencyValid := ⟨p.dependencyValidDebounce, p.dependencyDistinct⟩
    dependencyEdit := ⟨p.dependencyEditDebounce, p.dependencyDistinct⟩
    selfEdit := ⟨p.selfEditDebounce, p.selfEditDistinct⟩
    selfAsyncValid := ⟨p.selfAsyncValidDebounce, p.selfAsyncValidDistinct⟩ }

end ChangePolicy

end ReactiveForm
