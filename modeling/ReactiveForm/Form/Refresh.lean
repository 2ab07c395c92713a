import ReactiveForm.Form.Basic
import ReactiveForm.Test.Run

/-!
# Running the tests of a control

The tests of a control are run by their checks on its current value, and what they say is recorded
in its state. None of this publishes a value.
-/

namespace ReactiveForm.Form

/-! ## Recording outcomes -/

/-- Record the results of the validity tests: they are kept only if one failed. -/
def applyValidity (f : Form) (id : ControlId) (results : TestResults) : Form :=
  f.modifyState id fun s => { s with syncErrors := results.errors? }

/-- Record the errors of an inquiry, which is then no longer under way. -/
def applyAsyncValidity (f : Form) (id : ControlId) (errors : Option TestResults) : Form :=
  f.modifyState id fun s => { s with asyncErrors := errors, pending := false }

/-- Record whether an inquiry is under way. -/
def setPending (f : Form) (id : ControlId) (pending : Bool) : Form :=
  f.modifyState id fun s => { s with pending }

/-- Record whether a control can be edited, and tell whether that is new. -/
def applyEditability (f : Form) (id : ControlId) (enabled : Bool) : Bool × Form :=
  ((f.state? id).any (·.enabled != enabled), f.modifyState id fun s => { s with enabled })

/-- Record whether a control can be seen, and tell whether that is new. -/
def applyVisibility (f : Form) (id : ControlId) (visible : Bool) : Bool × Form :=
  ((f.state? id).any (·.visible != visible), f.modifyState id fun s => { s with visible })

/-! ## Running tests -/

/-- Run some tests of a control by their checks. The root has no tests and no results. -/
def runChecks (f : Form) (id : ControlId) (tests : Property → List Test) :
    Option TestResults × Form :=
  match f.property? id with
  | none => (none, f)
  | some p =>
    let runs := TestResults.runChecks (f.value id) f.rootValue (tests p)
    (some runs.results, { f with called := f.called ++ runs.called })

/-- Run the validity tests of a control and record their results. -/
def refreshValidity (f : Form) (id : ControlId) : Option TestResults × Form :=
  match f.runChecks id Property.validTests with
  | (some results, f) => (some results, f.applyValidity id results)
  | (none, f) => (none, f)

/-- Run the tests of visibility of a control and record what they say. -/
def refreshVisibility (f : Form) (id : ControlId) : Form :=
  match f.runChecks id Property.viewTests with
  | (some results, f) => (f.applyVisibility id results.passed).2
  | (none, f) => f

/-- Run the tests of editability and of visibility of a control and record what they say. The result
tells whether the control has become editable or has ceased to be. -/
def refreshEditability (f : Form) (id : ControlId) : Bool × Form :=
  match f.runChecks id Property.editTests with
  | (some results, f) =>
    let (flipped, f) := f.applyEditability id results.passed
    (flipped, f.refreshVisibility id)
  | (none, f) => (false, f.refreshVisibility id)

/-- Run all tests of new controls, one control after the other. -/
def refreshNew (f : Form) (ids : List ControlId) : Form :=
  ids.foldl (fun f id => ((f.refreshValidity id).2.refreshEditability id).2) f

/-- Run the validity tests of controls, one control after the other. -/
def refreshLineage (f : Form) (ids : List ControlId) : Form :=
  ids.foldl (fun f id => (f.refreshValidity id).2) f

end ReactiveForm.Form
