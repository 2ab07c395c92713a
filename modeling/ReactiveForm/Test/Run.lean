import ReactiveForm.Test.Basic
import ReactiveForm.Rule.Check
import ReactiveForm.Rule.Inquiry

/-!
# Running tests

A test first evaluates its condition. If that fails the test is skipped and its check is left alone;
a condition that is skipped or missing is no gate. Tests run by checks one after the other, and by
inquiries all at the same time.
-/

namespace ReactiveForm

/-! ## By checks -/

namespace Test

/-- The result of a test and the rules that were called for it, in order. -/
structure CheckedRun where
  /-- The result. -/
  result : TestResult
  /-- The rules whose check was called. -/
  called : List Rule
deriving Inhabited

/-- Run a test by its checks. -/
def runChecks (value root : Json) (t : Test) : CheckedRun :=
  let gate : Checked := match t.condition with
    | some c => c.check value root
    | none => ⟨.skipped, []⟩
  if gate.outcome = .failed then ⟨.ofOutcome t .skipped, gate.called⟩
  else
    let main := t.rules.check value root
    ⟨.ofOutcome t main.outcome, gate.called ++ main.called⟩

/-! ## By inquiries -/

/-- The result of a test, the rules that were asked for it, each with the time at which it was
asked, and the time until the result is there. -/
structure InquiredRun where
  /-- The result. -/
  result : TestResult
  /-- The rules whose inquiry was started, with the time since the start of the test. -/
  called : List (Nat × Rule)
  /-- The time until the result is there. -/
  duration : Nat
deriving Inhabited

/-- Run a test by its inquiries. The check starts when the condition is settled. -/
def runInquiries (value root : Json) (t : Test) : InquiredRun :=
  let gate : Inquired := match t.condition with
    | some c => c.inquire value root
    | none => ⟨.skipped, [], 0⟩
  let asked := gate.called.map fun r => (0, r)
  if gate.outcome = .failed then ⟨.ofOutcome t .skipped, asked, gate.duration⟩
  else
    let main := t.rules.inquire value root
    { result := .ofOutcome t main.outcome
      called := asked ++ main.called.map fun r => (gate.duration, r)
      duration := gate.duration + main.duration }

end Test

namespace TestResults

/-- The results of tests run by their checks, and the rules that were called, in order. -/
structure CheckedRuns where
  /-- The results. -/
  results : TestResults
  /-- The rules whose check was called. -/
  called : List Rule
deriving Inhabited

/-- Run tests by their checks, one after the other. -/
def runChecks (value root : Json) (tests : List Test) : CheckedRuns :=
  let runs := tests.map (Test.runChecks value root)
  ⟨⟨runs.map Test.CheckedRun.result⟩, runs.flatMap Test.CheckedRun.called⟩

/-- The results of tests run by their inquiries, the rules that were asked, each with the time at
which it was asked, and the time until all results are there. -/
structure InquiredRuns where
  /-- The results. -/
  results : TestResults
  /-- The rules whose inquiry was started, with the time since the start. -/
  called : List (Nat × Rule)
  /-- The time until all results are there. -/
  duration : Nat
deriving Inhabited

/-- The rules that are asked at the start. -/
def InquiredRuns.askedAtOnce (r : InquiredRuns) : List Rule :=
  (r.called.filter fun c => c.1 == 0).map Prod.snd

/-- The rules that are asked when a condition is settled, with the time since the start. -/
def InquiredRuns.askedLater (r : InquiredRuns) : List (Nat × Rule) :=
  r.called.filter fun c => 0 < c.1

/-- Run tests by their inquiries, all at the same time. The results keep the order of the tests. -/
def runInquiries (value root : Json) (tests : List Test) : InquiredRuns :=
  let runs := tests.map (Test.runInquiries value root)
  { results := ⟨runs.map Test.InquiredRun.result⟩
    called := runs.flatMap Test.InquiredRun.called
    duration := runs.foldr (fun r d => max r.duration d) 0 }

/-- The results of a full run: the rules that were called by check, and those that were asked. -/
structure FullRuns where
  /-- The results. -/
  results : TestResults
  /-- The rules whose check was called, in order. -/
  checked : List Rule
  /-- The rules whose inquiry was started, with the time since the start. -/
  inquired : List (Nat × Rule)
  /-- The time until all results are there. -/
  duration : Nat
deriving Inhabited

/-- Run tests by their checks, and by their inquiries if all checks passed. -/
def runAll (value root : Json) (tests : List Test) : FullRuns :=
  let checks := runChecks value root tests
  if checks.results.passed then
    let inquiries := runInquiries value root tests
    ⟨inquiries.results, checks.called, inquiries.called, inquiries.duration⟩
  else ⟨checks.results, checks.called, [], 0⟩

end TestResults

end ReactiveForm
