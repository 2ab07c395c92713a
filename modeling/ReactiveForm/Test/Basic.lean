import ReactiveForm.Rule.Basic

/-!
# Tests and their results

A test is a rule set with a name, a message for the case of failure, and possibly a condition. Its
result says whether it passed. A test that had nothing to say is skipped, and a skipped test counts
as passed.

## Shape of the views

A list of results is read through views: the results that passed (the skipped ones among them),
failed or were skipped, and the messages of the failed ones, each once and in order of first
occurrence.

## Dependencies

A list of tests depends on the paths that its rules declare, each once and in order of first
occurrence. Of a test the check comes before the condition.
-/

namespace ReactiveForm

/-- A test. -/
structure Test where
  /-- What is tested. -/
  rules : RuleSet
  /-- Where this fails, the test is skipped. -/
  condition : Option RuleSet
  /-- The name of the test. -/
  name : Option String
  /-- What a failure is reported as. -/
  message : Option String
deriving Inhabited

namespace Test

/-- An unnamed test without a condition. -/
def ofRules (rules : RuleSet) : Test := ⟨rules, none, none, none⟩

/-- Whether the check or the condition has an inquiry. -/
def hasInquiry (t : Test) : Bool :=
  t.rules.hasInquiry || t.condition.any RuleSet.hasInquiry

end Test

/-- The result of a test. -/
structure TestResult where
  /-- The name of the test. -/
  name : Option String
  /-- The message of a failure. -/
  message : Option String
  /-- Whether the test passed. -/
  passed : Bool
  /-- Whether the test was skipped. -/
  skipped : Bool
deriving DecidableEq, Inhabited

namespace TestResult

/-- The result of a test whose check had an outcome. Only a failure carries the message. -/
def ofOutcome (t : Test) : Outcome → TestResult
  | .passed => ⟨t.name, none, true, false⟩
  | .failed => ⟨t.name, t.message, false, false⟩
  | .skipped => ⟨t.name, none, true, true⟩

end TestResult

/-- The elements of a list without repetitions, in order of first occurrence. -/
def distinct (xs : List String) : List String :=
  xs.foldl (fun seen x => if seen.contains x then seen else seen ++ [x]) []

/-- The results of a list of tests, in the order of the tests. -/
structure TestResults where
  /-- The single results. -/
  results : List TestResult
deriving DecidableEq, Inhabited

namespace TestResults

/-- No results at all, which is a success. -/
def empty : TestResults := ⟨[]⟩

/-- Whether no result is a failure. -/
def passed (r : TestResults) : Bool := r.results.all TestResult.passed

/-- The results that passed, skipped ones included. -/
def passedResults (r : TestResults) : List TestResult := r.results.filter TestResult.passed

/-- The failures. -/
def failedResults (r : TestResults) : List TestResult := r.results.filter fun t => !t.passed

/-- The results of skipped tests. -/
def skippedResults (r : TestResults) : List TestResult := r.results.filter TestResult.skipped

/-- The results of tests that were not skipped. -/
def evaluatedResults (r : TestResults) : List TestResult := r.results.filter fun t => !t.skipped

/-- The first message of a failure. -/
def message? (r : TestResults) : Option String := r.failedResults.findSome? TestResult.message

/-- The messages of the failures, each once. -/
def messages (r : TestResults) : List String :=
  distinct (r.failedResults.filterMap TestResult.message)

/-- The results if one of them is a failure. -/
def errors? (r : TestResults) : Option TestResults := if r.passed then none else some r

end TestResults

/-! ## Dependencies -/

/-- The paths that the rules of a test declare, with repetitions. -/
def Test.dependencies (t : Test) : List String :=
  t.rules.dependencies ++ (t.condition.map RuleSet.dependencies).getD []

/-- The paths on which a list of tests depends. -/
def Test.dependencyPaths (tests : List Test) : List String :=
  distinct (tests.flatMap Test.dependencies)

end ReactiveForm
