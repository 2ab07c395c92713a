import ReactiveForm.Json.Basic

/-!
# Rules

A rule looks at a value and at the document that the value is part of and says whether the value is
in order. It can do so at once, by a check, or after a while, by an inquiry; a rule may offer both.
Rules are combined into rule sets by groups, which ask for all of their members or for any of them.

An evaluation uses either the checks or the inquiries. A rule without a function of the kind in use
is skipped, and being skipped is not failing.
-/

namespace ReactiveForm

/-- What an evaluation says about a value. -/
inductive Outcome where
  /-- The value is in order. -/
  | passed
  /-- The value is not in order. -/
  | failed
  /-- Nothing was evaluated. -/
  | skipped
deriving DecidableEq, Inhabited

/-- The outcome of a check. -/
def Outcome.ofBool (passed : Bool) : Outcome := if passed then .passed else .failed

/-- The answer to an inquiry and the time after which it arrives, in milliseconds. -/
structure Reply where
  /-- Whether the value is in order. -/
  passed : Bool
  /-- How long the answer takes. -/
  delay : Nat
deriving DecidableEq, Inhabited

/-- A single rule. -/
structure Rule where
  /-- The name under which calls of the rule are recorded. -/
  label : Option String
  /-- Looks at a value and its document and answers at once. -/
  check : Option (Json → Json → Bool)
  /-- Looks at a value and its document and answers later. -/
  inquiry : Option (Json → Json → Reply)
  /-- The paths of the controls on which the answer depends. -/
  dependencies : List String
deriving Inhabited

namespace Rule

/-- A rule that answers at once. -/
def ofCheck (check : Json → Json → Bool) : Rule := ⟨none, some check, none, []⟩

/-- The rule with further dependencies. -/
def dependsOn (r : Rule) (paths : List String) : Rule :=
  { r with dependencies := r.dependencies ++ paths }

end Rule

/-- How many members of a group have to pass. -/
inductive Requirement where
  /-- Every member. -/
  | all
  /-- At least one member. -/
  | any
deriving DecidableEq, Inhabited

/-- A rule or a group of rule sets. -/
inductive RuleSet where
  /-- A single rule. -/
  | rule (r : Rule)
  /-- A group, whose members are evaluated from left to right. -/
  | group (requirement : Requirement) (members : List RuleSet)
deriving Inhabited

namespace RuleSet

mutual

/-- The rules of a rule set at any depth, from left to right. -/
def rules : RuleSet → List Rule
  | rule r => [r]
  | group _ members => rulesOfMembers members

/-- The rules of the members of a group. -/
def rulesOfMembers : List RuleSet → List Rule
  | [] => []
  | m :: ms => rules m ++ rulesOfMembers ms

end

/-- Whether some rule has an inquiry. -/
def hasInquiry (s : RuleSet) : Bool := s.rules.any fun r => r.inquiry.isSome

/-- The dependencies that the rules declare, from left to right and with repetitions. -/
def dependencies (s : RuleSet) : List String := s.rules.flatMap Rule.dependencies

end RuleSet

end ReactiveForm
