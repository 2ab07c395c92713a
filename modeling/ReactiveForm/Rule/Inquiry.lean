import ReactiveForm.Rule.Basic

/-!
# Evaluation by inquiries

All inquiries of a rule set are started together, whatever the others answer, and the rule set is
settled when the last answer is there. Only then is each group reduced. A group whose members were
all skipped is skipped. Otherwise a group that requires all its members counts a skipped one against
itself, unlike an evaluation by checks.
-/

namespace ReactiveForm

/-- An outcome together with the rules that were asked for it and the time until it is there. -/
structure Inquired where
  /-- The outcome. -/
  outcome : Outcome
  /-- The rules whose inquiry was started. -/
  called : List Rule
  /-- The time until the last answer. -/
  duration : Nat
deriving Inhabited

/-- The outcome of a group from the outcomes of its members. -/
def Requirement.reduce (requirement : Requirement) (outcomes : List Outcome) : Outcome :=
  if outcomes.all (· == .skipped) then .skipped
  else
    match requirement with
    | .all => .ofBool (outcomes.all (· == .passed))
    | .any => .ofBool (outcomes.any (· == .passed))

namespace RuleSet

mutual

/-- Evaluate a rule set by its inquiries. -/
def inquire (value root : Json) : RuleSet → Inquired
  | rule r =>
    match r.inquiry with
    | some f =>
      let reply := f value root
      ⟨.ofBool reply.passed, [r], reply.delay⟩
    | none => ⟨.skipped, [], 0⟩
  | group requirement members =>
    let settled := inquireMembers value root members
    { outcome := requirement.reduce (settled.map Inquired.outcome)
      called := settled.flatMap Inquired.called
      duration := settled.foldr (fun s d => max s.duration d) 0 }

/-- Evaluate the members of a group, each on its own. -/
def inquireMembers (value root : Json) : List RuleSet → List Inquired
  | [] => []
  | m :: ms => inquire value root m :: inquireMembers value root ms

end

end RuleSet

end ReactiveForm
