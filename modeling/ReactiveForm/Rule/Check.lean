import ReactiveForm.Rule.Basic

/-!
# Evaluation by checks

A group is read from left to right and stops at the first member that decides it: a failed one where
all are required, a passed one where any is. Skipped members decide nothing. A group whose members
were all skipped is skipped itself, and so is an empty one.
-/

namespace ReactiveForm

/-- An outcome together with the rules that were called for it, in order. -/
structure Checked where
  /-- The outcome. -/
  outcome : Outcome
  /-- The rules whose check was called. -/
  called : List Rule
deriving Inhabited

/-- The outcome that decides a group on its own. -/
def Requirement.deciding : Requirement → Outcome
  | .all => .failed
  | .any => .passed

/-- The outcome of a group that no member decided, when some member was not skipped. -/
def Requirement.undecided : Requirement → Outcome
  | .all => .passed
  | .any => .failed

namespace RuleSet

mutual

/-- Evaluate a rule set by its checks. -/
def check (value root : Json) : RuleSet → Checked
  | rule r =>
    match r.check with
    | some f => ⟨.ofBool (f value root), [r]⟩
    | none => ⟨.skipped, []⟩
  | group requirement members => checkMembers value root requirement true members

/-- Evaluate the remaining members of a group. The flag says that all members before them were
skipped. -/
def checkMembers (value root : Json) (requirement : Requirement) (allSkipped : Bool) :
    List RuleSet → Checked
  | [] => ⟨if allSkipped then .skipped else requirement.undecided, []⟩
  | m :: ms =>
    let first := check value root m
    if first.outcome = requirement.deciding then first
    else
      let rest :=
        checkMembers value root requirement (allSkipped && first.outcome == .skipped) ms
      ⟨rest.outcome, first.called ++ rest.called⟩

end

end RuleSet

end ReactiveForm
