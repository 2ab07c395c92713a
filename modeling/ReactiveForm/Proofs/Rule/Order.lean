import ReactiveForm.Proofs.Rule.Groups

/-!
# Checks in any order

An evaluation by checks leaves a group with the first member that decides it. Its outcome is that of
the evaluation which calls every check and looks at the members of a group all at once
(`plainOutcome`). So the outcome stays if the members of groups change places, at any depth
(`Reordered.plainOutcome_eq`). The order matters for the calls alone: they are those of the members
up to and including the one that decides (`checkCalls`).
-/

namespace ReactiveForm

theorem Requirement.combine_perm (requirement : Requirement) {outcomes others : List Outcome}
    (h : outcomes.Perm others) : requirement.combine outcomes = requirement.combine others := by
  simp only [combine, h.all_eq, h.mem_iff]

namespace RuleSet

variable {value root : Json}

/-! ## Evaluating everything -/

mutual

/-- The outcome of a rule set from the checks of all its rules. -/
def plainOutcome (value root : Json) : RuleSet → Outcome
  | rule r =>
    match r.check with
    | some f => .ofBool (f value root)
    | none => .skipped
  | group requirement members => requirement.combine (plainOutcomes value root members)

/-- The outcomes of the members of a group. -/
def plainOutcomes (value root : Json) : List RuleSet → List Outcome
  | [] => []
  | m :: ms => plainOutcome value root m :: plainOutcomes value root ms

end

theorem plainOutcomes_eq (members : List RuleSet) :
    plainOutcomes value root members = members.map (plainOutcome value root) := by
  induction members with
  | nil => rw [plainOutcomes]; rfl
  | cons m ms ih => rw [plainOutcomes, ih, List.map_cons]

/-- Leaving a group early does not change its outcome. -/
theorem outcome_check (s : RuleSet) : (s.check value root).outcome = s.plainOutcome value root := by
  induction s with
  | rule r =>
      rw [check, plainOutcome]
      cases r.check <;> rfl
  | group requirement members ih =>
      rw [outcome_check_group, plainOutcome, plainOutcomes_eq, List.map_congr_left ih]

/-! ## Calls -/

mutual

/-- The rules whose check is called, in order: of a group those of its members up to and including
the first one that decides it. -/
def checkCalls (value root : Json) : RuleSet → List Rule
  | rule r => if r.check.isSome then [r] else []
  | group requirement members =>
    let decisive := (plainOutcomes value root members).findIdx (· == requirement.deciding)
    ((checkCallsOfMembers value root members).take (decisive + 1)).flatten

/-- The rules whose check is called for each member of a group, if it is reached. -/
def checkCallsOfMembers (value root : Json) : List RuleSet → List (List Rule)
  | [] => []
  | m :: ms => checkCalls value root m :: checkCallsOfMembers value root ms

end

theorem checkCallsOfMembers_eq (members : List RuleSet) :
    checkCallsOfMembers value root members = members.map (checkCalls value root) := by
  induction members with
  | nil => rw [checkCallsOfMembers]; rfl
  | cons m ms ih => rw [checkCallsOfMembers, ih, List.map_cons]

theorem called_check (s : RuleSet) : (s.check value root).called = s.checkCalls value root := by
  induction s with
  | rule r =>
      rw [check, checkCalls]
      cases r.check <;> rfl
  | group requirement members ih =>
      have hdecisive : members.findIdx (fun m =>
          (m.check value root).outcome == requirement.deciding) =
            (plainOutcomes value root members).findIdx (· == requirement.deciding) := by
        rw [plainOutcomes_eq, List.findIdx_map]
        simp only [outcome_check]
        rfl
      rw [called_check_group, checkCalls, checkCallsOfMembers_eq, hdecisive, ← List.map_take,
        List.flatMap_def, List.map_congr_left fun m hm => ih m (List.mem_of_mem_take hm)]

/-! ## Changing places -/

/-- The rule sets differ in nothing but the order of the members of groups, at any depth. -/
inductive Reordered : RuleSet → RuleSet → Prop where
  | refl (s : RuleSet) : Reordered s s
  | trans {s t u : RuleSet} (h : Reordered s t) (h' : Reordered t u) : Reordered s u
  /-- The members of a group change places. -/
  | perm (requirement : Requirement) {members others : List RuleSet} (h : members.Perm others) :
      Reordered (group requirement members) (group requirement others)
  /-- Something inside of one member changes places. -/
  | member (requirement : Requirement) (before after : List RuleSet) {m n : RuleSet}
      (h : Reordered m n) :
      Reordered (group requirement (before ++ m :: after)) (group requirement (before ++ n :: after))

theorem Reordered.plainOutcome_eq {s t : RuleSet} (h : s.Reordered t) :
    t.plainOutcome value root = s.plainOutcome value root := by
  induction h with
  | refl => rfl
  | trans _ _ ih ih' => exact ih'.trans ih
  | perm requirement h =>
      rw [plainOutcome, plainOutcome, plainOutcomes_eq, plainOutcomes_eq]
      exact requirement.combine_perm (h.symm.map _)
  | member requirement before after _ ih =>
      rw [plainOutcome, plainOutcome, plainOutcomes_eq, plainOutcomes_eq, List.map_append,
        List.map_append, List.map_cons, List.map_cons, ih]

/-- An evaluation by checks has the outcome of the one that calls every check, and calls the checks
of each group that it reaches up to and including the first member that decides the group. Its
outcome stays if members of groups change places. -/
theorem check_eq_plain (s : RuleSet) (value root : Json) :
    s.check value root = ⟨s.plainOutcome value root, s.checkCalls value root⟩ ∧
      ∀ t : RuleSet, s.Reordered t → (t.check value root).outcome = (s.check value root).outcome := by
  refine ⟨?_, fun t h => ?_⟩
  · rw [← outcome_check, ← called_check]
  · rw [outcome_check, outcome_check, h.plainOutcome_eq]

/-! ## Two readings of one rule set -/

/-- A rule with a check of one answer. -/
def constantRule (label : String) (answer : Bool) : Rule :=
  ⟨some label, some fun _ _ => answer, none, []⟩

/-- A rule that checks nothing, and a group that is decided by its second member. -/
def decidedLate : RuleSet :=
  .group .any [
    .rule { constantRule "silent" true with check := none },
    .group .all [.rule (constantRule "yes" true), .rule (constantRule "no" false)],
    .group .any []]

/-- The same with the inner group decided by its first member, and in the first place. -/
def decidedEarly : RuleSet :=
  .group .any [
    .group .all [.rule (constantRule "no" false), .rule (constantRule "yes" true)],
    .rule { constantRule "silent" true with check := none },
    .group .any []]

/-- Both have failed, the one after two calls and the other one after a single call. -/
theorem check_decidedLate :
    decidedLate.Reordered decidedEarly ∧
      (decidedEarly.check .null .null).outcome = (decidedLate.check .null .null).outcome ∧
      (decidedLate.check .null .null).outcome = .failed ∧
      (decidedLate.check .null .null).called.map Rule.label = [some "yes", some "no"] ∧
      (decidedEarly.check .null .null).called.map Rule.label = [some "no"] := by
  have hreordered : decidedLate.Reordered decidedEarly :=
    .trans (.member .any [_] [_] (.perm .all (.swap _ _ _))) (.perm .any (.swap _ _ _))
  exact ⟨hreordered, (check_eq_plain decidedLate .null .null).2 decidedEarly hreordered, rfl, rfl,
    rfl⟩

end RuleSet

end ReactiveForm
