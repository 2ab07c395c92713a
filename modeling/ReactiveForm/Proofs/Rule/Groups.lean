import ReactiveForm.Test.Run

/-!
# Groups and their members

A rule set is a rule or a group of smaller rule sets, and `RuleSet.induction` is the induction over
it. An evaluation is carried through the members of a group by a recursion of its own. Here that
recursion is gone through once: what an evaluation makes of a group is said in terms of what it
makes of its members (`outcome_check_group`, `called_check_group`, `outcome_inquire_group`). Later
proofs about rule sets need no more than the induction and these laws.

A test puts one rule set in front of another one. However it is run, its result is made of the two
outcomes in the same way (`Test.resultBy`).
-/

namespace ReactiveForm

/-! ## Reducing outcomes -/

namespace Requirement

/-- The outcome of a group from the outcomes of all its members, in whatever order they are. -/
def combine (requirement : Requirement) (outcomes : List Outcome) : Outcome :=
  if outcomes.all (· == .skipped) then .skipped
  else
    match requirement with
    | .all => if .failed ∈ outcomes then .failed else .passed
    | .any => if .passed ∈ outcomes then .passed else .failed

variable {requirement : Requirement} {outcomes : List Outcome}

theorem deciding_ne_skipped (requirement : Requirement) : requirement.deciding ≠ .skipped := by
  cases requirement <;> exact nofun

/-- A member that decides the group outweighs all others. -/
theorem combine_eq (requirement : Requirement) (outcomes : List Outcome) :
    requirement.combine outcomes =
      if requirement.deciding ∈ outcomes then requirement.deciding
      else if outcomes.all (· == .skipped) then .skipped else requirement.undecided := by
  unfold combine
  by_cases hdecides : requirement.deciding ∈ outcomes
  · have hsome : ¬ outcomes.all (· == .skipped) = true := fun hall =>
      requirement.deciding_ne_skipped (by simpa using List.all_eq_true.1 hall _ hdecides)
    rw [if_neg hsome, if_pos hdecides]
    cases requirement
    · exact if_pos hdecides
    · exact if_pos hdecides
  · rw [if_neg hdecides]
    split
    · rfl
    · cases requirement
      · exact if_neg hdecides
      · exact if_neg hdecides

theorem combine_eq_skipped_iff :
    requirement.combine outcomes = .skipped ↔ ∀ o ∈ outcomes, o = .skipped := by
  unfold combine
  split
  · rename_i hall
    simpa using hall
  · rename_i hsome
    refine iff_of_false ?_ (by simpa using hsome)
    cases requirement <;> (dsimp only; split <;> exact nofun)

theorem reduce_eq_skipped_iff :
    requirement.reduce outcomes = .skipped ↔ ∀ o ∈ outcomes, o = .skipped := by
  unfold reduce
  split
  · rename_i hall
    simpa using hall
  · rename_i hsome
    refine iff_of_false ?_ (by simpa using hsome)
    cases requirement <;> (dsimp only [Outcome.ofBool]; split <;> exact nofun)

end Requirement

namespace RuleSet

variable {value root : Json}

/-! ## Induction -/

/-- What is true of rules, and of a group if it is true of its members, is true of rule sets. -/
@[elab_as_elim, induction_eliminator]
theorem induction {motive : RuleSet → Prop} (rule : ∀ r, motive (.rule r))
    (group : ∀ requirement members, (∀ m ∈ members, motive m) →
      motive (.group requirement members)) : ∀ s, motive s
  | .rule r => rule r
  | .group requirement members =>
    group requirement members fun m _ => induction rule group m

/-! ## Members -/

theorem rules_group (requirement : Requirement) (members : List RuleSet) :
    (group requirement members).rules = members.flatMap rules := by
  have hmembers : ∀ members, rulesOfMembers members = members.flatMap rules := by
    intro members
    induction members with
    | nil => rw [rulesOfMembers]; rfl
    | cons m ms ih => rw [rulesOfMembers, ih, List.flatMap_cons]
  rw [rules, hmembers]

theorem hasInquiry_group (requirement : Requirement) (members : List RuleSet) :
    (group requirement members).hasInquiry = members.any hasInquiry := by
  rw [hasInquiry, rules_group, List.any_flatMap]
  rfl

theorem inquireMembers_eq (members : List RuleSet) :
    inquireMembers value root members = members.map (inquire value root) := by
  induction members with
  | nil => rw [inquireMembers]; rfl
  | cons m ms ih => rw [inquireMembers, ih, List.map_cons]

theorem outcome_inquire_group (requirement : Requirement) (members : List RuleSet) :
    ((group requirement members).inquire value root).outcome =
      requirement.reduce (members.map fun m => (m.inquire value root).outcome) := by
  rw [inquire, inquireMembers_eq, List.map_map]
  rfl

theorem called_inquire_group (requirement : Requirement) (members : List RuleSet) :
    ((group requirement members).inquire value root).called =
      members.flatMap fun m => (m.inquire value root).called := by
  rw [inquire, inquireMembers_eq, List.flatMap_map]

/-- The members that are left decide their group, or they leave it to what was before them. -/
private theorem outcome_checkMembers (requirement : Requirement) (allSkipped : Bool)
    (members : List RuleSet) :
    (checkMembers value root requirement allSkipped members).outcome =
      let outcomes := members.map fun m => (m.check value root).outcome
      if requirement.deciding ∈ outcomes then requirement.deciding
      else if allSkipped && outcomes.all (· == .skipped) then .skipped
      else requirement.undecided := by
  induction members generalizing allSkipped with
  | nil => simp [checkMembers]
  | cons m ms ih =>
      rw [checkMembers]
      dsimp only
      split
      · rename_i hdecides
        rw [List.map_cons, hdecides, if_pos List.mem_cons_self]
      · rename_i hleft
        simp only [ih, List.map_cons, List.mem_cons, List.all_cons, Bool.and_assoc, Ne.symm hleft,
          false_or]

/-- The outcome of a group is that of all its members, read or not. -/
theorem outcome_check_group (requirement : Requirement) (members : List RuleSet) :
    ((group requirement members).check value root).outcome =
      requirement.combine (members.map fun m => (m.check value root).outcome) := by
  rw [check, outcome_checkMembers, Requirement.combine_eq]
  rfl

/-- The checks that are called for a group are those of its members, up to and including the first
one that decides it. -/
theorem called_check_group (requirement : Requirement) (members : List RuleSet) :
    ((group requirement members).check value root).called =
      (members.take (members.findIdx (fun m =>
        (m.check value root).outcome == requirement.deciding) + 1)).flatMap
          fun m => (m.check value root).called := by
  have hmembers : ∀ allSkipped members,
      (checkMembers value root requirement allSkipped members).called =
        (members.take (members.findIdx (fun m =>
          (m.check value root).outcome == requirement.deciding) + 1)).flatMap
            fun m => (m.check value root).called := by
    intro allSkipped members
    induction members generalizing allSkipped with
    | nil => rw [checkMembers]; rfl
    | cons m ms ih =>
        rw [checkMembers, List.findIdx_cons]
        dsimp only
        split
        · rename_i hdecides
          simp [hdecides]
        · rename_i hleft
          rw [ih, beq_eq_false_iff_ne.2 hleft]
          rfl
  rw [check, hmembers]

end RuleSet

/-! ## Tests -/

namespace Test

variable {value root : Json}

/-- The result of a test from the outcomes of rule sets. A condition that has failed skips it. -/
def resultBy (outcome : RuleSet → Outcome) (t : Test) : TestResult :=
  if t.condition.map outcome = some .failed then .ofOutcome t .skipped
  else .ofOutcome t (outcome t.rules)

theorem result_runChecks (t : Test) :
    (t.runChecks value root).result = t.resultBy fun s => (s.check value root).outcome := by
  unfold runChecks resultBy
  cases t.condition with
  | none => rfl
  | some c =>
      simp only [Option.map_some, Option.some.injEq]
      split
      · rfl
      · rfl

theorem result_runInquiries (t : Test) :
    (t.runInquiries value root).result = t.resultBy fun s => (s.inquire value root).outcome := by
  unfold runInquiries resultBy
  cases t.condition with
  | none => rfl
  | some c =>
      simp only [Option.map_some, Option.some.injEq]
      split
      · rfl
      · rfl

/-- Nothing counts but the outcomes of the check and of the condition. -/
theorem resultBy_congr {t : Test} {outcome other : RuleSet → Outcome}
    (hrules : outcome t.rules = other t.rules)
    (hcondition : ∀ c, t.condition = some c → outcome c = other c) :
    t.resultBy outcome = t.resultBy other := by
  have hgate : t.condition.map outcome = t.condition.map other := Option.map_congr hcondition
  rw [resultBy, resultBy, hrules, hgate]

end Test

end ReactiveForm
