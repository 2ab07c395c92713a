import ReactiveForm.Proofs.Rule.Skipping
import ReactiveForm.Rule.Predicate

/-!
# Checks against inquiries

A rule that has both a check and an inquiry may say the same by either (`Rule.Consistent`). Groups
of such rules need not, because the two evaluations count a skipped member differently: one by checks
passes over it, and one by inquiries counts it against a group that requires all its members. What
passes by inquiries still passes by checks (`passed_of_inquire`).

Only groups without members are skipped among such rules. Where there are none, both evaluations
have the same outcome (`outcome_inquire_of_filled`), and so tests have the same results however they
are run (`checks_agree_with_inquiries`).
-/

namespace ReactiveForm

variable {value root : Json}

/-! ## Outcomes -/

namespace Outcome

theorem ofBool_eq_passed_iff {b : Bool} : ofBool b = .passed ↔ b = true := by
  cases b <;> simp [ofBool]

theorem eq_of_iff {o o' : Outcome} (hskipped : o = .skipped ↔ o' = .skipped)
    (hpassed : o = .passed ↔ o' = .passed) : o = o' := by
  cases o <;> cases o' <;> simp_all

end Outcome

/-- The rule says the same by its check and by its inquiry. -/
def Rule.Consistent (r : Rule) : Prop :=
  ∃ check inquiry, r.check = some check ∧ r.inquiry = some inquiry ∧
    ∀ value root, (inquiry value root).passed = check value root

/-! ## Groups -/

namespace Requirement

variable {requirement : Requirement} {outcomes : List Outcome}

theorem reduce_eq_passed_iff :
    requirement.reduce outcomes = .passed ↔ (∃ o ∈ outcomes, o ≠ .skipped) ∧
      match requirement with
      | .all => ∀ o ∈ outcomes, o = .passed
      | .any => .passed ∈ outcomes := by
  unfold reduce
  split
  · rename_i hall
    refine iff_of_false nofun fun ⟨⟨o, ho, hne⟩, _⟩ => hne ?_
    simpa using List.all_eq_true.1 hall o ho
  · rename_i hsome
    have hsome : ∃ o ∈ outcomes, o ≠ .skipped := by simpa using hsome
    rw [and_iff_right hsome]
    cases requirement <;> simp [Outcome.ofBool_eq_passed_iff]

theorem combine_eq_passed_iff :
    requirement.combine outcomes = .passed ↔ (∃ o ∈ outcomes, o ≠ .skipped) ∧
      match requirement with
      | .all => .failed ∉ outcomes
      | .any => .passed ∈ outcomes := by
  unfold combine
  split
  · rename_i hall
    refine iff_of_false nofun fun ⟨⟨o, ho, hne⟩, _⟩ => hne ?_
    simpa using List.all_eq_true.1 hall o ho
  · rename_i hsome
    have hsome : ∃ o ∈ outcomes, o ≠ .skipped := by simpa using hsome
    rw [and_iff_right hsome]
    cases requirement <;> simp

/-- Without skipped members both evaluations make the same of a group. -/
theorem reduce_eq_combine (h : ∀ o ∈ outcomes, o ≠ .skipped) :
    requirement.reduce outcomes = requirement.combine outcomes := by
  refine Outcome.eq_of_iff ?_ ?_
  · rw [reduce_eq_skipped_iff, combine_eq_skipped_iff]
  · rw [reduce_eq_passed_iff, combine_eq_passed_iff]
    refine and_congr_right fun _ => ?_
    cases requirement with
    | any => exact .rfl
    | all =>
        refine ⟨fun hall hfailed => (nomatch hall _ hfailed), fun hnone o ho => ?_⟩
        cases o with
        | passed => rfl
        | failed => exact absurd ho hnone
        | skipped => exact absurd rfl (h _ ho)

end Requirement

namespace RuleSet

/-- All rules of the rule set say the same by their checks and by their inquiries. -/
def Consistent (s : RuleSet) : Prop := ∀ r ∈ s.rules, r.Consistent

/-- No group of the rule set is empty, at any depth. -/
inductive Filled : RuleSet → Prop where
  | rule (r : Rule) : Filled (.rule r)
  | group (requirement : Requirement) {members : List RuleSet} (hsome : members ≠ [])
      (hmembers : ∀ m ∈ members, Filled m) : Filled (.group requirement members)

theorem consistent_group {requirement : Requirement} {members : List RuleSet} :
    (group requirement members).Consistent ↔ ∀ m ∈ members, m.Consistent := by
  rw [Consistent, rules_group, List.forall_mem_flatMap]
  rfl

theorem Consistent.outcome_inquire_rule {r : Rule} (h : (rule r).Consistent) :
    ((rule r).inquire value root).outcome = ((rule r).check value root).outcome := by
  rw [Consistent, rules, List.forall_mem_singleton] at h
  obtain ⟨check, inquiry, hcheck, hinquiry, hsame⟩ := h
  rw [inquire, hinquiry, RuleSet.check, hcheck]
  exact congrArg Outcome.ofBool (hsame value root)

variable {s : RuleSet}

/-- Both evaluations skip a rule set if it has no rules at all. -/
theorem Consistent.skipped_iff (h : s.Consistent) :
    (s.inquire value root).outcome = .skipped ↔ (s.check value root).outcome = .skipped := by
  rw [outcome_inquire_eq_skipped_iff, outcome_check_eq_skipped_iff, hasInquiry, List.any_eq_false]
  refine forall₂_congr fun r hr => ?_
  obtain ⟨check, inquiry, hcheck, hinquiry, -⟩ := h r hr
  simp [hcheck, hinquiry]

/-- What passes by inquiries passes by checks. -/
theorem Consistent.passed_of_inquire (h : s.Consistent)
    (hpassed : (s.inquire value root).outcome = .passed) :
    (s.check value root).outcome = .passed := by
  induction s with
  | rule r =>
      rwa [h.outcome_inquire_rule] at hpassed
  | group requirement members ih =>
      rw [consistent_group] at h
      rw [outcome_inquire_group, Requirement.reduce_eq_passed_iff] at hpassed
      rw [outcome_check_group, Requirement.combine_eq_passed_iff]
      obtain ⟨⟨o, ho, hsome⟩, hall⟩ := hpassed
      obtain ⟨m, hm, rfl⟩ := List.mem_map.1 ho
      refine ⟨⟨_, List.mem_map_of_mem hm, fun hskipped => hsome ((h m hm).skipped_iff.2 hskipped)⟩,
        ?_⟩
      cases requirement with
      | all =>
          intro hfailed
          obtain ⟨n, hn, hfailed⟩ := List.mem_map.1 hfailed
          have hpassed := ih n hn (h n hn) (hall _ (List.mem_map_of_mem hn))
          rw [hpassed] at hfailed
          cases hfailed
      | any =>
          obtain ⟨n, hn, hpassed⟩ := List.mem_map.1 hall
          exact List.mem_map.2 ⟨n, hn, ih n hn (h n hn) hpassed⟩

theorem Filled.rules_ne_nil (h : s.Filled) : s.rules ≠ [] := by
  induction h with
  | rule r =>
      rw [rules]
      exact List.cons_ne_nil r []
  | group requirement hsome hmembers ih =>
      obtain ⟨m, hm⟩ := List.exists_mem_of_ne_nil _ hsome
      rw [rules_group, ne_eq, List.flatMap_eq_nil_iff]
      exact fun hnil => ih m hm (hnil m hm)

/-- Only groups without members are skipped. -/
theorem Consistent.check_ne_skipped (h : s.Consistent) (hfilled : s.Filled) :
    (s.check value root).outcome ≠ .skipped := by
  obtain ⟨r, hr⟩ := List.exists_mem_of_ne_nil _ hfilled.rules_ne_nil
  obtain ⟨check, -, hcheck, -, -⟩ := h r hr
  intro hskipped
  have hnone := (s.outcome_check_eq_skipped_iff value root).1 hskipped r hr
  rw [hcheck] at hnone
  cases hnone

/-- Without empty groups both evaluations have the same outcome. -/
theorem Consistent.outcome_inquire_of_filled (h : s.Consistent) (hfilled : s.Filled)
    (value root : Json) :
    (s.inquire value root).outcome = (s.check value root).outcome := by
  induction hfilled with
  | rule r =>
      exact h.outcome_inquire_rule
  | group requirement hsome hmembers ih =>
      rw [consistent_group] at h
      have hsame := List.map_congr_left fun m hm => ih m hm (h m hm)
      rw [outcome_inquire_group, outcome_check_group, hsame]
      refine Requirement.reduce_eq_combine fun o ho => ?_
      obtain ⟨m, hm, rfl⟩ := List.mem_map.1 ho
      exact (h m hm).check_ne_skipped (hmembers m hm)

end RuleSet

/-! ## Tests -/

namespace Test

/-- The check of the test and its condition say the same by checks and by inquiries, and they have
no empty groups. -/
structure Consistent (t : Test) : Prop where
  rules : t.rules.Consistent ∧ t.rules.Filled
  condition : ∀ c, t.condition = some c → c.Consistent ∧ c.Filled

theorem Consistent.result_runInquiries {t : Test} (h : t.Consistent) :
    (t.runInquiries value root).result = (t.runChecks value root).result := by
  rw [Test.result_runInquiries, Test.result_runChecks]
  refine resultBy_congr (h.rules.1.outcome_inquire_of_filled h.rules.2 value root) fun c hc => ?_
  obtain ⟨hconsistent, hfilled⟩ := h.condition c hc
  exact hconsistent.outcome_inquire_of_filled hfilled value root

end Test

namespace TestResults

variable {tests : List Test}

theorem results_runInquiries_of_consistent (h : ∀ t ∈ tests, t.Consistent) :
    (runInquiries value root tests).results = (runChecks value root tests).results := by
  simp only [runInquiries, runChecks, List.map_map]
  exact congrArg TestResults.mk (List.map_congr_left fun t ht => (h t ht).result_runInquiries)

theorem results_runAll_of_consistent (h : ∀ t ∈ tests, t.Consistent) :
    (runAll value root tests).results = (runChecks value root tests).results := by
  unfold runAll
  dsimp only
  split
  · exact results_runInquiries_of_consistent h
  · rfl

end TestResults

/-- For rules that say the same by their checks and by their inquiries, both evaluations skip the
same rule sets, and what passes by inquiries passes by checks. Without empty groups they have the
same outcome, and then tests have the same results by checks, by inquiries and in a full run. -/
theorem checks_agree_with_inquiries :
    (∀ s : RuleSet, s.Consistent → ∀ value root,
      ((s.inquire value root).outcome = .skipped ↔ (s.check value root).outcome = .skipped) ∧
      ((s.inquire value root).outcome = .passed → (s.check value root).outcome = .passed) ∧
      (s.Filled → (s.inquire value root).outcome = (s.check value root).outcome)) ∧
    ∀ tests : List Test, (∀ t ∈ tests, t.Consistent) → ∀ value root,
      (TestResults.runInquiries value root tests).results =
          (TestResults.runChecks value root tests).results ∧
        (TestResults.runAll value root tests).results =
          (TestResults.runChecks value root tests).results :=
  ⟨fun _ h value root => ⟨h.skipped_iff, h.passed_of_inquire,
      fun hfilled => h.outcome_inquire_of_filled hfilled value root⟩,
    fun _ h _ _ => ⟨TestResults.results_runInquiries_of_consistent h,
      TestResults.results_runAll_of_consistent h⟩⟩

/-! ## With and without an empty group -/

theorem Rule.consistent_ofPredicates (label : Option String) (p : Predicate) (delay : Nat)
    (dependencies : List String) :
    (ofPredicates label (some p) (some p) delay dependencies).Consistent :=
  ⟨_, _, rfl, rfl, fun _ _ => rfl⟩

/-- A rule that gives one answer, by its check at once and by its inquiry after a while. -/
def Rule.steady (label : String) (answer : Bool) (delay : Nat) : Rule :=
  .ofPredicates (some label) (some (.const answer)) (some (.const answer)) delay []

/-- The value is a number that is large enough. -/
def atLeast (n : Nat) : Rule := .ofPredicates none (some (.min n)) (some (.min n)) 10 []

/-- A number next to an empty group. -/
def besideNothing : RuleSet := .group .all [.rule (atLeast 3), .group .any []]

/-- A number that is in a range or beyond it, under a condition. -/
def conditioned : Test :=
  { Test.ofRules (.group .any [.group .all [.rule (atLeast 3), .rule (atLeast 9)],
      .rule (atLeast 5)]) with
    condition := some (.group .all [.rule (atLeast 1)]) }

/-- Beside an empty group the number passes by checks only. In the test, which has no empty groups,
it passes in all ways. -/
theorem checks_agree_conditioned :
    (besideNothing.check (.natural 5) .null).outcome = .passed ∧
      (besideNothing.inquire (.natural 5) .null).outcome = .failed ∧
      ((besideNothing.inquire (.natural 5) .null).outcome = .skipped ↔
        (besideNothing.check (.natural 5) .null).outcome = .skipped) ∧
      (TestResults.runChecks (.natural 5) .null [conditioned]).results.passed = true ∧
      (TestResults.runAll (.natural 5) .null [conditioned]).results =
        (TestResults.runChecks (.natural 5) .null [conditioned]).results := by
  have hatLeast : ∀ n, (atLeast n).Consistent := fun n =>
    Rule.consistent_ofPredicates none (.min n) 10 []
  have hbeside : besideNothing.Consistent := List.forall_mem_singleton.2 (hatLeast 3)
  have hrange : conditioned.Consistent := by
    refine ⟨⟨?_, ?_⟩, fun c hc => ?_⟩
    · exact List.forall_mem_cons.2 ⟨hatLeast 3, List.forall_mem_cons.2 ⟨hatLeast 9,
        List.forall_mem_singleton.2 (hatLeast 5)⟩⟩
    · refine .group .any nofun (List.forall_mem_cons.2 ⟨.group .all nofun ?_,
        List.forall_mem_singleton.2 (.rule _)⟩)
      exact List.forall_mem_cons.2 ⟨.rule _, List.forall_mem_singleton.2 (.rule _)⟩
    · cases hc
      exact ⟨List.forall_mem_singleton.2 (hatLeast 1),
        .group .all nofun (List.forall_mem_singleton.2 (.rule _))⟩
  exact ⟨by decide +kernel, by decide +kernel,
    (checks_agree_with_inquiries.1 besideNothing hbeside _ _).1, by decide +kernel,
    (checks_agree_with_inquiries.2 [conditioned] (List.forall_mem_singleton.2 hrange) _ _).2⟩

end ReactiveForm
