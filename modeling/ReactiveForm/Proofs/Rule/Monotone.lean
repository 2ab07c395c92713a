import Mathlib.Data.List.Forall2
import ReactiveForm.Proofs.Rule.Modes
import ReactiveForm.Proofs.Test.Views

/-!
# Letting rules pass

What happens to the outcome of a rule set if some of its rules pass that did not pass before, and
nothing else is changed? An evaluation by checks then reads other members of a group than before,
and one by inquiries counts skipped members against a group. Still the outcome can only get better:
what was skipped is skipped, and what passed passes (`RuleSet.improves_of_eased`).

The argument is about outcomes (`Outcome.Improves`). A group whose members improve has an outcome
that improves, in whatever way it is evaluated and whatever it requires
(`Requirement.improves_settle`). In lists of tests without conditions no failure comes up that was
not there before (`TestResults.noWorse_runChecks`, `TestResults.noWorse_runInquiries`). A full run
goes on to the inquiries when all checks pass, so it may show failures that it had no occasion to
show before; but where it passed it passes (`TestResults.noWorse_runAll`).
-/

namespace ReactiveForm

variable {value root : Json}

/-! ## Lists that correspond -/

section Corresponding

variable {α β : Type} {R : α → β → Prop} {P : α → Prop} {Q : β → Prop} {l : List α} {k : List β}

private theorem forall_mem_of_forall₂ (h : List.Forall₂ R l k)
    (himp : ∀ a b, R a b → P a → Q b) (hall : ∀ a ∈ l, P a) : ∀ b ∈ k, Q b := by
  induction h with
  | nil => exact List.forall_mem_nil Q
  | cons hab _ ih =>
      rw [List.forall_mem_cons] at hall ⊢
      exact ⟨himp _ _ hab hall.1, ih hall.2⟩

private theorem exists_mem_of_forall₂ (h : List.Forall₂ R l k)
    (himp : ∀ a b, R a b → P a → Q b) (hsome : ∃ a ∈ l, P a) : ∃ b ∈ k, Q b := by
  by_contra hnone
  obtain ⟨a, ha, hP⟩ := hsome
  have hleft : ∀ b ∈ k, ¬ Q b := fun b hb hQ => hnone ⟨b, hb, hQ⟩
  exact forall_mem_of_forall₂ (R := fun b a => R a b) (P := fun b => ¬ Q b) (Q := fun a => ¬ P a)
    h.flip (fun b a hab hQ hP => hQ (himp a b hab hP)) hleft a ha hP

end Corresponding

/-! ## Outcomes -/

/-- The two ways to evaluate a rule set. -/
inductive Mode where
  /-- By checks. -/
  | checks
  /-- By inquiries. -/
  | inquiries

/-- The outcome is as good as another one: it is skipped where the other one is, and it passed if
the other one did. -/
structure Outcome.Improves (before after : Outcome) : Prop where
  skipped_iff : before = .skipped ↔ after = .skipped
  passed : before = .passed → after = .passed

theorem Outcome.Improves.ne_failed {before after : Outcome} (h : before.Improves after)
    (hne : before ≠ .failed) : after ≠ .failed := by
  cases before with
  | passed => exact h.passed rfl ▸ nofun
  | skipped => exact h.skipped_iff.1 rfl ▸ nofun
  | failed => exact absurd rfl hne

namespace Requirement

variable {requirement : Requirement} {outcomes others : List Outcome}

/-- The outcome of a group from the outcomes of its members. -/
def settle (requirement : Requirement) : Mode → List Outcome → Outcome
  | .checks => requirement.combine
  | .inquiries => requirement.reduce

theorem settle_eq_skipped_iff {mode : Mode} :
    requirement.settle mode outcomes = .skipped ↔ ∀ o ∈ outcomes, o = .skipped := by
  cases mode with
  | checks => exact combine_eq_skipped_iff
  | inquiries => exact reduce_eq_skipped_iff

theorem passed_of_improves (mode : Mode)
    (h : List.Forall₂ Outcome.Improves outcomes others)
    (hpassed : requirement.settle mode outcomes = .passed) :
    requirement.settle mode others = .passed := by
  have hsome : (∃ o ∈ outcomes, o ≠ .skipped) → ∃ o ∈ others, o ≠ .skipped :=
    exists_mem_of_forall₂ h fun _ _ himproves hne hskipped =>
      hne (himproves.skipped_iff.2 hskipped)
  have hany : .passed ∈ outcomes → .passed ∈ others := fun hmem => by
    obtain ⟨o, ho, rfl⟩ := exists_mem_of_forall₂ (P := (· = .passed)) (Q := (· = .passed)) h
      (fun _ _ himproves => himproves.passed) ⟨.passed, hmem, rfl⟩
    exact ho
  cases mode with
  | checks =>
      rw [settle, combine_eq_passed_iff] at hpassed ⊢
      refine hpassed.imp hsome fun hmembers => ?_
      cases requirement with
      | any => exact hany hmembers
      | all =>
          -- a member that had not failed does not fail now
          have hleft : ∀ o ∈ others, o ≠ .failed :=
            forall_mem_of_forall₂ (P := (· ≠ .failed)) h (fun _ _ himproves => himproves.ne_failed)
              fun o ho hfailed => hmembers (hfailed ▸ ho)
          exact fun hfailed => hleft _ hfailed rfl
  | inquiries =>
      rw [settle, reduce_eq_passed_iff] at hpassed ⊢
      refine hpassed.imp hsome fun hmembers => ?_
      cases requirement with
      | any => exact hany hmembers
      | all => exact forall_mem_of_forall₂ h (fun _ _ himproves => himproves.passed) hmembers

/-- A group whose members improve improves. -/
theorem improves_settle (mode : Mode) (h : List.Forall₂ Outcome.Improves outcomes others) :
    (requirement.settle mode outcomes).Improves (requirement.settle mode others) where
  skipped_iff := by
    rw [settle_eq_skipped_iff, settle_eq_skipped_iff]
    exact ⟨forall_mem_of_forall₂ h fun _ _ himproves => himproves.skipped_iff.1,
      forall_mem_of_forall₂ h.flip fun _ _ himproves => himproves.skipped_iff.2⟩
  passed := passed_of_improves mode h

end Requirement

/-! ## Rule sets -/

/-- What a rule says about a value, if it has a function for the evaluation. -/
def Rule.answer? (mode : Mode) (value root : Json) (r : Rule) : Option Bool :=
  match mode with
  | .checks => r.check.map fun f => f value root
  | .inquiries => r.inquiry.map fun f => (f value root).passed

/-- A rule in the place of another one has a function for the evaluation if the other one has, and
passes if the other one does. -/
structure Rule.Eased (mode : Mode) (value root : Json) (before after : Rule) : Prop where
  answers_iff : (before.answer? mode value root).isSome = (after.answer? mode value root).isSome
  passes : before.answer? mode value root = some true → after.answer? mode value root = some true

theorem Rule.Eased.refl (mode : Mode) (value root : Json) (r : Rule) : r.Eased mode value root r :=
  ⟨rfl, id⟩

namespace RuleSet

/-- The outcome of a rule set. -/
def outcome (mode : Mode) (value root : Json) (s : RuleSet) : Outcome :=
  match mode with
  | .checks => (s.check value root).outcome
  | .inquiries => (s.inquire value root).outcome

/-- Two rule sets of the same shape, with rules in the same places that are related. -/
inductive Corresponds (R : Rule → Rule → Prop) : RuleSet → RuleSet → Prop where
  | rule {r r' : Rule} (h : R r r') : Corresponds R (rule r) (rule r')
  | group (requirement : Requirement) {members others : List RuleSet}
      (h : List.Forall₂ (Corresponds R) members others) :
      Corresponds R (group requirement members) (group requirement others)

variable {mode : Mode} {s t : RuleSet}

theorem outcome_rule (r : Rule) :
    (rule r).outcome mode value root =
      ((r.answer? mode value root).map Outcome.ofBool).getD .skipped := by
  cases mode with
  | checks =>
      rw [outcome, RuleSet.check, Rule.answer?]
      cases r.check <;> rfl
  | inquiries =>
      rw [outcome, inquire, Rule.answer?]
      cases r.inquiry <;> rfl

theorem outcome_group (requirement : Requirement) (members : List RuleSet) :
    (group requirement members).outcome mode value root =
      requirement.settle mode (members.map (outcome mode value root)) := by
  cases mode with
  | checks => exact outcome_check_group requirement members
  | inquiries => exact outcome_inquire_group requirement members

theorem improves_rule {r r' : Rule} (h : r.Eased mode value root r') :
    ((rule r).outcome mode value root).Improves ((rule r').outcome mode value root) := by
  obtain ⟨hanswers, hpasses⟩ := h
  rw [outcome_rule, outcome_rule]
  cases hbefore : r.answer? mode value root with
  | none =>
      rw [hbefore, Option.isSome_none, eq_comm, Option.isSome_eq_false_iff,
        Option.isNone_iff_eq_none] at hanswers
      rw [hanswers]
      exact ⟨.rfl, id⟩
  | some answer =>
      rw [hbefore, Option.isSome_some, eq_comm, Option.isSome_iff_exists] at hanswers
      obtain ⟨answer', hafter⟩ := hanswers
      rw [hafter]
      refine ⟨iff_of_false (Outcome.ofBool_ne_skipped _) (Outcome.ofBool_ne_skipped _), fun h => ?_⟩
      have hanswer : answer = true := Outcome.ofBool_eq_passed_iff.1 h
      rw [hbefore, hafter, hanswer] at hpasses
      exact Outcome.ofBool_eq_passed_iff.2 (Option.some.inj (hpasses rfl))

/-- If rules pass that did not pass before, the outcome can only get better. -/
theorem improves_of_eased (h : Corresponds (Rule.Eased mode value root) s t) :
    (s.outcome mode value root).Improves (t.outcome mode value root) := by
  induction s generalizing t with
  | rule r =>
      cases h with
      | rule h => exact improves_rule h
  | group requirement members ih =>
      cases h with
      | group _ h =>
          rw [outcome_group, outcome_group]
          refine requirement.improves_settle mode ?_
          rw [List.forall₂_map_left_iff, List.forall₂_map_right_iff]
          exact ((List.forall₂_and_left _ _).2 ⟨ih, h⟩).imp fun m n ⟨ih, h⟩ => ih h

end RuleSet

/-! ## Tests without conditions -/

/-- A test in the place of another one has rules that are eased, and both have no condition. -/
structure Test.Eased (mode : Mode) (value root : Json) (before after : Test) : Prop where
  rules : before.rules.Corresponds (Rule.Eased mode value root) after.rules
  unconditional : before.condition = none ∧ after.condition = none
  name : after.name = before.name
  message : after.message = before.message

/-- A result that is no new failure: if it is one, it was there before. -/
def TestResult.NoWorse (before after : TestResult) : Prop :=
  after.passed = false → after = before

theorem TestResult.passed_ofOutcome_eq_false_iff (t : Test) (o : Outcome) :
    (TestResult.ofOutcome t o).passed = false ↔ o = .failed := by
  cases o <;> simp [ofOutcome]

namespace Test

variable {mode : Mode} {before after : Test}

theorem resultBy_of_unconditional {t : Test} (h : t.condition = none)
    (outcome : RuleSet → Outcome) : t.resultBy outcome = .ofOutcome t (outcome t.rules) := by
  rw [resultBy, h, Option.map_none, if_neg (Option.some_ne_none _).symm]

/-- Only a test that had failed before fails, with the same name and message. -/
theorem Eased.noWorse (h : before.Eased mode value root after) :
    TestResult.NoWorse (before.resultBy (RuleSet.outcome mode value root))
      (after.resultBy (RuleSet.outcome mode value root)) := by
  rw [resultBy_of_unconditional h.unconditional.1, resultBy_of_unconditional h.unconditional.2]
  intro hfails
  have hafter := (TestResult.passed_ofOutcome_eq_false_iff _ _).1 hfails
  have hbefore : before.rules.outcome mode value root = .failed := by
    by_contra hne
    exact (RuleSet.improves_of_eased h.rules).ne_failed hne hafter
  rw [hafter, hbefore, TestResult.ofOutcome, TestResult.ofOutcome, h.name, h.message]

end Test

namespace TestResults

variable {mode : Mode} {before after : TestResults} {tests eased : List Test}

/-- Nothing got worse: what passed passes, and there are no new failures and no new messages. -/
structure NoWorse (before after : TestResults) : Prop where
  passed : before.passed = true → after.passed = true
  failures : after.failedResults.Sublist before.failedResults
  messages : after.messages ⊆ before.messages

theorem failedResults_sublist {l k : List TestResult} (h : List.Forall₂ TestResult.NoWorse l k) :
    (TestResults.mk k).failedResults.Sublist (TestResults.mk l).failedResults := by
  unfold failedResults
  induction h with
  | nil => exact .slnil
  | @cons r r' l k hr _ ih =>
      cases hpassed : r'.passed with
      | true =>
          rw [List.filter_cons_of_neg (by simp [hpassed])]
          exact ih.trans (List.Sublist.filter _ (List.sublist_cons_self r l))
      | false =>
          rw [← hr hpassed, List.filter_cons_of_pos (by simp [hpassed]),
            List.filter_cons_of_pos (by simp [hpassed])]
          exact ih.cons_cons r'

/-- Results of which none is a new failure are no worse. -/
theorem noWorse_of_forall₂ {l k : List TestResult} (h : List.Forall₂ TestResult.NoWorse l k) :
    NoWorse ⟨l⟩ ⟨k⟩ where
  passed hpassed := by
    rw [passed_iff_failedResults] at hpassed ⊢
    exact List.sublist_nil.1 (hpassed ▸ failedResults_sublist h)
  failures := failedResults_sublist h
  messages m hm := by
    rw [messages, mem_distinct] at hm ⊢
    exact ((failedResults_sublist h).filterMap TestResult.message).subset hm

/-- The results of eased tests are no worse. -/
theorem noWorse_of_eased (h : List.Forall₂ (Test.Eased mode value root) tests eased) :
    NoWorse ⟨tests.map fun t => t.resultBy (RuleSet.outcome mode value root)⟩
      ⟨eased.map fun t => t.resultBy (RuleSet.outcome mode value root)⟩ := by
  refine noWorse_of_forall₂ ?_
  rw [List.forall₂_map_left_iff, List.forall₂_map_right_iff]
  exact h.imp fun _ _ heased => heased.noWorse

theorem results_runChecks (tests : List Test) :
    (runChecks value root tests).results =
      ⟨tests.map fun t => t.resultBy (RuleSet.outcome .checks value root)⟩ := by
  simp only [runChecks, List.map_map]
  exact congrArg TestResults.mk (List.map_congr_left fun t _ => t.result_runChecks)

theorem results_runInquiries (tests : List Test) :
    (runInquiries value root tests).results =
      ⟨tests.map fun t => t.resultBy (RuleSet.outcome .inquiries value root)⟩ := by
  simp only [runInquiries, List.map_map]
  exact congrArg TestResults.mk (List.map_congr_left fun t _ => t.result_runInquiries)

theorem noWorse_runChecks (h : List.Forall₂ (Test.Eased .checks value root) tests eased) :
    NoWorse (runChecks value root tests).results (runChecks value root eased).results := by
  rw [results_runChecks, results_runChecks]
  exact noWorse_of_eased h

theorem noWorse_runInquiries (h : List.Forall₂ (Test.Eased .inquiries value root) tests eased) :
    NoWorse (runInquiries value root tests).results (runInquiries value root eased).results := by
  rw [results_runInquiries, results_runInquiries]
  exact noWorse_of_eased h

/-- A full run that passed has come to the inquiries. -/
theorem runAll_of_passed (h : (runAll value root tests).results.passed = true) :
    (runChecks value root tests).results.passed = true ∧
      (runAll value root tests).results = (runInquiries value root tests).results := by
  unfold runAll at h ⊢
  dsimp only at h ⊢
  split at h
  · rename_i hchecks
    exact ⟨hchecks, if_pos hchecks ▸ rfl⟩
  · rename_i hchecks
    exact absurd h hchecks

/-- A full run that passed passes. -/
theorem noWorse_runAll (hchecks : List.Forall₂ (Test.Eased .checks value root) tests eased)
    (hinquiries : List.Forall₂ (Test.Eased .inquiries value root) tests eased)
    (hpassed : (runAll value root tests).results.passed = true) :
    NoWorse (runAll value root tests).results (runAll value root eased).results := by
  obtain ⟨hbefore, hresults⟩ := runAll_of_passed hpassed
  have hafter := (noWorse_runChecks hchecks).passed hbefore
  have hall : (runAll value root eased).results = (runInquiries value root eased).results := by
    unfold runAll
    dsimp only
    rw [if_pos hafter]
  rw [hresults, hall]
  exact noWorse_runInquiries hinquiries

end TestResults

/-- Letting rules pass never makes anything worse, however rules are evaluated. Of two rule sets of
the same shape whose rules have functions for the same evaluations, where every rule that passes in
the first one passes in the second one, both are skipped or none is, and if the first one passes, so
does the second one. Then lists of tests without conditions have no failures and no messages that
they did not have before, by checks and by inquiries, and in full runs that passed before. -/
theorem easing_never_worsens (value root : Json) :
    (∀ (mode : Mode) (s t : RuleSet), s.Corresponds (Rule.Eased mode value root) t →
      (s.outcome mode value root = .skipped ↔ t.outcome mode value root = .skipped) ∧
        (s.outcome mode value root = .passed → t.outcome mode value root = .passed)) ∧
    ∀ tests eased : List Test,
      (List.Forall₂ (Test.Eased .checks value root) tests eased →
        TestResults.NoWorse (TestResults.runChecks value root tests).results
          (TestResults.runChecks value root eased).results) ∧
      (List.Forall₂ (Test.Eased .inquiries value root) tests eased →
        TestResults.NoWorse (TestResults.runInquiries value root tests).results
          (TestResults.runInquiries value root eased).results) ∧
      (List.Forall₂ (Test.Eased .checks value root) tests eased →
        List.Forall₂ (Test.Eased .inquiries value root) tests eased →
        (TestResults.runAll value root tests).results.passed = true →
        TestResults.NoWorse (TestResults.runAll value root tests).results
          (TestResults.runAll value root eased).results) := by
  refine ⟨fun mode s t h => ?_, fun tests eased => ?_⟩
  · obtain ⟨hskipped, hpassed⟩ := RuleSet.improves_of_eased h
    exact ⟨hskipped, hpassed⟩
  · exact ⟨TestResults.noWorse_runChecks, TestResults.noWorse_runInquiries,
      TestResults.noWorse_runAll⟩

/-! ## A rule that passes later -/

/-- A group that is decided by its second member, unless a rule in the first one passes. -/
def eitherWay (answer : Bool) : RuleSet :=
  .group .any [
    .group .all [.rule (.steady "strict" answer 10),
      .rule { Rule.steady "mute" true 10 with check := none }],
    .rule (.steady "other" true 10)]

/-- A test with this group. -/
def eitherWayTest (answer : Bool) : Test :=
  { Test.ofRules (eitherWay answer) with message := some "Neither" }

theorem corresponds_eitherWay (mode : Mode) :
    (eitherWay false).Corresponds (Rule.Eased mode .null .null) (eitherWay true) := by
  have hstrict : (Rule.steady "strict" false 10).Eased mode .null .null
      (Rule.steady "strict" true 10) := by
    cases mode <;> exact ⟨rfl, nofun⟩
  exact .group .any (.cons (.group .all (.cons (.rule hstrict) (.cons (.rule (.refl ..)) .nil)))
    (.cons (.rule (.refl ..)) .nil))

theorem eased_eitherWayTest (mode : Mode) :
    List.Forall₂ (Test.Eased mode .null .null) [eitherWayTest false] [eitherWayTest true] :=
  .cons ⟨corresponds_eitherWay mode, ⟨rfl, rfl⟩, rfl, rfl⟩ .nil

/-- The group is left earlier when the rule passes, and a full run passes as before. -/
theorem easing_never_worsens_eitherWayTest :
    (eitherWay false).Corresponds (Rule.Eased .inquiries .null .null) (eitherWay true) ∧
      (eitherWay true).outcome .inquiries .null .null = .passed ∧
      (TestResults.runAll .null .null [eitherWayTest false]).results.passed = true ∧
      TestResults.NoWorse (TestResults.runAll .null .null [eitherWayTest false]).results
        (TestResults.runAll .null .null [eitherWayTest true]).results ∧
      (TestResults.runAll .null .null [eitherWayTest false]).checked.map Rule.label =
        [some "strict", some "other"] ∧
      (TestResults.runAll .null .null [eitherWayTest true]).checked.map Rule.label =
        [some "strict"] := by
  have hcorresponds := corresponds_eitherWay .inquiries
  have hbefore : (eitherWay false).outcome .inquiries .null .null = .passed := by decide +kernel
  have hpassed : (TestResults.runAll .null .null [eitherWayTest false]).results.passed = true := by
    decide +kernel
  exact ⟨hcorresponds,
    ((easing_never_worsens .null .null).1 .inquiries _ _ hcorresponds).2 hbefore, hpassed,
    ((easing_never_worsens .null .null).2 _ _).2.2 (eased_eitherWayTest .checks)
      (eased_eitherWayTest .inquiries) hpassed,
    by decide +kernel, by decide +kernel⟩

-- where a full run ended with the checks, it can go on to a failure that was not seen before
example :
    let now (answer : Bool) : RuleSet := .rule { Rule.steady "now" answer 10 with inquiry := none }
    let later : RuleSet := .rule { Rule.steady "later" false 10 with check := none }
    let tests (answer : Bool) : List Test :=
      [{ Test.ofRules (now answer) with message := "first" },
        { Test.ofRules later with message := "second" }]
    (TestResults.runAll .null .null (tests false)).results.messages = ["first"] ∧
      (TestResults.runAll .null .null (tests true)).results.messages = ["second"] := by
  decide +kernel

end ReactiveForm
