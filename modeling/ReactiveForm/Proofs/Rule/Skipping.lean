import ReactiveForm.Proofs.Rule.Groups

/-!
# What is skipped

Whether a rule set is skipped does not depend on what its rules answer. An evaluation by checks
skips it if no rule at any depth has a check, and an evaluation by inquiries if none has an inquiry
(`outcome_check_eq_skipped_iff`, `outcome_inquire_eq_skipped_iff`). An evaluation by inquiries asks
every rule that has one (`called_inquire`). So tests without inquiries ask nothing and are all
skipped, and there are no errors to be had from them (`errors?_runInquiries`).
-/

namespace ReactiveForm

variable {value root : Json}

/-! ## Rule sets -/

theorem Outcome.ofBool_ne_skipped (b : Bool) : Outcome.ofBool b ≠ .skipped := by
  cases b <;> exact nofun

namespace RuleSet

/-- An evaluation by checks skips a rule set if none of its rules has a check. -/
theorem outcome_check_eq_skipped_iff (s : RuleSet) (value root : Json) :
    (s.check value root).outcome = .skipped ↔ ∀ r ∈ s.rules, r.check = none := by
  induction s with
  | rule r =>
      rw [check, rules, List.forall_mem_singleton]
      cases r.check with
      | none => exact iff_of_true rfl rfl
      | some f => exact iff_of_false (Outcome.ofBool_ne_skipped _) (Option.some_ne_none f)
  | group requirement members ih =>
      rw [outcome_check_group, Requirement.combine_eq_skipped_iff, rules_group,
        List.forall_mem_map, List.forall_mem_flatMap]
      exact forall₂_congr ih

/-- An evaluation by inquiries skips a rule set if none of its rules has an inquiry. -/
theorem outcome_inquire_eq_skipped_iff (s : RuleSet) (value root : Json) :
    (s.inquire value root).outcome = .skipped ↔ s.hasInquiry = false := by
  induction s with
  | rule r =>
      rw [inquire, hasInquiry, rules]
      cases hinquiry : r.inquiry with
      | none => simp [hinquiry]
      | some f => simp [hinquiry, Outcome.ofBool_ne_skipped]
  | group requirement members ih =>
      rw [outcome_inquire_group, Requirement.reduce_eq_skipped_iff, hasInquiry_group,
        List.forall_mem_map, List.any_eq_false]
      simp only [Bool.not_eq_true]
      exact forall₂_congr ih

/-- An evaluation by inquiries asks every rule that has an inquiry, whatever the answers are. -/
theorem called_inquire (s : RuleSet) (value root : Json) :
    (s.inquire value root).called = s.rules.filter fun r => r.inquiry.isSome := by
  induction s with
  | rule r =>
      rw [inquire, rules]
      cases hinquiry : r.inquiry with
      | none => simp [hinquiry]
      | some f => simp [hinquiry]
  | group requirement members ih =>
      rw [called_inquire_group, rules_group, List.filter_flatMap, List.flatMap_def,
        List.map_congr_left ih, List.flatMap_def]

theorem called_inquire_eq_nil_iff (s : RuleSet) (value root : Json) :
    (s.inquire value root).called = [] ↔ s.hasInquiry = false := by
  rw [called_inquire, List.filter_eq_nil_iff, hasInquiry, List.any_eq_false]

end RuleSet

/-! ## Tests -/

namespace Test

variable {t : Test}

theorem hasInquiry_eq_false_iff :
    t.hasInquiry = false ↔
      t.rules.hasInquiry = false ∧ ∀ c, t.condition = some c → c.hasInquiry = false := by
  rw [hasInquiry, Bool.or_eq_false_iff]
  refine and_congr_right fun _ => ?_
  cases t.condition with
  | none => exact iff_of_true rfl nofun
  | some c => exact ⟨fun h d hd => Option.some.inj hd ▸ h, fun h => h c rfl⟩

/-- A condition that is no gate leaves the calls to the check. -/
theorem called_runInquiries_of_gate (hgate : ∀ c, t.condition = some c → c.hasInquiry = false) :
    (t.runInquiries value root).called.map Prod.snd = (t.rules.inquire value root).called := by
  unfold runInquiries
  cases hcondition : t.condition with
  | none => simp [Function.comp_def]
  | some c =>
      have hskipped := (c.outcome_inquire_eq_skipped_iff value root).2 (hgate c hcondition)
      have hcalled := (c.called_inquire_eq_nil_iff value root).2 (hgate c hcondition)
      simp [hskipped, hcalled, Function.comp_def]

/-- A test asks a rule exactly if its check or its condition has an inquiry. -/
theorem called_runInquiries_eq_nil_iff :
    (t.runInquiries value root).called = [] ↔ t.hasInquiry = false := by
  by_cases hgate : ∀ c, t.condition = some c → c.hasInquiry = false
  · rw [← List.map_eq_nil_iff, called_runInquiries_of_gate hgate,
      RuleSet.called_inquire_eq_nil_iff, hasInquiry_eq_false_iff, and_iff_left hgate]
  · -- the condition asks something, whatever becomes of the check
    rw [hasInquiry_eq_false_iff]
    refine iff_of_false (fun hnil => hgate fun c hc => ?_) fun h => hgate h.2
    rw [← c.called_inquire_eq_nil_iff value root]
    unfold runInquiries at hnil
    rw [hc] at hnil
    dsimp only at hnil
    split at hnil
    · exact List.map_eq_nil_iff.1 hnil
    · exact List.map_eq_nil_iff.1 (List.append_eq_nil_iff.1 hnil).1

/-- A test without inquiries is skipped by an evaluation by inquiries, whatever its condition is. -/
theorem result_runInquiries_of_no_inquiry (h : t.hasInquiry = false) :
    (t.runInquiries value root).result = .ofOutcome t .skipped := by
  have hskipped := (t.rules.outcome_inquire_eq_skipped_iff value root).2
    (hasInquiry_eq_false_iff.1 h).1
  rw [result_runInquiries, resultBy, hskipped, ite_self]

end Test

namespace TestResults

variable {tests : List Test}

theorem called_runInquiries_eq_nil_iff :
    (runInquiries value root tests).called = [] ↔ ∀ t ∈ tests, t.hasInquiry = false := by
  rw [runInquiries]
  simp only [List.flatMap_eq_nil_iff, List.forall_mem_map, Test.called_runInquiries_eq_nil_iff]

/-- Tests without inquiries are all skipped by an evaluation by inquiries. -/
theorem skipped_runInquiries (h : ∀ t ∈ tests, t.hasInquiry = false) :
    ∀ r ∈ (runInquiries value root tests).results.results, r.passed = true ∧ r.skipped = true := by
  intro r hr
  obtain ⟨run, hrun, rfl⟩ := List.mem_map.1 hr
  obtain ⟨t, ht, rfl⟩ := List.mem_map.1 hrun
  rw [Test.result_runInquiries_of_no_inquiry (h t ht)]
  exact ⟨rfl, rfl⟩

/-- Tests without inquiries have no errors by inquiries. -/
theorem errors?_runInquiries (h : ∀ t ∈ tests, t.hasInquiry = false) :
    (runInquiries value root tests).results.errors? = none :=
  if_pos (List.all_eq_true.2 fun r hr => (skipped_runInquiries h r hr).1)

end TestResults

end ReactiveForm
