import ReactiveForm.Proofs.Rule.Groups

/-!
# Rules that say the same

A rule sees a value and the document around it. If all rules of some tests say the same about two
such pairs, then the tests have the same results on both, by checks (`results_runChecks_congr`) and
by inquiries (`results_runInquiries_congr`). How long the answers to inquiries take does not matter.
-/

namespace ReactiveForm

variable {v w root root' : Json}

/-- A rule says the same about a value in a document and about another value in another one. -/
structure Rule.Agrees (r : Rule) (v root w root' : Json) : Prop where
  check : ∀ check, r.check = some check → check v root = check w root'
  inquiry : ∀ inquiry, r.inquiry = some inquiry →
    (inquiry v root).passed = (inquiry w root').passed

/-- The rules of a test: those of its check and those of its condition. -/
def Test.ruleList (t : Test) : List Rule :=
  t.rules.rules ++ (t.condition.map RuleSet.rules).getD []

namespace RuleSet

theorem outcome_check_congr (s : RuleSet) (h : ∀ r ∈ s.rules, r.Agrees v root w root') :
    (s.check v root).outcome = (s.check w root').outcome := by
  induction s with
  | rule r =>
      rw [rules, List.forall_mem_singleton] at h
      unfold check
      cases hcheck : r.check with
      | none => rfl
      | some f => exact congrArg Outcome.ofBool (h.check f hcheck)
  | group requirement members ih =>
      rw [rules_group, List.forall_mem_flatMap] at h
      rw [outcome_check_group, outcome_check_group,
        List.map_congr_left fun m hm => ih m hm (h m hm)]

theorem outcome_inquire_congr (s : RuleSet) (h : ∀ r ∈ s.rules, r.Agrees v root w root') :
    (s.inquire v root).outcome = (s.inquire w root').outcome := by
  induction s with
  | rule r =>
      rw [rules, List.forall_mem_singleton] at h
      unfold inquire
      cases hinquiry : r.inquiry with
      | none => rfl
      | some f => exact congrArg Outcome.ofBool (h.inquiry f hinquiry)
  | group requirement members ih =>
      rw [rules_group, List.forall_mem_flatMap] at h
      rw [outcome_inquire_group, outcome_inquire_group,
        List.map_congr_left fun m hm => ih m hm (h m hm)]

end RuleSet

namespace Test

variable {t : Test}

theorem mem_ruleList_of_mem_rules {r : Rule} (hr : r ∈ t.rules.rules) : r ∈ t.ruleList :=
  List.mem_append_left _ hr

theorem mem_ruleList_of_condition {c : RuleSet} (hc : t.condition = some c) {r : Rule}
    (hr : r ∈ c.rules) : r ∈ t.ruleList :=
  List.mem_append_right _ (by simpa [hc] using hr)

theorem result_runChecks_congr (h : ∀ r ∈ t.ruleList, r.Agrees v root w root') :
    (t.runChecks v root).result = (t.runChecks w root').result := by
  rw [result_runChecks, result_runChecks]
  exact resultBy_congr (t.rules.outcome_check_congr fun r hr => h r (mem_ruleList_of_mem_rules hr))
    fun c hc => c.outcome_check_congr fun r hr => h r (mem_ruleList_of_condition hc hr)

theorem result_runInquiries_congr (h : ∀ r ∈ t.ruleList, r.Agrees v root w root') :
    (t.runInquiries v root).result = (t.runInquiries w root').result := by
  rw [result_runInquiries, result_runInquiries]
  exact resultBy_congr
    (t.rules.outcome_inquire_congr fun r hr => h r (mem_ruleList_of_mem_rules hr))
    fun c hc => c.outcome_inquire_congr fun r hr => h r (mem_ruleList_of_condition hc hr)

end Test

namespace TestResults

variable {tests : List Test}

/-- The results of checks are the same if all rules say the same. -/
theorem results_runChecks_congr
    (h : ∀ t ∈ tests, ∀ r ∈ t.ruleList, r.Agrees v root w root') :
    (runChecks v root tests).results = (runChecks w root' tests).results := by
  simp only [runChecks, List.map_map]
  exact congrArg TestResults.mk
    (List.map_congr_left fun t ht => Test.result_runChecks_congr (h t ht))

/-- The results of inquiries are the same if all rules say the same. -/
theorem results_runInquiries_congr
    (h : ∀ t ∈ tests, ∀ r ∈ t.ruleList, r.Agrees v root w root') :
    (runInquiries v root tests).results = (runInquiries w root' tests).results := by
  simp only [runInquiries, List.map_map]
  exact congrArg TestResults.mk
    (List.map_congr_left fun t ht => Test.result_runInquiries_congr (h t ht))

end TestResults

end ReactiveForm
