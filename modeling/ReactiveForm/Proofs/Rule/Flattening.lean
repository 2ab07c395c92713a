import ReactiveForm.Proofs.Rule.Modes
import ReactiveForm.Proofs.Rule.Progress

/-!
# Groups inside of groups

A group may have a group with the same requirement among its members. Then the members of the inner
group can as well be members of the outer one: the inner group only puts brackets around them.

An evaluation by checks looks at two things only, whether some member decides the group and whether
all members are skipped (`Requirement.combine_congr`), and brackets change neither. It reads a group
up to the first member that decides it (`upTo`), and an inner group decides the outer one with the
member that decides the inner one (`RuleSet.decides_group`), so that the same checks are called.

An evaluation by inquiries asks the same rules with brackets and without (`RuleSet.rules_brackets`).
But it counts a skipped member against a group that requires all its members. So the brackets must
not be around nothing (`Requirement.reduce_brackets`): an empty group is skipped, and leaving it out
can turn a failure into a success.
-/

namespace ReactiveForm

variable {value root : Json}

/-! ## Brackets in a list

One element of a list stands for several others. -/

private theorem forall_mem_brackets {α : Type} {P : α → Prop} {a : α} {inner : List α}
    (h : P a ↔ ∀ b ∈ inner, P b) (before after : List α) :
    (∀ b ∈ before ++ a :: after, P b) ↔ ∀ b ∈ before ++ inner ++ after, P b := by
  rw [List.forall_mem_append, List.forall_mem_cons, List.append_assoc, List.forall_mem_append,
    List.forall_mem_append, h]

private theorem mem_brackets {α : Type} {a b : α} {inner : List α} (h : a = b ↔ b ∈ inner)
    (before after : List α) : b ∈ before ++ a :: after ↔ b ∈ before ++ inner ++ after := by
  rw [List.mem_append, List.mem_cons, List.append_assoc, List.mem_append, List.mem_append, ← h,
    eq_comm]

/-! ## Outcomes -/

namespace Requirement

variable {requirement : Requirement} {outcomes others : List Outcome}

theorem undecided_ne_deciding (requirement : Requirement) :
    requirement.undecided ≠ requirement.deciding := by
  cases requirement <;> exact nofun

/-- A group has the outcome that decides it if some member has it. -/
theorem combine_eq_deciding_iff :
    requirement.combine outcomes = requirement.deciding ↔ requirement.deciding ∈ outcomes := by
  rw [combine_eq]
  split
  · rename_i hdecides
    exact iff_of_true rfl hdecides
  · rename_i hleft
    refine iff_of_false ?_ hleft
    split
    · exact requirement.deciding_ne_skipped.symm
    · exact requirement.undecided_ne_deciding

/-- An evaluation by checks looks at nothing but whether some member decides the group and whether
all are skipped. -/
theorem combine_congr (hdecides : requirement.deciding ∈ outcomes ↔ requirement.deciding ∈ others)
    (hskipped : (∀ o ∈ outcomes, o = .skipped) ↔ ∀ o ∈ others, o = .skipped) :
    requirement.combine outcomes = requirement.combine others := by
  have hall : outcomes.all (· == .skipped) = others.all (· == .skipped) := by
    rw [Bool.eq_iff_iff, List.all_eq_true, List.all_eq_true]
    simpa only [beq_iff_eq] using hskipped
  simp only [combine_eq, hdecides, hall]

theorem combine_brackets (requirement : Requirement) (before outcomes after : List Outcome) :
    requirement.combine (before ++ requirement.combine outcomes :: after) =
      requirement.combine (before ++ outcomes ++ after) :=
  combine_congr (mem_brackets combine_eq_deciding_iff before after)
    (forall_mem_brackets combine_eq_skipped_iff before after)

/-- All members of a group that requires all of them have to pass, if there is a member. -/
theorem reduce_all_eq_passed_iff (hsome : outcomes ≠ []) :
    Requirement.all.reduce outcomes = .passed ↔ ∀ o ∈ outcomes, o = .passed := by
  rw [reduce_eq_passed_iff, and_iff_right_iff_imp]
  intro hall
  obtain ⟨o, ho⟩ := List.exists_mem_of_ne_nil _ hsome
  exact ⟨o, ho, hall o ho ▸ nofun⟩

theorem reduce_any_eq_passed_iff :
    Requirement.any.reduce outcomes = .passed ↔ .passed ∈ outcomes := by
  rw [reduce_eq_passed_iff, and_iff_right_iff_imp]
  exact fun hpassed => ⟨.passed, hpassed, nofun⟩

theorem reduce_brackets (requirement : Requirement) (before after : List Outcome)
    (hsome : outcomes ≠ []) :
    requirement.reduce (before ++ requirement.reduce outcomes :: after) =
      requirement.reduce (before ++ outcomes ++ after) := by
  refine Outcome.eq_of_iff ?_ ?_
  · rw [reduce_eq_skipped_iff, reduce_eq_skipped_iff]
    exact forall_mem_brackets reduce_eq_skipped_iff before after
  · cases requirement with
    | all =>
        rw [reduce_all_eq_passed_iff (by simp), reduce_all_eq_passed_iff (by simp [hsome])]
        exact forall_mem_brackets (reduce_all_eq_passed_iff hsome) before after
    | any =>
        rw [reduce_any_eq_passed_iff, reduce_any_eq_passed_iff]
        exact mem_brackets reduce_any_eq_passed_iff before after

end Requirement

/-! ## Calls by checks -/

/-- A list up to and including the first hit. -/
def upTo {α : Type} (hit : α → Bool) (l : List α) : List α := l.take (l.findIdx hit + 1)

theorem upTo_cons {α : Type} (hit : α → Bool) (a : α) (l : List α) :
    upTo hit (a :: l) = a :: if hit a then [] else upTo hit l := by
  rw [upTo, List.findIdx_cons]
  cases hit a <;> rfl

/-- Behind the first hit nothing is read. -/
theorem upTo_append {α : Type} (hit : α → Bool) (l k : List α) :
    upTo hit (l ++ k) = if l.any hit then upTo hit l else l ++ upTo hit k := by
  induction l with
  | nil => rfl
  | cons a l ih =>
      rw [List.cons_append, upTo_cons, upTo_cons, ih, List.any_cons]
      cases hit a with
      | true => rfl
      | false => exact apply_ite (a :: ·) (l.any hit = true) _ _

theorem upTo_of_not_any {α : Type} {hit : α → Bool} {l : List α} (h : l.any hit = false) :
    upTo hit l = l := by
  have happend := upTo_append hit l []
  rw [List.append_nil, if_neg (by simp [h])] at happend
  exact happend.trans (List.append_nil l)

namespace RuleSet

/-- Whether a member decides a group by its check. -/
def decides (value root : Json) (requirement : Requirement) (m : RuleSet) : Bool :=
  (m.check value root).outcome == requirement.deciding

theorem called_check_group_upTo (requirement : Requirement) (members : List RuleSet) :
    ((group requirement members).check value root).called =
      (upTo (decides value root requirement) members).flatMap
        fun m => (m.check value root).called :=
  called_check_group requirement members

/-- An inner group decides the outer one if one of its members does. -/
theorem decides_group (requirement : Requirement) (members : List RuleSet) :
    decides value root requirement (group requirement members) =
      members.any (decides value root requirement) := by
  rw [Bool.eq_iff_iff, decides, beq_iff_eq, outcome_check_group,
    Requirement.combine_eq_deciding_iff, List.mem_map, List.any_eq_true]
  simp only [decides, beq_iff_eq]

section Brackets

variable (requirement : Requirement) (xs ys zs : List RuleSet)

theorem outcome_check_brackets :
    ((group requirement (xs ++ group requirement ys :: zs)).check value root).outcome =
      ((group requirement (xs ++ ys ++ zs)).check value root).outcome := by
  simp only [outcome_check_group, List.map_append, List.map_cons, Requirement.combine_brackets]

theorem called_check_brackets :
    ((group requirement (xs ++ group requirement ys :: zs)).check value root).called =
      ((group requirement (xs ++ ys ++ zs)).check value root).called := by
  rw [called_check_group_upTo, called_check_group_upTo, upTo_append, List.append_assoc, upTo_append]
  split
  · rfl
  · -- the members in front leave it to the inner group
    rw [upTo_cons, upTo_append, decides_group, List.flatMap_append, List.flatMap_append,
      List.flatMap_cons, called_check_group_upTo]
    split
    · rw [List.flatMap_nil, List.append_nil]
    · rename_i hleft
      rw [upTo_of_not_any (Bool.eq_false_iff.2 hleft), ← List.flatMap_append]

/-! ## Inquiries -/

theorem rules_brackets :
    (group requirement (xs ++ group requirement ys :: zs)).rules =
      (group requirement (xs ++ ys ++ zs)).rules := by
  simp only [rules_group, List.flatMap_append, List.flatMap_cons, List.append_assoc]

theorem outcome_inquire_brackets (hsome : ys ≠ []) :
    ((group requirement (xs ++ group requirement ys :: zs)).inquire value root).outcome =
      ((group requirement (xs ++ ys ++ zs)).inquire value root).outcome := by
  simp only [outcome_inquire_group, List.map_append, List.map_cons]
  exact requirement.reduce_brackets _ _ (by simpa using hsome)

end Brackets

/-- Two rule sets cannot be told apart by their inquiries: they ask the same rules and have the same
outcome at the same time. -/
structure InquiredAlike (s t : RuleSet) (value root : Json) : Prop where
  /-- The outcome is the same. -/
  outcome : (s.inquire value root).outcome = (t.inquire value root).outcome
  /-- The same rules are asked, each as often. -/
  called : (s.inquire value root).called.Perm (t.inquire value root).called
  /-- The last answer comes after the same time. -/
  duration : (s.inquire value root).duration = (t.inquire value root).duration
  /-- While they are under way, one is settled whenever the other one is. -/
  settles : ∀ n,
    ((s.start value root).1.later n).outcome? = ((t.start value root).1.later n).outcome?

/-- Rule sets with the same rules ask the same, and nothing but their outcomes can differ. -/
theorem inquiredAlike_of_rules {s t : RuleSet} (hrules : s.rules = t.rules)
    (houtcome : (s.inquire value root).outcome = (t.inquire value root).outcome) :
    s.InquiredAlike t value root := by
  have hle : ∀ n, (s.inquire value root).duration ≤ n ↔ (t.inquire value root).duration ≤ n :=
    fun n => by rw [duration_inquire_le_iff, duration_inquire_le_iff, hrules]
  have hduration : (s.inquire value root).duration = (t.inquire value root).duration :=
    Nat.le_antisymm ((hle _).2 (Nat.le_refl _)) ((hle _).1 (Nat.le_refl _))
  refine ⟨houtcome, .of_eq ?_, hduration, fun n => ?_⟩
  · rw [called_inquire, called_inquire, hrules]
  · rw [outcome?_later_start, outcome?_later_start, houtcome, hduration]

/-- A group in a group with the same requirement can be dissolved into its members. By checks the
outcome and the calls in their order stay what they were, and if the inner group is not empty, the
inquiries cannot be told apart either. -/
theorem nested_group_dissolves (requirement : Requirement) (xs ys zs : List RuleSet)
    (value root : Json) :
    let nested := group requirement (xs ++ group requirement ys :: zs)
    let flat := group requirement (xs ++ ys ++ zs)
    (nested.check value root).outcome = (flat.check value root).outcome ∧
      (nested.check value root).called = (flat.check value root).called ∧
      (ys ≠ [] → nested.InquiredAlike flat value root) :=
  ⟨outcome_check_brackets requirement xs ys zs, called_check_brackets requirement xs ys zs,
    fun hsome => inquiredAlike_of_rules (rules_brackets requirement xs ys zs)
      (outcome_inquire_brackets requirement xs ys zs hsome)⟩

/-! ## With and without brackets -/

/-- The members of an inner group, of which the first one has no check. -/
def bracketed : List RuleSet :=
  [.rule { Rule.steady "mute" false 40 with check := none }, .rule (Rule.steady "yes" true 20)]

/-- The second member in brackets decides the outer group by its check, and all four inquiries are
started. -/
theorem nested_group_dissolves_bracketed :
    let no := RuleSet.rule (Rule.steady "no" false 10)
    let late := RuleSet.rule (Rule.steady "late" true 30)
    let nested := group .any ([no] ++ group .any bracketed :: [late])
    let flat := group .any ([no] ++ bracketed ++ [late])
    bracketed ≠ [] ∧ nested.InquiredAlike flat .null .null ∧
      (nested.check .null .null).called = (flat.check .null .null).called ∧
      (flat.check .null .null).called.map Rule.label = [some "no", some "yes"] ∧
      (flat.inquire .null .null).duration = 40 := by
  have hsome : bracketed ≠ [] := List.cons_ne_nil _ _
  have hdissolves := nested_group_dissolves .any [.rule (Rule.steady "no" false 10)] bracketed
    [.rule (Rule.steady "late" true 30)] .null .null
  exact ⟨hsome, hdissolves.2.2 hsome, hdissolves.2.1, rfl, rfl⟩

-- an inner group without members is passed over by checks, and by inquiries it counts
example :
    let yes := RuleSet.rule (Rule.steady "yes" true 10)
    ((group .all [yes, group .all []]).check .null .null).outcome = .passed ∧
      ((group .all [yes, group .all []]).inquire .null .null).outcome = .failed ∧
      ((group .all [yes]).inquire .null .null).outcome = .passed := by
  decide +kernel

end RuleSet

end ReactiveForm
