import ReactiveForm.Proofs.Rule.Progress

/-!
# Concurrent inquiries

An evaluation by inquiries asks everything at once and waits for all answers. Nothing that one rule
answers keeps another one from being asked, and the outcome is there with the last answer
(`RuleSet.concurrent`). A test is an evaluation of its condition followed by one of its check, and
the check is left alone if the condition has failed (`Test.gated`). Tests run side by side, so that
their results are those of the single tests, in the order of the tests, and are there when the last
of them is (`TestResults.concurrent`).

No check has a part in this: the checks of all rules can be exchanged for others (`RuleSet.recheck`,
`Test.recheck`), and the evaluation by inquiries stays what it was.
-/

namespace ReactiveForm

variable {value root : Json} {checks : Rule → Option (Json → Json → Bool)}

/-! ## Other checks -/

/-- The rule with another check, or none. -/
def Rule.recheck (checks : Rule → Option (Json → Json → Bool)) (r : Rule) : Rule :=
  { r with check := checks r }

namespace RuleSet

mutual

/-- The rule set with other checks. -/
def recheck (checks : Rule → Option (Json → Json → Bool)) : RuleSet → RuleSet
  | rule r => rule (r.recheck checks)
  | group requirement members => group requirement (recheckAll checks members)

/-- The members of a group with other checks. -/
def recheckAll (checks : Rule → Option (Json → Json → Bool)) : List RuleSet → List RuleSet
  | [] => []
  | m :: ms => recheck checks m :: recheckAll checks ms

end

theorem recheckAll_eq (members : List RuleSet) :
    recheckAll checks members = members.map (recheck checks) := by
  induction members with
  | nil => rw [recheckAll]; rfl
  | cons m ms ih => rw [recheckAll, ih, List.map_cons]

theorem inquire_recheck (s : RuleSet) :
    (s.recheck checks).inquire value root =
      { outcome := (s.inquire value root).outcome
        called := (s.inquire value root).called.map (Rule.recheck checks)
        duration := (s.inquire value root).duration } := by
  induction s with
  | rule r =>
      rw [recheck, inquire, inquire]
      have hsame : (r.recheck checks).inquiry = r.inquiry := rfl
      rw [hsame]
      cases r.inquiry <;> rfl
  | group requirement members ih =>
      have hmembers : (members.map (recheck checks)).map (inquire value root) =
          (members.map (inquire value root)).map fun i =>
            ⟨i.outcome, i.called.map (Rule.recheck checks), i.duration⟩ := by
        rw [List.map_map, List.map_map]
        exact List.map_congr_left ih
      rw [recheck, recheckAll_eq, inquire, inquire, inquireMembers_eq, inquireMembers_eq, hmembers]
      simp only [List.map_map, List.flatMap_map, List.foldr_map, List.map_flatMap,
        Function.comp_def]

/-- Evaluating a rule set by inquiries asks all of its rules at once. -/
structure Concurrent (s : RuleSet) (value root : Json) : Prop where
  /-- Each rule that has an inquiry is asked once, whatever the answers are. -/
  complete : (s.inquire value root).called = s.rules.filter fun r => r.inquiry.isSome
  /-- All of them are asked at the start. -/
  atOnce : (s.start value root).2 = (s.inquire value root).called
  /-- The outcome is there as soon as the duration is over, and not before. -/
  settles : ∀ n, ((s.start value root).1.later n).outcome? =
    if (s.inquire value root).duration ≤ n then some (s.inquire value root).outcome else none
  /-- The duration is the longest delay of all inquiries, at any depth. -/
  duration_le_iff : ∀ n, (s.inquire value root).duration ≤ n ↔
    ∀ r ∈ s.rules, ∀ inquiry, r.inquiry = some inquiry → (inquiry value root).delay ≤ n
  /-- Checks are not called: with other ones everything is the same. -/
  unchecked : ∀ checks, (s.recheck checks).inquire value root =
    { outcome := (s.inquire value root).outcome
      called := (s.inquire value root).called.map (Rule.recheck checks)
      duration := (s.inquire value root).duration }

theorem concurrent (s : RuleSet) (value root : Json) : s.Concurrent value root where
  complete := s.called_inquire value root
  atOnce := s.start_snd
  settles := s.outcome?_later_start
  duration_le_iff := s.duration_inquire_le_iff
  unchecked _ := s.inquire_recheck

end RuleSet

/-! ## Tests -/

namespace Test

/-- The test with other checks. -/
def recheck (checks : Rule → Option (Json → Json → Bool)) (t : Test) : Test :=
  { t with rules := t.rules.recheck checks, condition := t.condition.map (·.recheck checks) }

/-- How long the check of a test takes. A check that is left alone takes no time. -/
def mainDuration (value root : Json) (t : Test) : Nat :=
  if (t.gate value root).outcome = .failed then 0 else (t.rules.inquire value root).duration

variable {t : Test}

theorem duration_runInquiries (t : Test) :
    (t.runInquiries value root).duration =
      (t.gate value root).duration + t.mainDuration value root := by
  rw [runInquiries_eq, mainDuration]
  dsimp only
  split <;> rfl

theorem called_runInquiries (t : Test) :
    (t.runInquiries value root).called = t.gateCalls value root ++
      if (t.gate value root).outcome = .failed then [] else t.mainCalls value root := by
  rw [runInquiries_eq]
  dsimp only
  split
  · exact (List.append_nil _).symm
  · rfl

/-- The result of a run is there as soon as its duration is over, and not before. -/
theorem result?_course (t : Test) (n : Nat) :
    (t.course value root n).result? =
      if (t.runInquiries value root).duration ≤ n then some (t.runInquiries value root).result
      else none := by
  rw [duration_runInquiries]
  rcases Nat.lt_or_ge n (t.gate value root).duration with hlt | hge
  · rw [course_of_lt hlt, if_neg (by omega)]
    rfl
  · obtain ⟨k, rfl⟩ := Nat.exists_eq_add_of_le hge
    rw [runInquiries_eq, mainDuration]
    dsimp only
    by_cases hfailed : (t.gate value root).outcome = .failed
    · rw [course_of_failed hfailed, if_pos hfailed, if_pos hfailed, if_pos (by omega)]
      rfl
    · rw [course_of_not_failed hfailed, if_neg hfailed, if_neg hfailed]
      simp only [Nat.add_le_add_iff_left, Course.result?]
      by_cases hsettled : (t.rules.inquire value root).duration ≤ k
      · simp only [if_pos hsettled]
      · simp only [if_neg hsettled]

/-- What was asked up to some time is what the run asks by then. -/
theorem called_course (t : Test) (n : Nat) :
    (t.course value root n).called =
      (t.runInquiries value root).called.filter fun c => c.1 ≤ n := by
  have hgate : (t.gateCalls value root).filter (fun c => c.1 ≤ n) = t.gateCalls value root :=
    List.filter_eq_self.2 (List.forall_mem_map.2 fun r _ => decide_eq_true (Nat.zero_le n))
  rw [called_runInquiries, List.filter_append, hgate]
  rcases Nat.lt_or_ge n (t.gate value root).duration with hlt | hge
  · have hmain : (t.mainCalls value root).filter (fun c => c.1 ≤ n) = [] :=
      List.filter_eq_nil_iff.2 (List.forall_mem_map.2 fun r _ => by simpa using hlt)
    rw [course_of_lt hlt]
    split
    · exact (List.append_nil _).symm
    · rw [hmain, List.append_nil]
  · obtain ⟨k, rfl⟩ := Nat.exists_eq_add_of_le hge
    have hmain : (t.mainCalls value root).filter
        (fun c => c.1 ≤ (t.gate value root).duration + k) = t.mainCalls value root :=
      List.filter_eq_self.2 (List.forall_mem_map.2 fun r _ => decide_eq_true hge)
    by_cases hfailed : (t.gate value root).outcome = .failed
    · rw [course_of_failed hfailed, if_pos hfailed]
      exact (List.append_nil _).symm
    · rw [course_of_not_failed hfailed, if_neg hfailed, hmain]

theorem gate_recheck (t : Test) :
    (t.recheck checks).gate value root =
      { outcome := (t.gate value root).outcome
        called := (t.gate value root).called.map (Rule.recheck checks)
        duration := (t.gate value root).duration } := by
  unfold gate recheck
  cases t.condition with
  | none => rfl
  | some c => exact c.inquire_recheck

theorem runInquiries_recheck (t : Test) :
    (t.recheck checks).runInquiries value root =
      { result := (t.runInquiries value root).result
        called := (t.runInquiries value root).called.map fun c => (c.1, c.2.recheck checks)
        duration := (t.runInquiries value root).duration } := by
  have hrules : ((t.recheck checks).rules.inquire value root) = _ := t.rules.inquire_recheck
  rw [runInquiries_eq, runInquiries_eq, gate_recheck, hrules]
  dsimp only
  split
  · simp only [List.map_map]
    rfl
  · simp only [List.map_append, List.map_map]
    rfl

/-- Running a test by inquiries evaluates its condition, and then its check unless the condition has
failed. -/
structure Gated (t : Test) (value root : Json) : Prop where
  /-- The check comes after the condition. -/
  lasts : (t.runInquiries value root).duration =
    (t.gate value root).duration + t.mainDuration value root
  /-- The condition is asked at the start and the check when the condition is settled. Of a check
  whose condition has failed nothing is asked. -/
  asks : (t.runInquiries value root).called = t.gateCalls value root ++
    if (t.gate value root).outcome = .failed then [] else t.mainCalls value root
  /-- The result is there as soon as the duration is over, and not before. -/
  settles : ∀ n, (t.course value root n).result? =
    if (t.runInquiries value root).duration ≤ n then some (t.runInquiries value root).result
    else none
  /-- Every rule is asked at its time. -/
  inTime : ∀ n, (t.course value root n).called =
    (t.runInquiries value root).called.filter fun c => c.1 ≤ n

theorem gated (t : Test) (value root : Json) : t.Gated value root where
  lasts := t.duration_runInquiries
  asks := t.called_runInquiries
  settles := t.result?_course
  inTime := t.called_course

-- the condition takes 30 ms, and the check 20 ms after that
example :
    let ask (delay : Nat) := RuleSet.rule ⟨none, none, some fun _ _ => ⟨true, delay⟩, []⟩
    let t := { ofRules (.group .all [ask 20, .group .any [ask 5]]) with
      condition := some (.group .any [ask 10, ask 30]) }
    (t.runInquiries .null .null).called.map Prod.fst = [0, 0, 30, 30] ∧
      (t.course .null .null 49).result? = none ∧
      (t.course .null .null 50).result? = some ⟨none, none, true, false⟩ := by
  decide +kernel

end Test

namespace TestResults

/-- Running tests by inquiries runs all of them side by side. -/
structure Concurrent (tests : List Test) (value root : Json) : Prop where
  /-- There is one result for each test, in the order of the tests, the one that the test has when
  it is run alone. -/
  results : (runInquiries value root tests).results.results =
    tests.map fun t => (t.runInquiries value root).result
  /-- What is asked is what the single tests ask, at the same times. -/
  asks : (runInquiries value root tests).called =
    tests.flatMap fun t => (t.runInquiries value root).called
  /-- The results take as long as the longest test. -/
  duration_le_iff : ∀ n, (runInquiries value root tests).duration ≤ n ↔
    ∀ t ∈ tests, (t.gate value root).duration + t.mainDuration value root ≤ n
  /-- The results are there as soon as the duration is over, and not before. -/
  settles : ∀ n, tests.mapM (fun t => (t.course value root n).result?) =
    if (runInquiries value root tests).duration ≤ n then
      some (runInquiries value root tests).results.results
    else none
  /-- Checks are not called: with other ones everything is the same. -/
  unchecked : ∀ checks, runInquiries value root (tests.map (Test.recheck checks)) =
    { results := (runInquiries value root tests).results
      called := (runInquiries value root tests).called.map fun c => (c.1, c.2.recheck checks)
      duration := (runInquiries value root tests).duration }

theorem concurrent (tests : List Test) (value root : Json) : Concurrent tests value root where
  results := List.map_map ..
  asks := List.flatMap_map ..
  duration_le_iff n := by
    rw [runInquiries, List.foldr_map, foldr_max_le_iff]
    exact forall₂_congr fun t _ => by rw [t.duration_runInquiries]
  settles n := by
    rw [mapM_eq_ite fun t _ => t.result?_course n]
    simp only [runInquiries, List.foldr_map, foldr_max_le_iff, List.map_map, Function.comp_def]
  unchecked checks := by
    simp only [runInquiries, List.map_map, List.flatMap_map, List.foldr_map, Function.comp_def,
      Test.runInquiries_recheck, List.map_flatMap]

end TestResults

/-! ## The whole of it -/

/-- Evaluations by inquiries are concurrent, complete and in order. Rule sets ask all of their
inquiries at once, tests wait for their conditions, and lists of tests run side by side. A full run
asks nothing and takes no time if some check has failed, and otherwise it has the results of the
inquiries, their calls and their duration. -/
theorem concurrent_inquiries (value root : Json) :
    (∀ s : RuleSet, s.Concurrent value root) ∧ (∀ t : Test, t.Gated value root) ∧
      (∀ tests, TestResults.Concurrent tests value root) ∧
      ∀ tests, TestResults.runAll value root tests =
        let checks := TestResults.runChecks value root tests
        let inquiries := TestResults.runInquiries value root tests
        if ∃ r ∈ checks.results.results, r.passed = false then
          { results := checks.results, checked := checks.called, inquired := [], duration := 0 }
        else
          { results := inquiries.results
            checked := checks.called
            inquired := inquiries.called
            duration := inquiries.duration } := by
  refine ⟨fun s => s.concurrent value root, fun t => t.gated value root,
    fun tests => TestResults.concurrent tests value root, fun tests => ?_⟩
  rw [TestResults.runAll]
  dsimp only
  have hpassed : (TestResults.runChecks value root tests).results.passed = true ↔
      ¬ ∃ r ∈ (TestResults.runChecks value root tests).results.results, r.passed = false := by
    simp [TestResults.passed]
  by_cases hfailure : ∃ r ∈ (TestResults.runChecks value root tests).results.results,
      r.passed = false
  · rw [if_pos hfailure, if_neg fun h => hpassed.1 h hfailure]
  · rw [if_neg hfailure, if_pos (hpassed.2 hfailure)]

end ReactiveForm
