import ReactiveForm.Proofs.Rule.Agreement
import ReactiveForm.Proofs.Test.Distinct
import ReactiveForm.Recompute.Scheduler
import ReactiveForm.Test.Basic

/-!
# The paths that tests depend on

A walk through some tests can collect the paths of their rules as it meets them: it carries the
paths found so far through checks and conditions and through groups at any depth, and puts a path at
the end of them when it is new (`Test.gather`). What it has found in the end is what
`dependencyPaths` makes of the list of all declared paths (`Test.gatherAll_eq`): a walk that starts
with some paths already found goes on as if these had been declared in front (`RuleSet.gather_eq`).

So nothing that a rule declares is lost, however deep the rule is
(`Test.mem_dependencyPaths_iff`), and the paths of two lists of tests can be had one after the other
(`Test.dependencyPaths_append`). A scheduler does so with the tests of editability and of visibility
(`Scheduler.editPaths_eq`).
-/

namespace ReactiveForm

/-! ## Rules at any depth -/

namespace RuleSet

variable {r : Rule} {s : RuleSet}

/-- The rule stands in the rule set, at whatever depth. -/
inductive Holds (r : Rule) : RuleSet → Prop where
  | rule : Holds r (rule r)
  | member (requirement : Requirement) {members : List RuleSet} {m : RuleSet} (hm : m ∈ members)
      (h : Holds r m) : Holds r (group requirement members)

theorem mem_rules_iff : r ∈ s.rules ↔ s.Holds r := by
  induction s with
  | rule r' =>
      rw [rules, List.mem_singleton]
      constructor
      · rintro rfl
        exact .rule
      · rintro ⟨⟩
        rfl
  | group requirement members ih =>
      rw [rules_group, List.mem_flatMap]
      constructor
      · rintro ⟨m, hm, hr⟩
        exact .member requirement hm ((ih m hm).1 hr)
      · rintro (_ | ⟨_, hm, h⟩)
        exact ⟨_, hm, (ih _ hm).2 h⟩

theorem dependencies_rule (r : Rule) : (rule r).dependencies = r.dependencies := by
  rw [dependencies, rules, List.flatMap_singleton]

theorem dependencies_group (requirement : Requirement) (members : List RuleSet) :
    (group requirement members).dependencies = members.flatMap dependencies := by
  rw [dependencies, rules_group, List.flatMap_assoc]
  rfl

/-! ## Collecting along the way -/

mutual

/-- The paths found so far, together with the new ones of a rule set. -/
def gather (found : List String) : RuleSet → List String
  | rule r => r.dependencies.foldl keepNew found
  | group _ members => gatherMembers found members

/-- The paths found so far, together with the new ones of the members of a group. -/
def gatherMembers (found : List String) : List RuleSet → List String
  | [] => found
  | m :: ms => gatherMembers (gather found m) ms

end

theorem gatherMembers_eq (found : List String) (members : List RuleSet) :
    gatherMembers found members = members.foldl gather found := by
  induction members generalizing found with
  | nil => rw [gatherMembers, List.foldl_nil]
  | cons m ms ih => rw [gatherMembers, ih, List.foldl_cons]

/-- A walk through a rule set is one through the list of its paths. -/
theorem gather_eq (s : RuleSet) (found : List String) :
    s.gather found = s.dependencies.foldl keepNew found := by
  induction s generalizing found with
  | rule r => rw [gather, dependencies_rule]
  | group requirement members ih =>
      rw [gather, gatherMembers_eq, dependencies_group, List.foldl_flatMap]
      exact List.foldl_ext _ _ _ fun found m hm => ih m hm found

end RuleSet

namespace Test

/-! ## Tests -/

/-- The paths found so far, together with the new ones of a test: those of its check, and behind
them those of its condition. -/
def gather (found : List String) (t : Test) : List String :=
  match t.condition with
  | none => t.rules.gather found
  | some c => c.gather (t.rules.gather found)

/-- The paths that a walk through some tests finds. -/
def gatherAll (tests : List Test) : List String := tests.foldl gather []

theorem gather_eq (t : Test) (found : List String) :
    t.gather found = t.dependencies.foldl keepNew found := by
  unfold gather dependencies
  cases t.condition with
  | none => rw [RuleSet.gather_eq, Option.map_none, Option.getD_none, List.append_nil]
  | some c =>
      dsimp only
      rw [RuleSet.gather_eq, RuleSet.gather_eq, Option.map_some, Option.getD_some,
        List.foldl_append]

/-- Collecting the paths on a walk is the same as declaring all of them first. -/
theorem gatherAll_eq (tests : List Test) : gatherAll tests = dependencyPaths tests := by
  rw [gatherAll, dependencyPaths, distinct_eq_foldl, List.foldl_flatMap]
  exact List.foldl_ext _ _ _ fun found t _ => t.gather_eq found

/-- The rule stands in the check or in the condition of the test. -/
inductive Holds (r : Rule) (t : Test) : Prop where
  | rules (h : t.rules.Holds r)
  | condition {c : RuleSet} (hc : t.condition = some c) (h : c.Holds r)

theorem mem_ruleList_iff {r : Rule} {t : Test} : r ∈ t.ruleList ↔ t.Holds r := by
  unfold ruleList
  rw [List.mem_append, RuleSet.mem_rules_iff]
  constructor
  · rintro (h | h)
    · exact .rules h
    · cases hcondition : t.condition with
      | none =>
          rw [hcondition] at h
          cases h
      | some c =>
          rw [hcondition] at h
          exact .condition hcondition (RuleSet.mem_rules_iff.1 h)
  · rintro (h | ⟨hc, h⟩)
    · exact .inl h
    · rw [hc]
      exact .inr (RuleSet.mem_rules_iff.2 h)

theorem dependencies_eq (t : Test) : t.dependencies = t.ruleList.flatMap Rule.dependencies := by
  unfold dependencies ruleList
  rw [List.flatMap_append]
  cases t.condition <;> rfl

theorem mem_dependencyPaths_iff {tests : List Test} {path : String} :
    path ∈ dependencyPaths tests ↔ ∃ t ∈ tests, ∃ r, t.Holds r ∧ path ∈ r.dependencies := by
  rw [dependencyPaths, mem_distinct, List.mem_flatMap]
  refine exists_congr fun t => and_congr_right fun _ => ?_
  rw [dependencies_eq, List.mem_flatMap]
  exact exists_congr fun r => and_congr_left' mem_ruleList_iff

theorem dependencyPaths_append (tests more : List Test) :
    dependencyPaths (tests ++ more) =
      dependencyPaths tests ++ (dependencyPaths more).filter (· ∉ dependencyPaths tests) := by
  rw [dependencyPaths, List.flatMap_append, distinct_append]
  rfl

/-- What the paths of some tests are. -/
structure Extracted (tests : List Test) (paths : List String) : Prop where
  /-- They are the paths of all rules: test by test, the check before the condition, and each group
  from left to right, where of every path the first occurrence is kept. -/
  inOrder : paths = ((tests.flatMap ruleList).flatMap Rule.dependencies).eraseDups
  /-- A walk finds them that collects what is new as it goes. -/
  collected : paths = gatherAll tests
  /-- A path is among them if some rule of a check or a condition declares it, at any depth. -/
  complete : ∀ path, path ∈ paths ↔ ∃ t ∈ tests, ∃ r, t.Holds r ∧ path ∈ r.dependencies
  /-- No path is there twice. -/
  once : paths.Nodup

/-- The dependencies of tests are complete, in order and without repetitions. Those of further tests
come behind, as far as they are new. -/
theorem dependencyPaths_extracted :
    (∀ tests, Extracted tests (dependencyPaths tests)) ∧
      ∀ tests more, dependencyPaths (tests ++ more) =
        dependencyPaths tests ++ (dependencyPaths more).filter (· ∉ dependencyPaths tests) := by
  refine ⟨fun tests => ?_, dependencyPaths_append⟩
  refine ⟨?_, (gatherAll_eq tests).symm, fun path => mem_dependencyPaths_iff, nodup_distinct _⟩
  have hpaths : tests.flatMap dependencies =
      (tests.flatMap ruleList).flatMap Rule.dependencies := by
    rw [List.flatMap_assoc]
    exact List.flatMap_congr fun t _ => dependencies_eq t
  rw [dependencyPaths, distinct_eq_eraseDups, hpaths]

-- the check comes before the condition, and what is repeated keeps its first place
example :
    let on (paths : List String) := RuleSet.rule ((Rule.ofCheck fun _ _ => true).dependsOn paths)
    dependencyPaths
        [{ ofRules (.group .all [on ["age", "name"], .group .any [on ["../age", "name"]]]) with
            condition := some (on ["/nicknames.0"]) },
          ofRules (on ["age", "./car.make"])] =
      ["age", "name", "../age", "/nicknames.0", "./car.make"] := by
  decide

end Test

/-! ## The paths that a scheduler watches -/

/-- For editability a control watches what its tests of editability and those of visibility depend
on, as if they were one list. -/
theorem Scheduler.editPaths_eq (p : Property) :
    editPaths p = Test.dependencyPaths (p.editTests ++ p.viewTests) := by
  rw [editPaths, Test.dependencyPaths, Test.dependencyPaths, distinct_distinct_append,
    Test.dependencyPaths, List.flatMap_append]

end ReactiveForm
