import ReactiveForm.Proofs.Rule.Skipping

/-!
# Inquiries under way

An evaluation by inquiries takes time. Here it is followed from one millisecond to the next: which
inquiries it starts at once (`RuleSet.start`), what is left of it a moment later (`Progress.tick`),
and when its outcome is there (`Progress.outcome?`). Members of a group go on side by side, so a
group is settled with the last of its members, and this is what the plain evaluation says
(`outcome?_after`).

A test goes from its condition to its check as soon as the condition is settled, and starts the
inquiries of the check then (`Test.poll`). What a run of a test by inquiries gives as its result, its
calls and its duration is what happens on this way (`Test.result?_course`, `Test.called_course`).
-/

namespace ReactiveForm

/-! ## The latest of several -/

/-- The latest of several times comes by the time that each of them does. -/
theorem foldr_max_le_iff {α : Type} {f : α → Nat} {l : List α} {n : Nat} :
    l.foldr (fun a d => max (f a) d) 0 ≤ n ↔ ∀ a ∈ l, f a ≤ n := by
  induction l with
  | nil => exact iff_of_true (Nat.zero_le n) nofun
  | cons a l ih => rw [List.foldr_cons, Nat.max_le, ih, List.forall_mem_cons]

/-- Several results are there together when each of them is. -/
theorem mapM_eq_ite {α β : Type} {f : β → Option α} {g : β → α} {ready : β → Prop}
    [DecidablePred ready] {l : List β}
    (h : ∀ b ∈ l, f b = if ready b then some (g b) else none) :
    l.mapM f = if ∀ b ∈ l, ready b then some (l.map g) else none := by
  induction l with
  | nil => exact (if_pos nofun).symm
  | cons b l ih =>
      obtain ⟨hb, hl⟩ := List.forall_mem_cons.1 h
      rw [List.mapM_cons, hb, ih hl]
      by_cases hfirst : ready b
      · by_cases hrest : ∀ c ∈ l, ready c
        · rw [if_pos hfirst, if_pos hrest, if_pos (List.forall_mem_cons.2 ⟨hfirst, hrest⟩)]
          rfl
        · rw [if_pos hfirst, if_neg hrest,
            if_neg fun hall => hrest (List.forall_mem_cons.1 hall).2]
          rfl
      · rw [if_neg hfirst, if_neg fun hall => hfirst (List.forall_mem_cons.1 hall).1]
        rfl

variable {value root : Json}

/-! ## Rule sets -/

namespace RuleSet

/-- What is left of an evaluation by inquiries. -/
inductive Progress where
  /-- A rule that has no inquiry. -/
  | idle
  /-- An inquiry that was started: its answer, and the time until the answer is there. -/
  | asked (passed : Bool) (left : Nat)
  /-- A group, whose members go on side by side. -/
  | joined (requirement : Requirement) (members : List Progress)

namespace Progress

mutual

/-- What is left a millisecond later. -/
def tick : Progress → Progress
  | idle => idle
  | asked passed left => asked passed (left - 1)
  | joined requirement members => joined requirement (tickAll members)

/-- What is left of several evaluations a millisecond later. -/
def tickAll : List Progress → List Progress
  | [] => []
  | p :: ps => tick p :: tickAll ps

end

mutual

/-- The outcome, if all answers are there. -/
def outcome? : Progress → Option Outcome
  | idle => some .skipped
  | asked passed left => if left = 0 then some (.ofBool passed) else none
  | joined requirement members => ((outcomes members).mapM id).map requirement.reduce

/-- The outcomes of several evaluations, those that are there. -/
def outcomes : List Progress → List (Option Outcome)
  | [] => []
  | p :: ps => outcome? p :: outcomes ps

end

/-- What is left some milliseconds later. -/
def later (p : Progress) : Nat → Progress
  | 0 => p
  | n + 1 => (p.later n).tick

theorem tickAll_eq (ps : List Progress) : tickAll ps = ps.map tick := by
  induction ps with
  | nil => rw [tickAll]; rfl
  | cons p ps ih => rw [tickAll, ih, List.map_cons]

theorem outcomes_eq (ps : List Progress) : outcomes ps = ps.map outcome? := by
  induction ps with
  | nil => rw [outcomes]; rfl
  | cons p ps ih => rw [outcomes, ih, List.map_cons]

theorem later_asked (passed : Bool) (left n : Nat) :
    (asked passed left).later n = asked passed (left - n) := by
  induction n with
  | zero => rfl
  | succ n ih => rw [later, ih, tick, Nat.sub_sub]

theorem outcome?_later_idle (n : Nat) : (idle.later n).outcome? = some .skipped := by
  have hidle : idle.later n = idle := by
    induction n with
    | zero => rfl
    | succ n ih => rw [later, ih, tick]
  rw [hidle, outcome?]

theorem later_joined (requirement : Requirement) (ps : List Progress) (n : Nat) :
    (joined requirement ps).later n = joined requirement (ps.map (later · n)) := by
  induction n with
  | zero => exact congrArg _ (List.map_id' ps).symm
  | succ n ih =>
      rw [later, ih, tick, tickAll_eq, List.map_map]
      rfl

end Progress

mutual

/-- Start an evaluation by inquiries, together with the rules whose inquiry is started. -/
def start (value root : Json) : RuleSet → Progress × List Rule
  | rule r =>
    match r.inquiry with
    | some f => (.asked (f value root).passed (f value root).delay, [r])
    | none => (.idle, [])
  | group requirement members =>
    ((.joined requirement ((startAll value root members).map Prod.fst)),
      (startAll value root members).flatMap Prod.snd)

/-- Start the members of a group. -/
def startAll (value root : Json) : List RuleSet → List (Progress × List Rule)
  | [] => []
  | m :: ms => start value root m :: startAll value root ms

end

theorem startAll_eq (members : List RuleSet) :
    startAll value root members = members.map (start value root) := by
  induction members with
  | nil => rw [startAll]; rfl
  | cons m ms ih => rw [startAll, ih, List.map_cons]

theorem start_group (requirement : Requirement) (members : List RuleSet) :
    (group requirement members).start value root =
      (.joined requirement (members.map fun m => (m.start value root).1),
        members.flatMap fun m => (m.start value root).2) := by
  rw [start, startAll_eq, List.map_map, List.flatMap_map]
  rfl

/-- All inquiries of an evaluation are started with it. -/
theorem start_snd (s : RuleSet) : (s.start value root).2 = (s.inquire value root).called := by
  induction s with
  | rule r =>
      rw [start, inquire]
      cases r.inquiry <;> rfl
  | group requirement members ih =>
      rw [start_group, called_inquire_group, List.flatMap_def, List.map_congr_left ih,
        List.flatMap_def]

theorem duration_inquire_group (requirement : Requirement) (members : List RuleSet) :
    ((group requirement members).inquire value root).duration =
      members.foldr (fun m d => max (m.inquire value root).duration d) 0 := by
  rw [inquire, inquireMembers_eq, List.foldr_map]

/-- An evaluation is settled as soon as its duration is over, and not before. -/
theorem outcome?_later_start (s : RuleSet) (n : Nat) :
    ((s.start value root).1.later n).outcome? =
      if (s.inquire value root).duration ≤ n then some (s.inquire value root).outcome
      else none := by
  induction s with
  | rule r =>
      rw [start, inquire]
      cases r.inquiry with
      | none => exact (Progress.outcome?_later_idle n).trans (if_pos (Nat.zero_le n)).symm
      | some f =>
          dsimp only
          rw [Progress.later_asked, Progress.outcome?]
          exact ite_congr (propext Nat.sub_eq_zero_iff_le) (fun _ => rfl) fun _ => rfl
  | group requirement members ih =>
      rw [start_group, Progress.later_joined, Progress.outcome?, Progress.outcomes_eq,
        List.map_map, List.map_map, List.mapM_map, duration_inquire_group, outcome_inquire_group]
      simp only [foldr_max_le_iff]
      refine (congrArg (Option.map requirement.reduce) (mapM_eq_ite ih)).trans ?_
      exact apply_ite (Option.map requirement.reduce) _ _ _

/-- The duration of an evaluation is the longest delay of its inquiries, at any depth. -/
theorem duration_inquire_le_iff (s : RuleSet) (n : Nat) :
    (s.inquire value root).duration ≤ n ↔
      ∀ r ∈ s.rules, ∀ inquiry, r.inquiry = some inquiry → (inquiry value root).delay ≤ n := by
  induction s with
  | rule r =>
      rw [inquire, rules, List.forall_mem_singleton]
      cases r.inquiry with
      | none =>
          refine iff_of_true (Nat.zero_le n) fun inquiry hinquiry => ?_
          cases hinquiry
      | some f => exact ⟨fun h g hg => Option.some.inj hg ▸ h, fun h => h f rfl⟩
  | group requirement members ih =>
      rw [duration_inquire_group, foldr_max_le_iff, rules_group, List.forall_mem_flatMap]
      exact forall₂_congr ih

end RuleSet

/-! ## Tests -/

namespace Test

/-- How far a run of a test by inquiries has come. -/
inductive Stage where
  /-- The condition is being evaluated. -/
  | condition (p : RuleSet.Progress)
  /-- The check is being evaluated. -/
  | check (p : RuleSet.Progress)
  /-- The result is there. -/
  | done (result : TestResult)

/-- A run of a test by inquiries that is under way. -/
structure Course where
  /-- How far it has come. -/
  stage : Stage
  /-- The rules whose inquiry was started so far, with the time since the start of the test. -/
  called : List (Nat × Rule)

/-- The result, if it is there. -/
def Course.result? (c : Course) : Option TestResult :=
  match c.stage with
  | .done result => some result
  | _ => none

/-- The run a millisecond later, before it has been looked at. -/
def Course.tick (c : Course) : Course :=
  match c.stage with
  | .condition p => { c with stage := .condition p.tick }
  | .check p => { c with stage := .check p.tick }
  | .done _ => c

/-- Take the outcome of the check, if it is there. -/
def finish (t : Test) (c : Course) : Course :=
  match c.stage with
  | .check p =>
    match p.outcome? with
    | some outcome => { c with stage := .done (.ofOutcome t outcome) }
    | none => c
  | _ => c

/-- Go on at a time, as far as the answers allow. When the condition is settled, the inquiries of
the check are started, unless the condition has failed. -/
def poll (value root : Json) (t : Test) (now : Nat) (c : Course) : Course :=
  match c.stage with
  | .condition p =>
    match p.outcome? with
    | none => c
    | some .failed => { c with stage := .done (.ofOutcome t .skipped) }
    | some _ =>
      let (p, asked) := t.rules.start value root
      t.finish ⟨.check p, c.called ++ asked.map fun r => (now, r)⟩
  | _ => t.finish c

/-- Start the condition of a test. A test without one is through with it. -/
def startCondition (value root : Json) (t : Test) : RuleSet.Progress × List Rule :=
  match t.condition with
  | some c => c.start value root
  | none => (.idle, [])

/-- The run of a test by inquiries, some milliseconds after its start. -/
def course (value root : Json) (t : Test) : Nat → Course
  | 0 =>
    let (p, asked) := t.startCondition value root
    t.poll value root 0 ⟨.condition p, asked.map fun r => (0, r)⟩
  | n + 1 => t.poll value root (n + 1) (t.course value root n).tick

/-- What the condition comes to. A test without one has a condition that is skipped. -/
def gate (value root : Json) (t : Test) : Inquired :=
  match t.condition with
  | some c => c.inquire value root
  | none => ⟨.skipped, [], 0⟩

variable {t : Test} {n : Nat}

theorem startCondition_snd (t : Test) :
    (t.startCondition value root).2 = (t.gate value root).called := by
  unfold startCondition gate
  cases t.condition with
  | none => rfl
  | some c => exact c.start_snd

theorem outcome?_later_startCondition (t : Test) (n : Nat) :
    ((t.startCondition value root).1.later n).outcome? =
      if (t.gate value root).duration ≤ n then some (t.gate value root).outcome else none := by
  unfold startCondition gate
  cases t.condition with
  | none => exact (RuleSet.Progress.outcome?_later_idle n).trans (if_pos (Nat.zero_le n)).symm
  | some c => exact c.outcome?_later_start n

/-- A run is its condition, followed by its check unless the condition has failed. -/
theorem runInquiries_eq (value root : Json) (t : Test) :
    t.runInquiries value root =
      let gate := t.gate value root
      let asked := gate.called.map fun r => (0, r)
      if gate.outcome = .failed then ⟨.ofOutcome t .skipped, asked, gate.duration⟩
      else
        let main := t.rules.inquire value root
        { result := .ofOutcome t main.outcome
          called := asked ++ main.called.map fun r => (gate.duration, r)
          duration := gate.duration + main.duration } := rfl

/-- The calls of the condition, all of them at the start. -/
def gateCalls (value root : Json) (t : Test) : List (Nat × Rule) :=
  (t.gate value root).called.map fun r => (0, r)

/-- The calls of the check, all of them when the condition is settled. -/
def mainCalls (value root : Json) (t : Test) : List (Nat × Rule) :=
  (t.rules.inquire value root).called.map fun r => ((t.gate value root).duration, r)

/-- Until the condition is settled, nothing else is asked. -/
theorem course_of_lt (hn : n < (t.gate value root).duration) :
    t.course value root n =
      ⟨.condition ((t.startCondition value root).1.later n), t.gateCalls value root⟩ := by
  have hleft : ∀ n, n < (t.gate value root).duration →
      ((t.startCondition value root).1.later n).outcome? = none := fun n hn =>
    (outcome?_later_startCondition t n).trans (if_neg (Nat.not_le.2 hn))
  induction n with
  | zero =>
      have hleft : (t.startCondition value root).1.outcome? = none := hleft 0 hn
      simp only [course, poll, hleft, startCondition_snd]
      rfl
  | succ n ih =>
      have hleft : ((t.startCondition value root).1.later n).tick.outcome? = none :=
        hleft (n + 1) hn
      rw [course, ih (Nat.lt_of_succ_lt hn)]
      simp only [poll, Course.tick, hleft]
      rfl

/-- When the condition is settled, the run looks at its outcome. -/
theorem course_gate (value root : Json) (t : Test) :
    t.course value root (t.gate value root).duration =
      t.poll value root (t.gate value root).duration
        ⟨.condition ((t.startCondition value root).1.later (t.gate value root).duration),
          t.gateCalls value root⟩ := by
  cases hduration : (t.gate value root).duration with
  | zero =>
      simp only [course, startCondition_snd]
      rfl
  | succ n =>
      rw [course, course_of_lt (hduration ▸ Nat.lt_succ_self n)]
      rfl

/-- A condition that has failed ends the run. -/
theorem course_of_failed (hfailed : (t.gate value root).outcome = .failed) (k : Nat) :
    t.course value root ((t.gate value root).duration + k) =
      ⟨.done (.ofOutcome t .skipped), t.gateCalls value root⟩ := by
  induction k with
  | zero =>
      rw [Nat.add_zero, course_gate]
      simp only [poll, outcome?_later_startCondition, Nat.le_refl, if_true, hfailed]
  | succ k ih =>
      rw [← Nat.add_assoc, course, ih]
      rfl

/-- After a condition that has not failed, the check goes on until it is settled. -/
theorem course_of_not_failed (hgate : (t.gate value root).outcome ≠ .failed) (k : Nat) :
    t.course value root ((t.gate value root).duration + k) =
      ⟨if (t.rules.inquire value root).duration ≤ k then
          .done (.ofOutcome t (t.rules.inquire value root).outcome)
        else .check ((t.rules.start value root).1.later k),
        t.gateCalls value root ++ t.mainCalls value root⟩ := by
  -- looking at the check as it is after a while
  have hfinish (k : Nat) (called : List (Nat × Rule)) :
      t.finish ⟨.check ((t.rules.start value root).1.later k), called⟩ =
        ⟨if (t.rules.inquire value root).duration ≤ k then
            .done (.ofOutcome t (t.rules.inquire value root).outcome)
          else .check ((t.rules.start value root).1.later k), called⟩ := by
    simp only [finish, RuleSet.outcome?_later_start]
    by_cases hsettled : (t.rules.inquire value root).duration ≤ k
    · simp only [if_pos hsettled]
    · simp only [if_neg hsettled]
  induction k with
  | zero =>
      rw [Nat.add_zero, course_gate]
      have hpoll : ∀ outcome, outcome ≠ Outcome.failed →
          ((t.startCondition value root).1.later (t.gate value root).duration).outcome? =
            some outcome →
          t.poll value root (t.gate value root).duration
              ⟨.condition ((t.startCondition value root).1.later (t.gate value root).duration),
                t.gateCalls value root⟩ =
            t.finish ⟨.check (t.rules.start value root).1,
              t.gateCalls value root ++ t.mainCalls value root⟩ := by
        intro outcome hne houtcome
        simp only [poll, houtcome, RuleSet.start_snd]
        cases outcome with
        | failed => exact absurd rfl hne
        | passed => rfl
        | skipped => rfl
      have houtcome := @outcome?_later_startCondition value root t
        (t.gate value root).duration
      rw [if_pos (Nat.le_refl _)] at houtcome
      rw [hpoll _ hgate houtcome]
      exact hfinish 0 _
  | succ k ih =>
      rw [← Nat.add_assoc, course, ih]
      by_cases hsettled : (t.rules.inquire value root).duration ≤ k
      · simp only [if_pos hsettled, if_pos (Nat.le_succ_of_le hsettled), Course.tick, poll, finish]
      · simp only [if_neg hsettled, Course.tick, poll]
        exact hfinish (k + 1) _

end Test

end ReactiveForm
