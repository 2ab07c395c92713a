import Mathlib.Data.List.Basic
import ReactiveForm.Proofs.Recompute.Evaluations

/-!
# Decisions of inquiry pipelines

At the end of a burst of triggers an inquiry pipeline decides: it is answered by the last results,
or it starts an evaluation (`Decision`). What it has to decide depends on the present values and on
the value that was completely evaluated last (`Decision.due`). An evaluation is overtaken if another
trigger comes before its results are there, and otherwise its results are applied.

The records of a control are those of the decisions of its pipeline (`Engine.Minutes`). Only the
last decision can be about an evaluation that is still under way. The others are settled
(`Decision.IsSettled`): no trigger to come changes what has become of them. So the records stay in
order while triggers come and time passes, and when an evaluation is given up or completed the
decision to start it is settled as well.
-/

namespace ReactiveForm

/-! ## What is to be decided -/

/-- What a pipeline makes of a burst of triggers. -/
structure Decision where
  /-- The moment. -/
  moment : Nat
  /-- The value of the control. -/
  value : Json
  /-- The value of the form. -/
  root : Json
  /-- The rules that are asked at once. -/
  asked : List Rule
  /-- The evaluation that is started, none if the pipeline is answered by the last results. -/
  evaluation? : Option Evaluation

namespace Decision

variable {triggers more : List Nat} {now now' : Nat} {d : Decision}

/-- What is to be decided on the values of a moment, where a value was completely evaluated last. -/
def due (settings : ChangeSettings) (tests : List Test) (last : Option Json) (moment : Nat)
    (value root : Json) : Decision :=
  if settings.distinct && last.any (· == value) then ⟨moment, value, root, [], none⟩
  else
    let runs := TestResults.runInquiries value root tests
    ⟨moment, value, root, runs.askedAtOnce,
      some ⟨value, false, runs.results, moment + runs.duration, []⟩⟩

/-- Whether another trigger comes before the results are there. -/
def isOvertaken (triggers : List Nat) (d : Decision) : Bool :=
  d.evaluation?.any fun v => triggers.any fun t => decide (d.moment < t ∧ t < v.finish)

/-- No trigger comes at the end of an evaluation. -/
def Apart (triggers : List Nat) (log : List Decision) : Prop :=
  ∀ d ∈ log, ∀ v, d.evaluation? = some v → v.finish ∉ triggers

theorem Apart.of_append {triggers more : List Nat} {log further : List Decision}
    (h : Apart (triggers ++ more) (log ++ further)) : Apart triggers log := fun d hd v hv hmem =>
  h d (List.mem_append_left _ hd) v hv (List.mem_append_left _ hmem)

/-- The evaluation that was started, if its results have been applied by now. -/
def applied? (triggers : List Nat) (now : Nat) (d : Decision) : Option Evaluation :=
  d.evaluation?.filter fun v => !d.isOvertaken triggers && decide (v.finish ≤ now)

/-- The last evaluation whose results have been applied by now. -/
def lastApplied? (triggers : List Nat) (now : Nat) (log : List Decision) : Option Evaluation :=
  (log.filterMap (applied? triggers now)).getLast?

/-- What has happened by now to the evaluation that was started. -/
def events (triggers : List Nat) (now : Nat) (d : Decision) : List EvaluationEvent :=
  d.evaluation?.toList.flatMap fun v => .started v ::
    if d.isOvertaken triggers then [.abandoned v]
    else if v.finish ≤ now then [.completed v] else []

/-- Nothing is left to happen. -/
def IsSettled (triggers : List Nat) (now : Nat) (d : Decision) : Prop :=
  d.isOvertaken triggers = true ∨ ∀ v, d.evaluation? = some v → v.finish ≤ now

/-- All decisions are the ones that were due, and nothing was left to happen when the next one was
made. -/
def AllDue (settings : ChangeSettings) (tests : List Test) (triggers : List Nat)
    (log : List Decision) : Prop :=
  ∀ earlier d rest, log = earlier ++ d :: rest →
    (∀ x ∈ earlier, x.IsSettled triggers d.moment) ∧
      d = due settings tests ((lastApplied? triggers d.moment earlier).map Evaluation.value)
        d.moment d.value d.root

section later

variable (hlater : ∀ t ∈ more, now ≤ t)

include hlater

/-- Triggers that come later do not overtake what is settled. -/
theorem IsSettled.isOvertaken_append (h : d.IsSettled triggers now) :
    d.isOvertaken (triggers ++ more) = d.isOvertaken triggers := by
  unfold isOvertaken
  cases hv : d.evaluation? with
  | none => rfl
  | some v =>
      rw [Option.any_some, Option.any_some, List.any_append]
      rcases h with hovertaken | hfinish
      · rw [isOvertaken, hv, Option.any_some] at hovertaken
        rw [hovertaken, Bool.true_or]
      · have hnone : (more.any fun t => decide (d.moment < t ∧ t < v.finish)) = false := by
          refine List.any_eq_false.2 fun t ht => ?_
          have hnow := hlater t ht
          have hdone := hfinish v hv
          rw [decide_eq_true_eq]
          omega
        rw [hnone, Bool.or_false]

theorem IsSettled.later (h : d.IsSettled triggers now) (hle : now ≤ now') :
    d.IsSettled (triggers ++ more) now' :=
  h.imp (h.isOvertaken_append hlater).trans fun hfinish v hv => Nat.le_trans (hfinish v hv) hle

theorem IsSettled.applied?_later (h : d.IsSettled triggers now) (hle : now ≤ now') :
    d.applied? (triggers ++ more) now' = d.applied? triggers now := by
  unfold applied?
  rw [h.isOvertaken_append hlater]
  cases hv : d.evaluation? with
  | none => rfl
  | some v =>
      rcases h with hovertaken | hfinish
      · simp [Option.filter, hovertaken]
      · have hdone := hfinish v hv
        simp [Option.filter, hdone, Nat.le_trans hdone hle]

theorem IsSettled.events_later (h : d.IsSettled triggers now) (hle : now ≤ now') :
    d.events (triggers ++ more) now' = d.events triggers now := by
  unfold events
  rw [h.isOvertaken_append hlater]
  cases hv : d.evaluation? with
  | none => rfl
  | some v =>
      rcases h with hovertaken | hfinish
      · simp [hovertaken]
      · have hdone := hfinish v hv
        simp [hdone, Nat.le_trans hdone hle]

theorem lastApplied?_later {log : List Decision} (h : ∀ x ∈ log, x.IsSettled triggers now)
    (hle : now ≤ now') :
    lastApplied? (triggers ++ more) now' log = lastApplied? triggers now log := by
  unfold lastApplied?
  rw [List.filterMap_congr fun x hx => (h x hx).applied?_later hlater hle]

end later

namespace AllDue

variable {settings : ChangeSettings} {tests : List Test} {log : List Decision}

theorem nil (settings : ChangeSettings) (tests : List Test) (triggers : List Nat) :
    AllDue settings tests triggers [] := fun earlier d rest heq => by simp at heq

/-- A further decision is made. -/
theorem concat (h : AllDue settings tests triggers log)
    (hsettled : ∀ x ∈ log, x.IsSettled triggers d.moment)
    (hd : d = due settings tests ((lastApplied? triggers d.moment log).map Evaluation.value)
      d.moment d.value d.root) : AllDue settings tests triggers (log ++ [d]) := by
  intro earlier x rest heq
  rcases List.eq_nil_or_concat rest with rfl | ⟨rest, y, rfl⟩
  · obtain ⟨rfl, hlast⟩ := List.append_inj' heq rfl
    cases hlast
    exact ⟨hsettled, hd⟩
  · rw [List.concat_eq_append, ← List.cons_append, ← List.append_assoc] at heq
    exact h earlier x rest (List.append_inj' heq rfl).1

/-- Triggers that come later do not change what was due. -/
theorem later (h : AllDue settings tests triggers log) (hlog : ∀ x ∈ log, x.moment ≤ now)
    (hlater : ∀ t ∈ more, now ≤ t) : AllDue settings tests (triggers ++ more) log := by
  intro earlier d rest heq
  obtain ⟨hsettled, hd⟩ := h earlier d rest heq
  have hmoment : ∀ t ∈ more, d.moment ≤ t := fun t ht =>
    Nat.le_trans (hlog d (heq ▸ List.mem_append_right _ List.mem_cons_self)) (hlater t ht)
  refine ⟨fun x hx => (hsettled x hx).later hmoment (Nat.le_refl _), ?_⟩
  rwa [lastApplied?_later hmoment hsettled (Nat.le_refl _)]

end AllDue

end Decision

namespace Engine

variable {e e' : Engine} {control : ControlId}

/-! ## What is recorded about decisions -/

/-- The decision that a pipeline makes in a step, if it makes one. -/
def decision? (e : Engine) (control : ControlId) (e' : Engine) : Option Decision :=
  if e'.asyncRuns control + e'.passthroughs control =
      e.asyncRuns control + e.passthroughs control then none
  else
    some ⟨e.clock, e.form.value control, e.form.rootValue, e'.asked.drop e.asked.length,
      e'.inFlight? control⟩

theorem decision?_eq_none (hruns : e'.asyncRuns control = e.asyncRuns control)
    (hpassed : e'.passthroughs control = e.passthroughs control) :
    e.decision? control e' = none := if_pos (by rw [hruns, hpassed])

open Decision in
/-- The records of a control are those of some decisions. All but the last one are settled, and the
last one is not while its evaluation is under way. -/
structure Minutes (e : Engine) (control : ControlId) (settings : ChangeSettings)
    (tests : List Test) (triggers : List Nat) (past pending : List Decision)
    (events : List EvaluationEvent) : Prop where
  moment_le : ∀ d ∈ past ++ pending, d.moment ≤ e.clock
  allDue : AllDue settings tests triggers (past ++ pending)
  settled : ∀ d ∈ past, d.IsSettled triggers e.clock
  underWay : pending.map Decision.evaluation? = (e.inFlight? control).toList.map some
  events : events = past.flatMap (Decision.events triggers e.clock) ++
    (e.inFlight? control).toList.map .started
  lastProcessed : (e.entry control).lastProcessed =
    (lastApplied? triggers e.clock past).map Evaluation.value
  lastErrors : (e.entry control).lastErrors =
    (lastApplied? triggers e.clock past).bind fun v => v.results.errors?
  asyncRuns : e.asyncRuns control = (past ++ pending).countP fun d => d.evaluation?.isSome
  passthroughs : e.passthroughs control = past.countP fun d => d.evaluation?.isNone
  superseded : e.superseded control = past.countP (isOvertaken triggers)

/-- The records of a control are those of some decisions, each of which was due when it was made. -/
structure Reflects (e : Engine) (control : ControlId) (settings : ChangeSettings)
    (tests : List Test) (triggers : List Nat) (log : List Decision)
    (events : List EvaluationEvent) : Prop where
  allDue : Decision.AllDue settings tests triggers log
  events : events = log.flatMap (Decision.events triggers e.clock)
  asyncRuns : e.asyncRuns control = log.countP fun d => d.evaluation?.isSome
  passthroughs : e.passthroughs control = log.countP fun d => d.evaluation?.isNone
  superseded : e.superseded control = log.countP (Decision.isOvertaken triggers)
  lastProcessed : (e.entry control).lastProcessed =
    (Decision.lastApplied? triggers e.clock log).map Evaluation.value
  lastErrors : (e.entry control).lastErrors =
    (Decision.lastApplied? triggers e.clock log).bind fun v => v.results.errors?

theorem Reflects.length_eq {settings : ChangeSettings} {tests : List Test} {triggers : List Nat}
    {log : List Decision} {events : List EvaluationEvent}
    (h : e.Reflects control settings tests triggers log events) :
    e.asyncRuns control + e.passthroughs control = log.length := by
  rw [h.asyncRuns, h.passthroughs,
    List.length_eq_countP_add_countP fun d : Decision => d.evaluation?.isSome]
  exact congrArg _ (List.countP_congr fun d _ => by simp)

namespace Minutes

variable {settings : ChangeSettings} {tests : List Test} {triggers more : List Nat}
  {past pending : List Decision} {events : List EvaluationEvent}

/-- A control about which nothing is recorded. -/
theorem nil (hrecord : (e.entry control).record = .initial) (hnone : e.inFlight? control = none)
    (settings : ChangeSettings) (tests : List Test) (triggers : List Nat) :
    e.Minutes control settings tests triggers [] [] [] where
  moment_le := nofun
  allDue := .nil settings tests triggers
  settled := nofun
  underWay := by rw [hnone]; rfl
  events := by rw [hnone]; rfl
  lastProcessed := congrArg ScheduleEntry.lastProcessed hrecord
  lastErrors := congrArg ScheduleEntry.lastErrors hrecord
  asyncRuns := congrArg (·.stats.asyncRuns) hrecord
  passthroughs := congrArg (·.stats.passthroughs) hrecord
  superseded := congrArg (·.stats.superseded) hrecord

variable (h : e.Minutes control settings tests triggers past pending events)

include h

theorem flatMap_events_later (hmore : ∀ t ∈ more, e.clock ≤ t) {now : Nat} (hle : e.clock ≤ now) :
    past.flatMap (Decision.events (triggers ++ more) now) =
      past.flatMap (Decision.events triggers e.clock) :=
  List.flatMap_congr fun d hd => (h.settled d hd).events_later hmore hle

/-- Time passes and triggers come, but nothing is recorded. -/
theorem carry (hrecord : (e'.entry control).record = (e.entry control).record)
    (hinFlight : e'.inFlight? control = e.inFlight? control) (hle : e.clock ≤ e'.clock)
    (hmore : ∀ t ∈ more, e.clock ≤ t) :
    e'.Minutes control settings tests (triggers ++ more) past pending events := by
  have hlast := Decision.lastApplied?_later hmore h.settled hle
  have hprocessed := congrArg ScheduleEntry.lastProcessed hrecord
  have herrors := congrArg ScheduleEntry.lastErrors hrecord
  have hruns := congrArg (·.stats.asyncRuns) hrecord
  have hpassed := congrArg (·.stats.passthroughs) hrecord
  have hgivenUp := congrArg (·.stats.superseded) hrecord
  refine ⟨fun d hd => Nat.le_trans (h.moment_le d hd) hle, h.allDue.later h.moment_le hmore,
    fun d hd => (h.settled d hd).later hmore hle, hinFlight ▸ h.underWay, ?_, ?_, ?_,
    hruns.trans h.asyncRuns, hpassed.trans h.passthroughs, ?_⟩
  · rw [h.flatMap_events_later hmore hle, hinFlight]
    exact h.events
  · rw [hlast]
    exact hprocessed.trans h.lastProcessed
  · rw [hlast]
    exact herrors.trans h.lastErrors
  · refine (hgivenUp.trans h.superseded).trans (List.countP_congr fun d hd => ?_)
    rw [(h.settled d hd).isOvertaken_append hmore]

theorem pending_cases : pending = [] ∧ e.inFlight? control = none ∨
    ∃ d v, pending = [d] ∧ e.inFlight? control = some v ∧ d.evaluation? = some v := by
  have hunderWay := h.underWay
  cases hv : e.inFlight? control with
  | none =>
      rw [hv] at hunderWay
      exact .inl ⟨List.map_eq_nil_iff.1 hunderWay, rfl⟩
  | some v =>
      rw [hv] at hunderWay
      obtain ⟨d, rest, rfl, hd, hrest⟩ := List.map_eq_cons_iff.1 hunderWay
      exact .inr ⟨d, v, by rw [List.map_eq_nil_iff.1 hrest], rfl, hd⟩

/-- The evaluation under way is given up, because a trigger overtakes it. -/
theorem giveUp (hclock : e'.clock = e.clock)
    (hentry : e'.entry control = (e.entry control).count fun s =>
      { s with superseded := s.superseded + (e.inFlight? control).toList.length })
    (hnone : e'.inFlight? control = none) (hearly : ∀ v ∈ e.inFlight? control, e.clock < v.finish)
    (hovertaken : ∀ d ∈ pending, d.isOvertaken triggers = true) :
    e'.Minutes control settings tests triggers (past ++ pending) []
      (events ++ e.evaluationEvents control race e') := by
  have hnever : ∀ d ∈ pending, d.applied? triggers e.clock = none := fun d hd => by
    unfold Decision.applied?
    rw [hovertaken d hd]
    cases d.evaluation? <;> rfl
  have hlast : Decision.lastApplied? triggers e.clock (past ++ pending) =
      Decision.lastApplied? triggers e.clock past := by
    unfold Decision.lastApplied?
    rw [List.filterMap_append, List.filterMap_eq_nil_iff.2 hnever, List.append_nil]
  have hgivenUp : (e.inFlight? control).toList.map .started ++ e.evaluationEvents control race e' =
      pending.flatMap (Decision.events triggers e.clock) := by
    unfold evaluationEvents
    rw [hnone]
    rcases h.pending_cases with ⟨rfl, hv⟩ | ⟨d, v, rfl, hv, hd⟩
    · rw [hv]
      rfl
    · have hlate := Nat.not_le.2 (hearly v hv)
      simp [hv, hlate, Decision.events, hd, hovertaken d]
  refine ⟨?_, ?_, ?_, by rw [hnone]; rfl, ?_, ?_, ?_, ?_, ?_, ?_⟩
  · rw [List.append_nil, hclock]
    exact h.moment_le
  · rw [List.append_nil]
    exact h.allDue
  · rw [hclock]
    exact List.forall_mem_append.2 ⟨h.settled, fun d hd => .inl (hovertaken d hd)⟩
  · rw [hnone, hclock, h.events, List.append_assoc, hgivenUp, List.flatMap_append]
    exact (List.append_nil _).symm
  · rw [hclock, hlast, hentry]
    exact h.lastProcessed
  · rw [hclock, hlast, hentry]
    exact h.lastErrors
  · rw [List.append_nil, ← h.asyncRuns]
    exact congrArg (·.stats.asyncRuns) hentry
  · have hnot : pending.countP (fun d => d.evaluation?.isNone) = 0 := by
      rcases h.pending_cases with ⟨rfl, -⟩ | ⟨d, v, rfl, -, hd⟩
      · rfl
      · simp [hd]
    rw [List.countP_append, hnot, Nat.add_zero, ← h.passthroughs]
    exact congrArg (·.stats.passthroughs) hentry
  · have hall : pending.countP (Decision.isOvertaken triggers) =
        (e.inFlight? control).toList.length := by
      rw [List.countP_eq_length.2 hovertaken]
      simpa using congrArg List.length h.underWay
    rw [List.countP_append, hall, ← h.superseded]
    exact congrArg (·.stats.superseded) hentry

/-- The evaluation under way is completed. -/
theorem complete {v : Evaluation} (hclock : e'.clock = e.clock)
    (hv : e.inFlight? control = some v) (hdue : v.finish ≤ e.clock)
    (hfirst : e.outruns control race = false)
    (hentry : e'.entry control =
      { e.entry control with lastProcessed := some v.value, lastErrors := v.results.errors? })
    (hnone : e'.inFlight? control = none)
    (hovertaken : ∀ d ∈ pending, d.isOvertaken triggers = false) :
    e'.Minutes control settings tests triggers (past ++ pending) []
      (events ++ e.evaluationEvents control race e') := by
  obtain ⟨d, hpending, hd⟩ : ∃ d, pending = [d] ∧ d.evaluation? = some v := by
    rcases h.pending_cases with ⟨-, hv'⟩ | ⟨d, v', hpending, hv', hd⟩
    · rw [hv] at hv'
      cases hv'
    · rw [hv] at hv'
      cases hv'
      exact ⟨d, hpending, hd⟩
  subst hpending
  have hnot := hovertaken d (List.mem_singleton_self d)
  have happlied : d.applied? triggers e.clock = some v := by
    simp [Decision.applied?, hd, Option.filter, hnot, hdue]
  have hlast : Decision.lastApplied? triggers e.clock (past ++ [d]) = some v := by
    unfold Decision.lastApplied?
    rw [List.filterMap_append, List.filterMap_cons_some happlied]
    exact List.getLast?_concat
  refine ⟨?_, ?_, ?_, by rw [hnone]; rfl, ?_, ?_, ?_, ?_, ?_, ?_⟩
  · rw [List.append_nil, hclock]
    exact h.moment_le
  · rw [List.append_nil]
    exact h.allDue
  · rw [hclock]
    refine List.forall_mem_append.2 ⟨h.settled, List.forall_mem_singleton.2 (.inr fun u hu => ?_)⟩
    rw [hd] at hu
    cases hu
    exact hdue
  · have hcompleted : Decision.events triggers e.clock d = [.started v, .completed v] := by
      simp [Decision.events, hd, hnot, hdue]
    rw [hnone, hclock, h.events, hv, List.flatMap_append, evaluationEvents, hv, hnone]
    simp [hcompleted, hdue, hfirst]
  · rw [hclock, hlast, hentry]
    rfl
  · rw [hclock, hlast, hentry]
    rfl
  · rw [List.append_nil, ← h.asyncRuns]
    exact congrArg (·.stats.asyncRuns) hentry
  · rw [List.countP_append, List.countP_singleton, hd, ← h.passthroughs]
    exact congrArg (·.stats.passthroughs) hentry
  · rw [List.countP_append, List.countP_singleton, hnot, ← h.superseded]
    exact congrArg (·.stats.superseded) hentry

/-- A further decision is the one that is due while no evaluation is under way. -/
theorem allDue_concat {d : Decision} (hmoment : d.moment = e.clock) (hnil : pending = [])
    (hd : d = .due settings tests (e.entry control).lastProcessed d.moment d.value d.root) :
    (∀ x ∈ past ++ [d], x.moment ≤ e.clock) ∧
      Decision.AllDue settings tests triggers (past ++ [d]) := by
  have hmoments := h.moment_le
  have hall := h.allDue
  rw [hnil, List.append_nil] at hmoments hall
  refine ⟨List.forall_mem_append.2 ⟨hmoments, List.forall_mem_singleton.2 (Nat.le_of_eq hmoment)⟩,
    hall.concat (hmoment ▸ h.settled) ?_⟩
  rw [h.lastProcessed, ← hmoment] at hd
  exact hd

/-- The pipeline is answered by the last results. -/
theorem pass {d : Decision} (hclock : e'.clock = e.clock) (hmoment : d.moment = e.clock)
    (hd : d = .due settings tests (e.entry control).lastProcessed d.moment d.value d.root)
    (hpassed : d.evaluation? = none)
    (hentry : e'.entry control = (e.entry control).count fun s =>
      { s with passthroughs := s.passthroughs + 1 })
    (hbefore : e.inFlight? control = none) (hafter : e'.inFlight? control = none) :
    e'.Minutes control settings tests triggers (past ++ [d]) []
      (events ++ e.evaluationEvents control race e') := by
  have hnil : pending = [] := by simpa [hbefore] using h.underWay
  obtain ⟨hmoments, hall⟩ := h.allDue_concat hmoment hnil hd
  have hruns := h.asyncRuns
  rw [hnil, List.append_nil] at hruns
  have hlast : Decision.lastApplied? triggers e.clock (past ++ [d]) =
      Decision.lastApplied? triggers e.clock past := by
    simp [Decision.lastApplied?, Decision.applied?, hpassed, Option.filter]
  have hevents : e.evaluationEvents control race e' = [] := by
    rw [evaluationEvents, hbefore, hafter]
    rfl
  refine ⟨?_, ?_, ?_, by rw [hafter]; rfl, ?_, ?_, ?_, ?_, ?_, ?_⟩
  · rw [List.append_nil, hclock]
    exact hmoments
  · rw [List.append_nil]
    exact hall
  · rw [hclock]
    refine List.forall_mem_append.2 ⟨h.settled, List.forall_mem_singleton.2 (.inr fun v hv => ?_)⟩
    rw [hpassed] at hv
    cases hv
  · rw [hclock, hevents, h.events, hbefore, hafter]
    simp [Decision.events, hpassed]
  · rw [hclock, hlast, hentry]
    exact h.lastProcessed
  · rw [hclock, hlast, hentry]
    exact h.lastErrors
  · rw [List.append_nil, List.countP_append, List.countP_singleton, hpassed, ← hruns]
    exact congrArg (·.stats.asyncRuns) hentry
  · rw [List.countP_append, List.countP_singleton, hpassed, ← h.passthroughs]
    exact congrArg (·.stats.passthroughs) hentry
  · rw [List.countP_append, List.countP_singleton, Decision.isOvertaken, hpassed, ← h.superseded]
    exact congrArg (·.stats.superseded) hentry

/-- The pipeline starts an evaluation. -/
theorem evaluate {d : Decision} {v : Evaluation} (hclock : e'.clock = e.clock)
    (hmoment : d.moment = e.clock)
    (hd : d = .due settings tests (e.entry control).lastProcessed d.moment d.value d.root)
    (hv : d.evaluation? = some v)
    (hentry : e'.entry control = (e.entry control).count fun s =>
      { s with asyncRuns := s.asyncRuns + 1 })
    (hbefore : e.inFlight? control = none) (hafter : e'.inFlight? control = some v) :
    e'.Minutes control settings tests triggers past [d]
      (events ++ e.evaluationEvents control race e') := by
  have hnil : pending = [] := by simpa [hbefore] using h.underWay
  obtain ⟨hmoments, hall⟩ := h.allDue_concat hmoment hnil hd
  have hruns := h.asyncRuns
  rw [hnil, List.append_nil] at hruns
  refine ⟨hclock ▸ hmoments, hall, hclock ▸ h.settled, by rw [hafter]; exact congrArg (· :: []) hv,
    ?_, ?_, ?_, ?_, ?_, ?_⟩
  · rw [hclock, evaluationEvents, h.events, hbefore, hafter]
    simp
  · rw [hclock, hentry]
    exact h.lastProcessed
  · rw [hclock, hentry]
    exact h.lastErrors
  · rw [List.countP_append, List.countP_singleton, hv, ← hruns]
    exact congrArg (·.stats.asyncRuns) hentry
  · rw [← h.passthroughs]
    exact congrArg (·.stats.passthroughs) hentry
  · rw [← h.superseded]
    exact congrArg (·.stats.superseded) hentry

/-- Nothing has become of the decision whose evaluation is under way, if no trigger has come since
and its results are not there. -/
theorem open_of_mem_pending (hearly : ∀ v ∈ e.inFlight? control, e.clock < v.finish)
    (hpending : ∀ d ∈ pending, ∀ t ∈ triggers, t ≤ d.moment) {d : Decision} (hd : d ∈ pending) :
    ∃ v, e.inFlight? control = some v ∧ d.evaluation? = some v ∧
      d.isOvertaken triggers = false ∧ d.applied? triggers e.clock = none := by
  obtain ⟨rfl, -⟩ | ⟨d', v, rfl, hinFlight, hv⟩ := h.pending_cases
  · cases hd
  · cases List.mem_singleton.1 hd
    have hnot : d.isOvertaken triggers = false := by
      rw [Decision.isOvertaken, hv, Option.any_some, List.any_eq_false]
      intro t ht
      have hle := hpending d hd t ht
      rw [decide_eq_true_eq]
      omega
    have hlate := Nat.not_le.2 (hearly v hinFlight)
    exact ⟨v, hinFlight, hv, hnot, by simp [Decision.applied?, hv, Option.filter, hlate]⟩

/-- The records are those of all decisions then. -/
theorem reflects (hearly : ∀ v ∈ e.inFlight? control, e.clock < v.finish)
    (hpending : ∀ d ∈ pending, ∀ t ∈ triggers, t ≤ d.moment) :
    e.Reflects control settings tests triggers (past ++ pending) events := by
  have hopen : ∀ d ∈ pending, _ := fun d hd => h.open_of_mem_pending hearly hpending hd
  have hlast : Decision.lastApplied? triggers e.clock (past ++ pending) =
      Decision.lastApplied? triggers e.clock past := by
    have hnever : pending.filterMap (Decision.applied? triggers e.clock) = [] :=
      List.filterMap_eq_nil_iff.2 fun d hd => by
        obtain ⟨v, -, -, -, happlied⟩ := hopen d hd
        exact happlied
    rw [Decision.lastApplied?, List.filterMap_append, hnever, List.append_nil]
    rfl
  have hstarted : pending.flatMap (Decision.events triggers e.clock) =
      (e.inFlight? control).toList.map .started := by
    rcases h.pending_cases with ⟨rfl, hv⟩ | ⟨d, v, rfl, hv, hd⟩
    · rw [hv]
      rfl
    · obtain ⟨u, hu, -, hnot, -⟩ := hopen d List.mem_cons_self
      have hlate := Nat.not_le.2 (hearly v hv)
      simp [hv, Decision.events, hd, hnot, hlate]
  have hnotPassed : pending.countP (fun d => d.evaluation?.isNone) = 0 :=
    List.countP_eq_zero.2 fun d hd => by
      obtain ⟨v, -, hv, -⟩ := hopen d hd
      simp [hv]
  have hnotOvertaken : pending.countP (Decision.isOvertaken triggers) = 0 :=
    List.countP_eq_zero.2 fun d hd => by
      obtain ⟨v, -, -, hnot, -⟩ := hopen d hd
      simp [hnot]
  refine ⟨h.allDue, ?_, h.asyncRuns, ?_, ?_, ?_, ?_⟩
  · rw [h.events, List.flatMap_append, hstarted]
  · rw [h.passthroughs, List.countP_append, hnotPassed, Nat.add_zero]
  · rw [h.superseded, List.countP_append, hnotOvertaken, Nat.add_zero]
  · rw [hlast]
    exact h.lastProcessed
  · rw [hlast]
    exact h.lastErrors

end Minutes

end Engine

end ReactiveForm
