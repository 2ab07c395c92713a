import ReactiveForm.Proofs.Recompute.Decisions
import ReactiveForm.Proofs.Recompute.Gathering

/-!
# Deliberation of inquiry pipelines

The triggers of a pipeline are written down as they come, and its decisions as it makes them. While
inquiries are not forced, a pipeline with a debounce decides what is due at the end of each burst of
triggers (`Engine.Deliberates`). This holds when a pipeline is new, and it is kept while the
pipeline is left alone (`Deliberates.leave`), while it waits (`Deliberates.tick`) and in its own
steps (`Deliberates.step`).

## Shape of the proof

The moments of the decisions are those of a pipeline that gathers bursts, and what is recorded are
the minutes of the decisions. The two meet where a burst overtakes an evaluation. A pipeline that
takes a trigger before the results are there gives the evaluation up, and the trigger has come after
the decision to start it. A pipeline that finds the results completes the evaluation, and no trigger
has come before them: those that were taken have led to the decision, and the others come just now.
Only a trigger that comes just when the results are there could outrun them, and where triggers are
looked for first there is none (`Decision.Apart`).

When a pipeline has nothing to do (`Engine.Rests`), its decisions are those on the bursts that are
over (`Deliberates.decidesOnce`). While a control has the value that was evaluated last, it starts
no evaluation (`Engine.Repeats`).
-/

namespace ReactiveForm

namespace Engine

variable {e e' : Engine} {control : ControlId} {p p' : InquiryPipeline} {race : Race}

/-! ## The end of a debounce -/

/-- A pipeline has made the decision that is due and is in a phase now. -/
structure Concludes (e : Engine) (p : InquiryPipeline) (d : Decision) (phase : InquiryPhase)
    (e' : Engine) : Prop where
  decision : e.decision? p.control e' = some d
  moment : d.moment = e.clock
  due : d = .due p.settings p.tests (e.entry p.control).lastProcessed d.moment d.value d.root
  inquiry : e'.scheduler.inquiry? p.control = some { p with phase }
  evaluation : phase.evaluation?.map Evaluation.snapshot = d.evaluation?
  closing : phase.closing = []
  unforced : ∀ v, phase.evaluation? = some v → v.forced = false
  ahead : ∀ v, phase = .evaluating v → e.clock ≤ v.finish
  entry : e'.entry p.control = (e.entry p.control).count fun s =>
    if d.evaluation?.isSome then { s with asyncRuns := s.asyncRuns + 1 }
    else { s with passthroughs := s.passthroughs + 1 }

private theorem concludes_passThrough (hsome : (e.scheduler.inquiry? p.control).isSome = true)
    (hanswered : (p.settings.distinct &&
      (e.entry p.control).lastProcessed.any (· == e.form.value p.control)) = true) :
    ∃ d, e.Concludes p d .waiting (e.passThrough p (e.entry p.control).lastErrors) := by
  have hentry := entry_passThrough e p (e.entry p.control).lastErrors
  have hnext : (e.passThrough p (e.entry p.control).lastErrors).scheduler.inquiry? p.control =
      some { p with phase := .waiting } := inquiry?_enter hsome _
  have hpassed : (e.passThrough p (e.entry p.control).lastErrors).passthroughs p.control =
      e.passthroughs p.control + 1 := congrArg (·.stats.passthroughs) hentry
  have hruns : (e.passThrough p (e.entry p.control).lastErrors).asyncRuns p.control =
      e.asyncRuns p.control := congrArg (·.stats.asyncRuns) hentry
  refine ⟨⟨e.clock, e.form.value p.control, e.form.rootValue, [], none⟩,
    (if_neg (by omega)).trans ?_, rfl, (if_pos hanswered).symm, hnext, rfl, rfl, nofun, nofun,
    hentry⟩
  have hasked : (e.passThrough p (e.entry p.control).lastErrors).asked.drop e.asked.length = [] :=
    List.drop_eq_nil_of_le (Nat.le_refl e.asked.length)
  rw [inFlight?_of_inquiry? hnext, hasked]
  rfl

private theorem concludes_evaluate (hsome : (e.scheduler.inquiry? p.control).isSome = true)
    (hnot : ¬ (p.settings.distinct &&
      (e.entry p.control).lastProcessed.any (· == e.form.value p.control)) = true) :
    ∃ d v, e.Concludes p d (.evaluating v)
      (e.evaluate p false false (e.form.value p.control)) := by
  have hentry := entry_evaluate e p false false (e.form.value p.control)
  obtain ⟨v, hnext, hv, hforced, hfinish⟩ : ∃ v,
      (e.evaluate p false false (e.form.value p.control)).scheduler.inquiry? p.control =
        some { p with phase := .evaluating v } ∧
      v.snapshot = ⟨e.form.value p.control, false,
        (TestResults.runInquiries (e.form.value p.control) e.form.rootValue p.tests).results,
        e.clock +
          (TestResults.runInquiries (e.form.value p.control) e.form.rootValue p.tests).duration,
        []⟩ ∧ v.forced = false ∧ e.clock ≤ v.finish :=
    ⟨_, inquiry?_enter hsome _, rfl, rfl, Nat.le_add_right _ _⟩
  have hruns : (e.evaluate p false false (e.form.value p.control)).asyncRuns p.control =
      e.asyncRuns p.control + 1 := congrArg (·.stats.asyncRuns) hentry
  have hpassed : (e.evaluate p false false (e.form.value p.control)).passthroughs p.control =
      e.passthroughs p.control := congrArg (·.stats.passthroughs) hentry
  have hasked : (e.evaluate p false false (e.form.value p.control)).asked.drop e.asked.length =
      (TestResults.runInquiries (e.form.value p.control) e.form.rootValue p.tests).askedAtOnce :=
    List.drop_left
  refine ⟨⟨e.clock, e.form.value p.control, e.form.rootValue,
    (TestResults.runInquiries (e.form.value p.control) e.form.rootValue p.tests).askedAtOnce,
    some v.snapshot⟩, v, (if_neg (by omega)).trans ?_, rfl, ?_, hnext, rfl, rfl, fun u hu => ?_,
    fun u hu => ?_, hentry⟩
  · rw [inFlight?_of_inquiry? hnext, hasked]
    rfl
  · rw [Decision.due, if_neg hnot, hv]
  · cases hu
    exact hforced
  · cases hu
    exact hfinish

/-- At the end of a debounce a pipeline makes the decision that is due. -/
theorem exists_concludes (hsome : (e.scheduler.inquiry? p.control).isSome = true) :
    ∃ d phase, e.Concludes p d phase (e.decide p false false) := by
  by_cases hanswered : (p.settings.distinct &&
      (e.entry p.control).lastProcessed.any (· == e.form.value p.control)) = true
  · have hdecide : e.decide p false false = e.passThrough p (e.entry p.control).lastErrors :=
      if_pos hanswered
    obtain ⟨d, hd⟩ := concludes_passThrough hsome hanswered
    exact ⟨d, _, hdecide ▸ hd⟩
  · have hdecide : e.decide p false false = e.evaluate p false false (e.form.value p.control) :=
      if_neg hanswered
    obtain ⟨d, v, hd⟩ := concludes_evaluate hsome hanswered
    exact ⟨d, _, hdecide ▸ hd⟩

/-! ## Pipelines that decide once per burst -/

/-- A pipeline whose inquiries are not forced has decided for each burst of its triggers, except for
the burst that it is gathering. -/
structure Deliberates (e : Engine) (p : InquiryPipeline) (triggers : List Nat)
    (log : List Decision) (events : List EvaluationEvent) : Prop where
  inquiry : e.scheduler.inquiry? p.control = some p
  force : (e.entry p.control).force = false
  unforced : ∀ v, p.phase.evaluation? = some v → v.forced = false
  minutes : ∃ handled fresh past pending, triggers = handled ++ fresh ∧ log = past ++ pending ∧
    e.Gathers p handled fresh (log.map Decision.moment) ∧
    e.Minutes p.control p.settings p.tests triggers past pending events ∧
    ∀ d ∈ pending, ∀ t ∈ handled, t ≤ d.moment

theorem triggered_congr (hdoc : Form.SameDocument e'.form e.form) :
    p.Triggered e'.form ↔ p.Triggered e.form :=
  or_congr .rfl ⟨fun h => h.congr (hdoc.changes _).symm, fun h => h.congr (hdoc.changes _)⟩

/-- A pipeline is left as it is at a moment, and a trigger may come. -/
structure Leaves (e : Engine) (p : InquiryPipeline) (more : List Nat) (e' : Engine) : Prop where
  clock : e'.clock = e.clock
  inquiry : e'.scheduler.inquiry? p.control = e.scheduler.inquiry? p.control
  force : (e.entry p.control).force = false → (e'.entry p.control).force = false
  record : (e'.entry p.control).record = (e.entry p.control).record
  triggers : more = [] ∧ (p.Triggered e'.form ↔ p.Triggered e.form) ∨
    more = [e.clock] ∧ p.Triggered e'.form

section Overtaking

variable {handled fresh : List Nat} {past pending : List Decision} {events : List EvaluationEvent}
  (g : e.Gathers p handled fresh ((past ++ pending).map Decision.moment))
  (hminutes : e.Minutes p.control p.settings p.tests (handled ++ fresh) past pending events)
  (hinquiry : e.scheduler.inquiry? p.control = some p) (htriggered : p.Triggered e.form)

include g hminutes hinquiry htriggered

/-- A trigger that is taken comes before the results of an evaluation under way: one that outruns
them would come just when they are there. -/
private theorem Gathers.clock_lt_finish
    (hapart : ∀ u, p.phase = .evaluating u → u.finish ≤ e.clock →
      Decision.Apart (handled ++ fresh) (past ++ pending)) :
    ∀ v ∈ e.inFlight? p.control, e.clock < v.finish := by
  intro v hv
  obtain ⟨u, hphase, rfl⟩ := exists_evaluating hinquiry hv
  refine Nat.lt_of_not_le fun hdue => ?_
  have hend : e.clock = u.finish := Nat.le_antisymm
    (g.ahead u.finish (by rw [InquiryPipeline.deadline?, hphase]; rfl)) hdue
  rcases hminutes.pending_cases with ⟨-, hnone⟩ | ⟨d, w, rfl, hw, hd⟩
  · rw [hnone] at hv
    cases hv
  · obtain rfl : w = u.snapshot := Option.some.inj (hw.symm.trans hv)
    have hmem : e.clock ∈ handled ++ fresh :=
      List.mem_append_right _ (g.clock_mem_fresh htriggered hphase)
    exact hapart u hphase hdue d (by simp) _ hd (hend ▸ hmem)

/-- A trigger that is taken overtakes the evaluation under way. -/
private theorem Gathers.isOvertaken_of_mem (hspaced : p.settings.Spaced (handled ++ fresh))
    (hearly : ∀ v ∈ e.inFlight? p.control, e.clock < v.finish) :
    ∀ d ∈ pending, d.isOvertaken (handled ++ fresh) = true := by
  rcases hminutes.pending_cases with ⟨rfl, -⟩ | ⟨d, v, rfl, hv, hd⟩
  · exact List.forall_mem_nil _
  · obtain ⟨u, hphase, -⟩ := exists_evaluating hinquiry hv
    have hnow := g.clock_mem_fresh htriggered hphase
    have hbegan := g.moment_lt hspaced (List.ne_nil_of_mem hnow) (by rw [hphase]; rfl) d.moment
      (by simp)
    refine List.forall_mem_singleton.2 ?_
    rw [Decision.isOvertaken, hd, Option.any_some, List.any_eq_true]
    exact ⟨e.clock, List.mem_append_right _ hnow, decide_eq_true ⟨hbegan, hearly v hv⟩⟩

end Overtaking

namespace Deliberates

variable {triggers : List Nat} {log : List Decision} {events : List EvaluationEvent}
  (h : e.Deliberates p triggers log events)

include h

/-- A trigger is taken. If an evaluation is under way it is overtaken. -/
private theorem gather (hpos : p.settings.debounce ≠ 0) (hspaced : p.settings.Spaced triggers)
    (hapart : race.triggerFirst = true → Decision.Apart triggers log) (hclock : e'.clock = e.clock)
    (htriggered : p.Triggered e.form)
    (hlate : ∀ v, p.phase = .evaluating v → v.finish ≤ e.clock → race.triggerFirst = true)
    (houtline : p'.outline = p.outline)
    (hinquiry : e'.scheduler.inquiry? p.control =
      some { p' with phase := .gathering (e.clock + p.settings.debounce) })
    (hentry : e'.entry p.control = (e.entry p.control).count fun s =>
      { s with superseded := s.superseded + p.phase.evaluation?.toList.length }) :
    e'.Deliberates { p' with phase := .gathering (e.clock + p.settings.debounce) } triggers log
      (events ++ e.evaluationEvents p.control race e') := by
  obtain ⟨handled, fresh, past, pending, rfl, rfl, g, hminutes, -⟩ := h.minutes
  obtain ⟨hcontrol, htests, hsettings⟩ := InquiryPipeline.eq_of_outline houtline
  have hbefore := inFlight?_of_inquiry? h.inquiry
  have hearly : ∀ v ∈ e.inFlight? p.control, e.clock < v.finish :=
    g.clock_lt_finish hminutes h.inquiry htriggered fun u hphase hdue =>
      hapart (hlate u hphase hdue)
  have hnone : e'.inFlight? p.control = none := inFlight?_of_inquiry? hinquiry
  refine ⟨hcontrol ▸ hinquiry, ?_, ?_, handled ++ fresh, [], past ++ pending, [],
    (List.append_nil _).symm, (List.append_nil _).symm,
    g.gather hpos hspaced htriggered hclock hsettings rfl, ?_, List.forall_mem_nil _⟩
  · rw [hcontrol, hentry]
    exact h.force
  · intro v hv
    cases hv
  · rw [hcontrol, hsettings, htests]
    refine hminutes.giveUp hclock (hentry.trans ?_) hnone hearly
      (g.isOvertaken_of_mem hminutes h.inquiry htriggered hspaced hearly)
    rw [hbefore, Option.length_toList, Option.length_toList, Option.isSome_map]

/-- The pipeline decides at the end of a burst. -/
private theorem decide {deadline : Nat} {d : Decision} {phase : InquiryPhase}
    (hphase : p.phase = .gathering deadline) (hdue : deadline ≤ e.clock)
    (hnone : ¬ p.Triggered e.form) (hclock : e'.clock = e.clock)
    (hdoc : Form.SameDocument e'.form e.form) (hd : e.Concludes p d phase e') :
    e'.Deliberates { p with phase } triggers (log ++ [d])
      (events ++ e.evaluationEvents p.control race e') := by
  obtain ⟨handled, fresh, past, pending, rfl, rfl, g, hminutes, -⟩ := h.minutes
  have hfresh := g.taken hnone
  subst hfresh
  have hbefore : e.inFlight? p.control = none := by
    rw [inFlight?_of_inquiry? h.inquiry, hphase]
    rfl
  have hafter : e'.inFlight? p.control = d.evaluation? :=
    (inFlight?_of_inquiry? hd.inquiry).trans hd.evaluation
  have hnil : pending = [] := by simpa [hbefore] using hminutes.underWay
  subst hnil
  simp only [List.append_nil] at g hminutes ⊢
  have hmoments : (past ++ [d]).map Decision.moment = past.map Decision.moment ++ [e.clock] := by
    rw [List.map_append, List.map_singleton, hd.moment]
  have hgathers : e'.Gathers { p with phase } handled [] ((past ++ [d]).map Decision.moment) :=
    hmoments ▸ g.decide hphase hdue hnone hclock (triggered_congr hdoc) hd.closing hd.ahead
  have hentry := hd.entry
  refine ⟨hd.inquiry, ?_, hd.unforced, ?_⟩
  · rw [hentry]
    exact h.force
  · cases hv : d.evaluation? with
    | none =>
        rw [hv] at hentry hafter
        refine ⟨handled, [], past ++ [d], [], (List.append_nil _).symm, (List.append_nil _).symm,
          hgathers, ?_, nofun⟩
        exact hminutes.pass hclock hd.moment hd.due hv hentry hbefore hafter
    | some v =>
        rw [hv] at hentry hafter
        refine ⟨handled, [], past, [d], (List.append_nil _).symm, rfl, hgathers, ?_, ?_⟩
        · exact hminutes.evaluate hclock hd.moment hd.due hv hentry hbefore hafter
        · rw [List.forall_mem_singleton, hd.moment]
          exact g.handled_le

/-- An evaluation is completed. No trigger has come before its results are there. -/
private theorem complete {v : Evaluation} (hphase : p.phase = .evaluating v)
    (hdue : v.finish ≤ e.clock) (hfirst : e.outruns p.control race = false)
    (hdoc : Form.SameDocument (e.complete p v).form e.form) :
    (e.complete p v).Deliberates { p with phase := .waiting } triggers log
      (events ++ e.evaluationEvents p.control race (e.complete p v)) := by
  obtain ⟨handled, fresh, past, pending, rfl, rfl, g, hminutes, hpending⟩ := h.minutes
  have hnext := inquiry?_complete h.inquiry v
  have hentry := entry_complete e p v
  have hflight : e.inFlight? p.control = some v.snapshot := by
    rw [inFlight?_of_inquiry? h.inquiry, hphase]
    rfl
  have hovertaken : ∀ d ∈ pending, d.isOvertaken (handled ++ fresh) = false := by
    intro d hd
    obtain ⟨u, hu, heq⟩ : ∃ u, d.evaluation? = some u ∧ u = v.snapshot := by
      have hmem := List.mem_map_of_mem (f := Decision.evaluation?) hd
      rw [hminutes.underWay, hflight] at hmem
      exact ⟨_, List.mem_singleton.1 hmem, rfl⟩
    subst heq
    rw [Decision.isOvertaken, hu, Option.any_some, List.any_eq_false]
    intro t ht
    rw [decide_eq_true_eq]
    rintro ⟨hafter, hbefore⟩
    rcases List.mem_append.1 ht with ht | ht
    · exact absurd (hpending d hd t ht) (Nat.not_le.2 hafter)
    · rw [g.fresh_now t ht] at hbefore
      exact absurd hdue (Nat.not_le.2 hbefore)
  refine ⟨hnext, ?_, ?_, handled, fresh, past ++ pending, [], rfl, (List.append_nil _).symm,
    g.complete hphase rfl (triggered_congr hdoc), ?_, List.forall_mem_nil _⟩
  · exact (congrArg ScheduleEntry.force hentry).trans h.force
  · intro u hu
    cases hu
  · exact hminutes.complete rfl hflight hdue hfirst hentry (inFlight?_of_inquiry? hnext) hovertaken

/-- A step of the pipeline. -/
theorem step (hsound : e.Sound) (hpos : p.settings.debounce ≠ 0)
    (hspaced : p.settings.Spaced triggers)
    (hapart : race.triggerFirst = true → Decision.Apart triggers log)
    (hstep : e.stepInquiry? p.control race = some e') :
    ∃ p', p'.outline = p.outline ∧
      e'.Deliberates p' triggers (log ++ (e.decision? p.control e').toList)
        (events ++ e.evaluationEvents p.control race e') := by
  have hclock : e'.clock = e.clock := clock_step hsound (r := .inquiry p.control) hstep
  have hdoc := sameDocument_step hsound (r := .inquiry p.control) hstep
  cases proceeds_of_stepInquiry? hsound h.inquiry hpos h.force h.unforced hstep with
  | @gather p' _ htriggered hearly houtline hinquiry hentry =>
      refine ⟨{ p' with phase := .gathering (e.clock + p.settings.debounce) }, houtline, ?_⟩
      rw [decision?_eq_none, Option.toList_none, List.append_nil]
      · exact h.gather hpos hspaced hapart hclock htriggered hearly houtline hinquiry hentry
      · exact congrArg (·.stats.asyncRuns) hentry
      · exact congrArg (·.stats.passthroughs) hentry
  | decide hphase hdue hnone =>
      obtain ⟨d, phase, hd⟩ := exists_concludes (e := e) (p := p) (by rw [h.inquiry]; rfl)
      exact ⟨{ p with phase }, rfl, hd.decision ▸ h.decide hphase hdue hnone hclock hdoc hd⟩
  | @complete v hphase hdue hfirst =>
      have hentry := entry_complete e p v
      refine ⟨{ p with phase := .waiting }, rfl, ?_⟩
      rw [decision?_eq_none, Option.toList_none, List.append_nil]
      · exact h.complete hphase hdue hfirst hdoc
      · exact congrArg (·.stats.asyncRuns) hentry
      · exact congrArg (·.stats.passthroughs) hentry

/-- The pipeline is left as it is, but a trigger may come. -/
theorem leave {more : List Nat} (hleaves : e.Leaves p more e') :
    e'.Deliberates p (triggers ++ more) log events := by
  obtain ⟨handled, fresh, past, pending, rfl, rfl, g, hminutes, hpending⟩ := h.minutes
  have hinFlight : e'.inFlight? p.control = e.inFlight? p.control := by
    rw [inFlight?, hleaves.inquiry, inFlight?]
  have hlate : ∀ t ∈ more, e.clock ≤ t := by
    rcases hleaves.triggers with ⟨rfl, -⟩ | ⟨rfl, -⟩
    · exact List.forall_mem_nil _
    · exact List.forall_mem_singleton.2 (Nat.le_refl _)
  refine ⟨hleaves.inquiry.trans h.inquiry, hleaves.force h.force, h.unforced, handled,
    fresh ++ more, past, pending, List.append_assoc _ _ _, rfl, ?_, ?_, hpending⟩
  · rcases hleaves.triggers with ⟨rfl, hsame⟩ | ⟨rfl, htriggered⟩
    · rw [List.append_nil]
      exact g.carry hleaves.clock hsame
    · exact g.send hleaves.clock htriggered
  · exact hminutes.carry hleaves.record hinFlight (Nat.le_of_eq hleaves.clock.symm) hlate

/-- Time passes while the pipeline has to wait. -/
theorem tick {now : Nat} (hnone : ¬ p.Triggered e.form) (hle : e.clock ≤ now)
    (hahead : ∀ t ∈ p.deadline?, now ≤ t) :
    (e.tick now).Deliberates { p with phase := p.phase.tick now } triggers log events := by
  obtain ⟨handled, fresh, past, pending, rfl, rfl, g, hminutes, hpending⟩ := h.minutes
  have hnil := g.taken hnone
  subst hnil
  refine ⟨?_, h.force, ?_, handled, [], past, pending, rfl, rfl, g.tick hnone hle hahead, ?_,
    hpending⟩
  · rw [inquiry?_tick, h.inquiry, Option.map_some, InquiryPipeline.tick_eq]
  · intro v hv
    cases hphase : p.phase with
    | evaluating u =>
        rw [hphase] at hv
        cases hv
        exact h.unforced u (by rw [hphase]; rfl)
    | _ => simp [hphase, InquiryPhase.tick, InquiryPhase.evaluation?] at hv
  · rw [← List.append_nil handled]
    exact hminutes.carry rfl (Spares.tick e p.control now).inFlight hle (List.forall_mem_nil _)

end Deliberates

/-- A pipeline that is new and holds a request. -/
theorem Deliberates.first (hinquiry : e.scheduler.inquiry? p.control = some p)
    (hphase : p.phase = .waiting) (hpos : 0 < p.requests)
    (hforce : (e.entry p.control).force = false)
    (hrecord : (e.entry p.control).record = .initial) : e.Deliberates p [e.clock] [] [] := by
  have hunforced : ∀ v, p.phase.evaluation? = some v → v.forced = false := by
    rw [hphase]
    exact nofun
  have hnone : e.inFlight? p.control = none := by
    rw [inFlight?_of_inquiry? hinquiry, hphase]
    rfl
  exact ⟨hinquiry, hforce, hunforced, [], [e.clock], [], [], rfl, rfl, .first hphase (.inl hpos),
    .nil hrecord hnone _ _ _, nofun⟩

/-! ## What is known in the end -/

/-- The inquiry pipeline of a control has nothing to do before a moment. -/
def Rests (e : Engine) (control : ControlId) (now : Nat) : Prop :=
  ∀ p, e.scheduler.inquiry? control = some p →
    ¬ p.Triggered e.form ∧ ∀ t ∈ p.deadline?, now ≤ t

theorem not_triggered_of_stepInquiry? (h : e.Sound)
    (hp : e.scheduler.inquiry? p.control = some p) (hstep : e.stepInquiry? p.control race = none) :
    ¬ p.Triggered e.form := by
  obtain ⟨-, stream, hs, hsound, -, -, hended⟩ := h.inquiry hp
  rw [stepInquiry?_eq_none hp hs, InquiryPipeline.trigger_eq_pending] at hstep
  obtain ⟨⟨hzero, hnext, -⟩, -⟩ := hstep.resolve_left hended
  exact not_triggered hsound hs hzero hnext

/-- Where no pipeline can make a step, none has anything to do before the next deadline. -/
theorem rests_of_next? (h : e.Sound) (hnext : e.next? none = none) {now : Nat}
    (hlater : ∀ t ∈ e.deadlines, now ≤ t) : e.Rests control now := by
  intro p hp
  obtain ⟨rfl, -⟩ := h.inquiry hp
  refine ⟨not_triggered_of_stepInquiry? h hp (stepInquiry?_of_next? hnext hp .usual),
    fun t ht => ?_⟩
  obtain ⟨o, ho, hinquiry⟩ := Option.bind_eq_some_iff.1 hp
  refine hlater t (List.mem_append_right _ (List.mem_flatMap.2
    ⟨o, Scheduler.mem_own_of_own? ho, List.mem_append_right _ (Option.mem_toList.2 ?_)⟩))
  rw [hinquiry]
  exact ht

theorem Rests.tick {now : Nat} (h : e.Rests control now) (moment : Nat) :
    (e.tick moment).Rests control now := by
  intro p hp
  rw [inquiry?_tick] at hp
  obtain ⟨q, hq, rfl⟩ := Option.map_eq_some_iff.1 hp
  obtain ⟨hnone, hlater⟩ := h q hq
  rw [InquiryPipeline.tick_eq]
  refine ⟨hnone, fun t ht => hlater t ?_⟩
  unfold InquiryPipeline.deadline? at ht ⊢
  cases hphase : q.phase <;> rw [hphase] at ht <;> exact ht

/-- A pipeline has decided once for each burst of its triggers that is over, each time as was due,
and the records are those of its decisions. -/
structure DecidesOnce (e : Engine) (control : ControlId) (settings : ChangeSettings)
    (tests : List Test) (triggers : List Nat) (log : List Decision)
    (events : List EvaluationEvent) : Prop where
  moments : log.map Decision.moment = (settings.closings triggers).filter (· ≤ e.clock)
  reflects : e.Reflects control settings tests triggers log events
  /-- One burst is not over at most. -/
  open_le : (settings.closings triggers).length ≤ log.length + 1
  /-- When the last burst is over, there are as many decisions as bursts. -/
  total : (∀ t ∈ triggers.getLast?, t + settings.debounce ≤ e.clock) →
    e.asyncRuns control + e.passthroughs control =
      (bursts settings.debounce id triggers).length

/-- A pipeline that has nothing to do now has decided once for each burst that is over. -/
theorem Deliberates.decidesOnce {triggers : List Nat} {log : List Decision}
    {events : List EvaluationEvent} (h : e.Deliberates p triggers log events)
    (hrests : e.Rests p.control (e.clock + 1)) :
    e.DecidesOnce p.control p.settings p.tests triggers log events := by
  obtain ⟨handled, fresh, past, pending, rfl, rfl, g, hminutes, hpending⟩ := h.minutes
  obtain ⟨hnone, hwaits⟩ := hrests p h.inquiry
  obtain ⟨rfl, hmoments⟩ := g.moments_eq hnone hwaits
  rw [List.append_nil] at hminutes ⊢
  have hearly : ∀ v ∈ e.inFlight? p.control, e.clock < v.finish := by
    intro v hv
    obtain ⟨u, hphase, rfl⟩ := exists_evaluating h.inquiry hv
    refine hwaits _ ?_
    rw [InquiryPipeline.deadline?, hphase]
    rfl
  have hreflects := hminutes.reflects hearly hpending
  have hclosings := g.closings
  have hlength := congrArg List.length hclosings
  rw [List.length_append, List.length_map] at hlength
  have hopen : p.phase.closing.length ≤ 1 := by
    cases p.phase <;> simp [InquiryPhase.closing]
  refine ⟨hmoments, hreflects, by omega, fun hover => ?_⟩
  -- the pipeline is not gathering, because the end of the last burst is in the past
  have hclosing : p.phase.closing = [] := by
    cases hphase : p.phase with
    | gathering deadline =>
        have hlast := g.closings ▸ p.settings.getLast?_closings handled
        rw [hphase, InquiryPhase.closing, List.getLast?_concat] at hlast
        obtain ⟨t, ht, hdeadline⟩ := Option.map_eq_some_iff.1 hlast.symm
        have hlate := hwaits deadline (by rw [InquiryPipeline.deadline?, hphase]; rfl)
        have hdue := hover t ht
        omega
    | _ => rfl
  rw [hclosing, List.append_nil] at hclosings
  rw [hreflects.length_eq, ← List.length_map (f := Decision.moment), hclosings,
    ChangeSettings.closings, List.length_map, length_burstEnds]

namespace DecidesOnce

variable {settings : ChangeSettings} {tests : List Test} {triggers more : List Nat}
  {log further : List Decision} {events events' : List EvaluationEvent} {later : Nat}
  (h : e.DecidesOnce control settings tests triggers log events)
  (h' : e'.DecidesOnce control settings tests (triggers ++ e.clock :: more) (log ++ further)
    events')
  (hpos : settings.debounce ≠ 0) (hmore : ∀ t ∈ more, t = later)
  (hearly : later < e.clock + settings.debounce)

include h h' hpos hmore hearly

/-- Further triggers of one burst lead to one further decision at most. -/
theorem length_le_one : further.length ≤ 1 := by
  have hdecided : (log ++ further).length ≤
      (settings.closings (triggers ++ e.clock :: more)).length := by
    rw [← List.length_map (f := Decision.moment), h'.moments]
    exact List.length_filter_le _ _
  rw [List.length_append] at hdecided
  have hlengthen := fun {closed} hclosed => @ChangeSettings.length_closings_append_cons settings
    e.clock triggers more closed later hpos hclosed hmore hearly
  have hnow : ∀ t ∈ [e.clock], t = e.clock := List.forall_mem_singleton.2 rfl
  by_cases hover : ∀ t ∈ triggers.getLast?, t + settings.debounce ≤ e.clock
  · -- all bursts are over, and a further one begins
    have hlength := hlengthen (ChangeSettings.closings_append_of_le hnow (by simp) hpos hover)
    have hcount : (settings.closings triggers).length = log.length := by
      rw [← h.reflects.length_eq, h.total hover, ChangeSettings.closings, List.length_map,
        length_burstEnds]
    omega
  · -- the last burst goes on
    have hlast : ∀ t ∈ triggers.getLast?, e.clock < t + settings.debounce := by
      intro t ht
      refine Nat.lt_of_not_le fun hle => hover fun u hu => ?_
      rw [Option.mem_def.1 ht] at hu
      cases hu
      exact hle
    have hlength := hlengthen (ChangeSettings.closings_append_of_lt hnow (by simp) hpos hlast)
    have hopen := h.open_le
    rw [List.length_dropLast] at hlength
    omega

/-- Further triggers of one burst lead to one further evaluation at most. -/
theorem asyncRuns_le : e'.asyncRuns control ≤ e.asyncRuns control + 1 := by
  have hone := h.length_le_one h' hpos hmore hearly
  have hstarts := List.countP_le_length (p := fun d : Decision => d.evaluation?.isSome)
    (l := further)
  rw [h.reflects.asyncRuns, h'.reflects.asyncRuns, List.countP_append]
  omega

end DecidesOnce

/-! ## A value that was evaluated last -/

/-- A control has the value that was completely evaluated last. If another evaluation is under way,
then a trigger has come that overtakes it. -/
structure Repeats (e : Engine) (p : InquiryPipeline) (X : Json) (n : Nat) : Prop where
  inquiry : e.scheduler.inquiry? p.control = some p
  force : (e.entry p.control).force = false
  value : e.form.value p.control = X
  last : (e.entry p.control).lastProcessed.any (· == X) = true
  runs : e.asyncRuns p.control = n
  overtaken : ∀ v, p.phase = .evaluating v →
    v.forced = false ∧ e.clock < v.finish ∧ p.Triggered e.form

namespace Repeats

variable {X : Json} {n : Nat} (h : e.Repeats p X n)

include h

/-- No step of the pipeline starts an evaluation. -/
theorem step (hsound : e.Sound) (hdistinct : p.settings.distinct = true)
    (hpos : p.settings.debounce ≠ 0) (hstep : e.stepInquiry? p.control race = some e') :
    ∃ p', p'.outline = p.outline ∧ e'.Repeats p' X n := by
  have hdoc := sameDocument_step hsound (r := .inquiry p.control) hstep
  have hunforced : ∀ v, p.phase.evaluation? = some v → v.forced = false := fun v hv =>
    (h.overtaken v (InquiryPhase.eq_of_evaluation? hv)).1
  cases proceeds_of_stepInquiry? hsound h.inquiry hpos h.force hunforced hstep with
  | @gather p' _ htriggered hearly houtline hinquiry hentry =>
      have hcontrol := (InquiryPipeline.eq_of_outline houtline).1
      refine ⟨{ p' with phase := .gathering (e.clock + p.settings.debounce) }, houtline, ?_⟩
      refine ⟨hcontrol ▸ hinquiry, ?_, ?_, ?_, ?_, nofun⟩
      · rw [hcontrol, hentry]
        exact h.force
      · rw [hcontrol, hdoc.value]
        exact h.value
      · rw [hcontrol, hentry]
        exact h.last
      · rw [hcontrol, ← h.runs]
        exact congrArg (·.stats.asyncRuns) hentry
  | decide =>
      have hanswered : (!false && p.settings.distinct &&
          (e.entry p.control).lastProcessed.any (· == e.form.value p.control)) = true := by
        rw [hdistinct, h.value, h.last]
        rfl
      have hdecide : e.decide p false false = e.passThrough p (e.entry p.control).lastErrors :=
        if_pos hanswered
      have hentry := entry_passThrough e p (e.entry p.control).lastErrors
      have hsome : (e.scheduler.inquiry? p.control).isSome = true := by
        rw [h.inquiry]
        rfl
      rw [hdecide] at hdoc ⊢
      refine ⟨{ p with phase := .waiting }, rfl, inquiry?_enter hsome _, ?_, ?_, ?_, ?_, nofun⟩
      · exact (congrArg ScheduleEntry.force hentry).trans h.force
      · exact (hdoc.value p.control).trans h.value
      · exact (congrArg (·.lastProcessed.any (· == X)) hentry).trans h.last
      · exact (congrArg (·.stats.asyncRuns) hentry).trans h.runs
  | complete hphase hdue _ => exact absurd hdue (Nat.not_le.2 (h.overtaken _ hphase).2.1)

/-- The pipeline is left as it is, and the control has the same value still. -/
theorem leave {more : List Nat} (hleaves : e.Leaves p more e')
    (hvalue : e'.form.value p.control = X) : e'.Repeats p X n where
  inquiry := hleaves.inquiry.trans h.inquiry
  force := hleaves.force h.force
  value := hvalue
  last := (congrArg (·.lastProcessed.any (· == X)) hleaves.record).trans h.last
  runs := (congrArg (·.stats.asyncRuns) hleaves.record).trans h.runs
  overtaken v hv := by
    obtain ⟨hunforced, hearly, htriggered⟩ := h.overtaken v hv
    exact ⟨hunforced, hleaves.clock ▸ hearly,
      hleaves.triggers.elim (fun hnone => hnone.2.2 htriggered) And.right⟩

/-- Time passes while the pipeline has to wait. -/
theorem tick (hnone : ¬ p.Triggered e.form) (now : Nat) :
    (e.tick now).Repeats { p with phase := p.phase.tick now } X n where
  inquiry := by rw [inquiry?_tick, h.inquiry, Option.map_some, InquiryPipeline.tick_eq]
  force := h.force
  value := h.value
  last := h.last
  runs := h.runs
  overtaken v hv := by
    cases hphase : p.phase with
    | evaluating u => exact absurd (h.overtaken u hphase).2.2 hnone
    | _ => simp [hphase, InquiryPhase.tick] at hv

end Repeats

end Engine

end ReactiveForm
