import ReactiveForm.Proofs.Recompute.Evaluations
import ReactiveForm.Proofs.Rule.Skipping
import ReactiveForm.Proofs.Session.Runs

/-!
# Pipelines that are left out

A control whose validity tests have no inquiries gets no inquiry pipeline (`inquiry_eq_none_iff`),
and nothing is missed by that. If there were a pipeline for such tests, all its evaluations would
skip them. So whatever happens, it would never have errors to show, to keep, or to wait for
(`Engine.Unfaulted.events`).

This rests on what an evaluation skips, which is up to the rules alone
(`skipped_iff_no_functions`).
-/

namespace ReactiveForm

namespace Engine

variable {e e' : Engine} {control : ControlId} {race : Race}

/-- Inquiries find no fault with a control: it shows no errors of theirs, none are kept for it, and
an evaluation that is under way will have none. -/
structure Unfaulted (e : Engine) (control : ControlId) : Prop where
  shown : ∀ s, e.form.state? control = some s → s.asyncErrors = none
  kept : (e.entry control).lastErrors = none
  coming : ∀ v, e.inFlight? control = some v → v.results.errors? = none

/-- The inquiry pipeline of a control is for tests without inquiries. -/
def AsksNothing (e : Engine) (control : ControlId) : Prop :=
  ∀ p, e.scheduler.inquiry? control = some p → ∀ t ∈ p.tests, t.hasInquiry = false

theorem AsksNothing.congr (h : e.AsksNothing control)
    (hsame : Scheduler.SameOutline e'.scheduler e.scheduler) : e'.AsksNothing control := by
  intro p hp
  obtain ⟨q, hq, houtline⟩ := Option.map_eq_some_iff.1
    ((hsame.inquiry? control).symm.trans (congrArg (Option.map _) hp))
  rw [← (InquiryPipeline.eq_of_outline houtline).2.1]
  exact h q hq

namespace Unfaulted

variable (h : e.Unfaulted control)

include h

theorem spared (hspares : Spares control e e') (hshows : KeepsShowing e e' control) :
    e'.Unfaulted control where
  shown s' hs' := by
    obtain ⟨s, hs, -, herrors⟩ := hshows s' hs'
    exact herrors.trans (h.shown s hs)
  kept := (congrArg ScheduleEntry.lastErrors hspares.record).trans h.kept
  coming v hv := h.coming v (hspares.inFlight.symm.trans hv)

/-- A step of the pipeline: what it completes has no errors, and neither has what it starts. -/
theorem stepInquiry (sound : e.Sound) (htests : e.AsksNothing control)
    (hstep : e.stepInquiry? control race = some e') : e'.Unfaulted control := by
  obtain ⟨p, hp, rfl, ⟨v, hphase, -, -, rfl⟩ | ⟨-, p', phase, hturns⟩⟩ := own_step_cases sound hstep
  · have hnone : v.results.errors? = none := by
      refine h.coming v.snapshot ?_
      rw [inFlight?_of_inquiry? hp, hphase]
      rfl
    refine ⟨fun s hs => (Shows.applyAsyncValidity e p.control _ hs).2.trans hnone, ?_, ?_⟩
    · rw [entry_complete]
      exact hnone
    · intro u hu
      rw [inFlight?_of_inquiry? (inquiry?_complete hp v)] at hu
      cases hu
  · refine ⟨fun s' hs' => ?_, hturns.lastErrors.trans h.kept, fun u hu => ?_⟩
    · obtain ⟨s, hs, -, hsame | ⟨-, hlast⟩⟩ := hturns.shows s' hs'
      · exact hsame.trans (h.shown s hs)
      · exact hlast.trans h.kept
    · rw [hturns.inFlight?] at hu
      obtain ⟨v, hv, rfl⟩ := Option.map_eq_some_iff.1 hu
      have hresults := congrArg TestResults.errors? (hturns.reads v hv).2.1
      exact hresults.trans (TestResults.errors?_runInquiries (htests p hp))

theorem event (sound : e.Sound) (htests : e.AsksNothing control) (hevent : Event e e') :
    e'.Unfaulted control := by
  cases hevent with
  | @step r _ _ hstep =>
      by_cases hr : r = .inquiry control
      · subst hr
        exact h.stepInquiry sound htests hstep
      · exact h.spared (.step sound hr hstep) (keepsShowing_step sound hr hstep)
  | tick now => exact h.spared (.tick e control now) fun s hs => ⟨s, hs, rfl, rfl⟩
  | set hset => exact h.spared (.of_scheduler rfl) (keepsShowing_set hset)
  | external id change => exact h.spared (.of_scheduler rfl) (keepsShowing_external e id change)
  | force id => exact h.spared (.force_of e control id) (keepsShowing_force e id)

/-- Whatever happens, a pipeline for tests without inquiries finds no fault. -/
theorem events (sound : e.Sound) (htests : e.AsksNothing control) (hrun : Events e e') :
    e'.Unfaulted control := by
  induction hrun with
  | refl => exact h
  | tail hrun hevent ih =>
      exact ih.event (hrun.sound sound) (htests.congr (hrun.sameOutline sound)) hevent

end Unfaulted

end Engine

namespace Scheduler

variable {f : Form} {id : ControlId} {p : Property} {own : OwnPipelines}

/-- The pipeline for inquiries is left out if no validity test has one. -/
theorem inquiry_eq_none_iff (hp : f.property? id = some p) (hown : ownOf? f id = some own) :
    own.inquiry = none ↔ ∀ t ∈ p.validTests, t.hasInquiry = false := by
  obtain ⟨stream, hstream⟩ := exists_changes?_of_contains (contains_of_property? hp)
  rw [ownOf?, hp, Option.map_some] at hown
  cases hown
  simp [inquiryOf?, hstream]

end Scheduler

/-- What is skipped is up to the rules alone: an evaluation by checks skips a rule set if none of
its rules has a check, and one by inquiries if none has an inquiry. Tests ask something if one of
them has an inquiry, and otherwise they are all passed and skipped. So the pipeline of a control is
left out for tests that ask nothing, and in its place such a pipeline would never have found a
fault. -/
theorem skipped_iff_no_functions :
    (∀ (s : RuleSet) (value root : Json),
      ((s.check value root).outcome = .skipped ↔ ∀ r ∈ s.rules, r.check = none) ∧
        ((s.inquire value root).outcome = .skipped ↔ s.hasInquiry = false)) ∧
    (∀ (tests : List Test) (value root : Json),
      ((TestResults.runInquiries value root tests).called ≠ [] ↔
          ∃ t ∈ tests, t.hasInquiry = true) ∧
        ((∀ t ∈ tests, t.hasInquiry = false) →
          ∀ r ∈ (TestResults.runInquiries value root tests).results.results,
            r.passed = true ∧ r.skipped = true)) ∧
    ∀ (f : Form) (id : ControlId) (p : Property) (own : OwnPipelines),
      f.property? id = some p → Scheduler.ownOf? f id = some own →
        (own.inquiry = none ↔ ∀ t ∈ p.validTests, t.hasInquiry = false) ∧
        (own.inquiry = none → ∀ (e e' : Engine) (q : InquiryPipeline), e.Sound →
          e.scheduler.inquiry? id = some q → q.tests = p.validTests → e.Unfaulted id →
            e.Events e' → e'.Unfaulted id) := by
  refine ⟨fun s value root => ⟨s.outcome_check_eq_skipped_iff value root,
      s.outcome_inquire_eq_skipped_iff value root⟩,
    fun tests value root => ⟨?_, TestResults.skipped_runInquiries⟩, fun f id p own hp hown => ?_⟩
  · rw [ne_eq, TestResults.called_runInquiries_eq_nil_iff]
    simp
  · have hnone := Scheduler.inquiry_eq_none_iff hp hown
    refine ⟨hnone, fun homitted e e' q sound hq htests hstart hrun => ?_⟩
    refine hstart.events sound (fun q' hq' => ?_) hrun
    rw [hq, Option.some.injEq] at hq'
    rw [← hq', htests]
    exact hnone.1 homitted

/-- A field that is checked only, with a pipeline in the place of the one that is left out. -/
def inquiredInVain : Engine :=
  { form := .build Session.checkedPair Session.pairData .standard
    scheduler :=
      { dependencies := []
        own := [⟨1, none, some ⟨1, [Session.pairTest (some Session.otherIsOne) none], ⟨50, true⟩, 0,
          1, .waiting⟩⟩]
        table := [] }
    clock := 0
    asked := [] }

theorem sound_inquiredInVain : inquiredInVain.Sound where
  dependency := nofun
  editability {id q} hq := by
    obtain ⟨o, ho, hq⟩ := Option.bind_eq_some_iff.1 hq
    cases List.mem_singleton.1 (List.mem_of_find?_eq_some ho)
    cases hq
  inquiry {id p} hp := by
    obtain ⟨o, ho, hp⟩ := Option.bind_eq_some_iff.1 hp
    have hid : o.control = id := by simpa using List.find?_some ho
    cases List.mem_singleton.1 (List.mem_of_find?_eq_some ho)
    cases hp
    have streams := Form.soundStreams_build Session.checkedPair Session.pairData .standard
    obtain ⟨stream, hstream⟩ := Scheduler.exists_changes?_of_contains
      (by decide +kernel : inquiredInVain.form.contains 1 = true)
    exact ⟨hid, stream, hstream, streams.sound hstream,
      streams.closed (by decide +kernel) hstream, Nat.zero_le _, nofun⟩

/-- The pipeline makes an evaluation, and finds no fault. -/
theorem skipped_inquiredInVain :
    (inquiredInVain.advance 100).asyncRuns 1 = 1 ∧ (inquiredInVain.advance 100).Unfaulted 1 ∧
      ∃ p own, inquiredInVain.form.property? 1 = some p ∧
        Scheduler.ownOf? inquiredInVain.form 1 = some own ∧ own.inquiry = none := by
  have hruns : (inquiredInVain.advance 100).asyncRuns 1 = 1 := by decide +kernel
  obtain ⟨p, hp, own, hown, hinquiry, htests⟩ : ∃ p, inquiredInVain.form.property? 1 = some p ∧
      ∃ own, Scheduler.ownOf? inquiredInVain.form 1 = some own ∧ own.inquiry = none ∧
        [Session.pairTest (some Session.otherIsOne) none] = p.validTests :=
    ⟨_, rfl, _, rfl, rfl, rfl⟩
  have hstart : inquiredInVain.Unfaulted 1 := by
    exact ⟨fun s hs => (Form.inquired_build hs).2, rfl, fun v hv => by cases hv⟩
  exact ⟨hruns,
    (skipped_iff_no_functions.2.2 _ 1 p own hp hown).2 hinquiry inquiredInVain _ _
      sound_inquiredInVain rfl htests hstart (Engine.events_advance _ 100),
    p, own, hp, hown, hinquiry⟩

end ReactiveForm
