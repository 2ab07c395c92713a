import ReactiveForm.Proofs.Recompute.Evaluations
import ReactiveForm.Proofs.Recompute.Gaps

/-!
# Gathering bursts of triggers

An inquiry pipeline with a debounce whose inquiries are not forced makes steps of three kinds: it
takes a trigger and waits for further ones, it decides at the end of a debounce, or it completes an
evaluation (`Engine.Proceeds`). So it decides when the debounce is over after a burst of triggers
(`ChangeSettings.closings`).

Of the triggers that have come some have been taken, and the others have come just now. Of the
bursts of those that were taken there is a moment of decision for each, except for the burst that
the pipeline is gathering (`Engine.Gathers`). Further triggers, the time that passes and the steps
of the pipeline keep this up, as long as no trigger comes just when the debounce after the one
before it is over (`ChangeSettings.Spaced`).
-/

namespace ReactiveForm

/-! ## Bursts of triggers -/

namespace ChangeSettings

variable {settings : ChangeSettings} {handled fresh : List Nat} {now : Nat}

/-- The moments at which the debounce is over after the bursts of some triggers. -/
def closings (settings : ChangeSettings) (triggers : List Nat) : List Nat :=
  (burstEnds settings.debounce id triggers).map (· + settings.debounce)

/-- No two triggers come one after the other with just the debounce between them. -/
def Spaced (settings : ChangeSettings) (triggers : List Nat) : Prop :=
  triggers.IsChain fun a b => b ≠ a + settings.debounce

instance (settings : ChangeSettings) (triggers : List Nat) : Decidable (settings.Spaced triggers) :=
  inferInstanceAs (Decidable (List.IsChain _ triggers))

theorem getLast?_closings (settings : ChangeSettings) (triggers : List Nat) :
    (settings.closings triggers).getLast? = triggers.getLast?.map (· + settings.debounce) := by
  rw [closings, List.getLast?_map, getLast?_burstEnds]

section now

variable (hnow : ∀ t ∈ fresh, t = now) (hne : fresh ≠ [])

include hnow hne

/-- The debounce after the last of the others does not end at the moment of further ones. -/
theorem Spaced.ne_of_mem_getLast? (h : settings.Spaced (handled ++ fresh)) :
    ∀ t ∈ handled.getLast?, now ≠ t + settings.debounce := by
  intro t ht
  obtain ⟨first, rest, rfl⟩ := List.exists_cons_of_ne_nil hne
  rw [← hnow first List.mem_cons_self]
  exact (List.isChain_append.1 h).2.2 t ht first rfl

variable (hpos : settings.debounce ≠ 0)

include hpos

/-- Triggers that come when the debounce of the others is over are a burst of their own. -/
theorem closings_append_of_le (hlate : ∀ t ∈ handled.getLast?, t + settings.debounce ≤ now) :
    settings.closings (handled ++ fresh) =
      settings.closings handled ++ [now + settings.debounce] := by
  rw [closings, @burstEnds_append_of_le_now Nat _ id _ _ _ hpos hnow hne hlate, List.map_append,
    List.map_singleton, hnow _ (List.getLast_mem hne)]
  rfl

/-- Triggers that come before that put off the end of the last burst. -/
theorem closings_append_of_lt (hearly : ∀ t ∈ handled.getLast?, now < t + settings.debounce) :
    settings.closings (handled ++ fresh) =
      (settings.closings handled).dropLast ++ [now + settings.debounce] := by
  rw [closings, @burstEnds_append_of_now_lt Nat _ id _ _ _ hpos hnow hne hearly, List.map_append,
    List.map_singleton, hnow _ (List.getLast_mem hne), List.map_dropLast]
  rfl

end now

/-- Where the last burst goes on, there are as many bursts as before. -/
theorem length_closings_append_cons {before more closed : List Nat} {later : Nat}
    (hpos : settings.debounce ≠ 0)
    (hclosed : settings.closings (before ++ [now]) = closed ++ [now + settings.debounce])
    (hmore : ∀ t ∈ more, t = later) (hearly : later < now + settings.debounce) :
    (settings.closings (before ++ now :: more)).length = closed.length + 1 := by
  have hcons : before ++ now :: more = (before ++ [now]) ++ more := by simp
  rw [hcons]
  rcases eq_or_ne more [] with rfl | hne
  · rw [List.append_nil, hclosed, List.length_append, List.length_singleton]
  · rw [closings_append_of_lt hmore hne hpos fun t ht => ?_, hclosed, List.dropLast_concat,
      List.length_append, List.length_singleton]
    rw [List.getLast?_concat] at ht
    cases ht
    exact hearly

end ChangeSettings

/-! ## Steps of a pipeline with a debounce -/

/-- The end of the burst that a pipeline is gathering. -/
def InquiryPhase.closing : InquiryPhase → List Nat
  | .gathering deadline => [deadline]
  | _ => []

/-- There is a trigger that the pipeline has not taken. -/
def InquiryPipeline.Triggered (f : Form) (p : InquiryPipeline) : Prop := 0 < p.requests ∨ p.Unread f

namespace Engine

variable {e e' : Engine} {control : ControlId} {p p' : InquiryPipeline} {stream : Stream Json}
  {race : Race} {outrun : Bool}

/-- A step of a pipeline with a debounce whose inquiries are not forced. -/
inductive Proceeds (e : Engine) (p : InquiryPipeline) (race : Race) : Engine → Prop where
  /-- A trigger is taken, and the pipeline waits for further ones. An evaluation that was under way
  is given up, with its results if the trigger is looked for first. -/
  | gather {p' : InquiryPipeline} {e' : Engine} (htriggered : p.Triggered e.form)
      (hearly : ∀ v, p.phase = .evaluating v → v.finish ≤ e.clock → race.triggerFirst = true)
      (houtline : p'.outline = p.outline)
      (hinquiry : e'.scheduler.inquiry? p.control =
        some { p' with phase := .gathering (e.clock + p.settings.debounce) })
      (hentry : e'.entry p.control = (e.entry p.control).count fun s =>
        { s with superseded := s.superseded + p.phase.evaluation?.toList.length }) :
      Proceeds e p race e'
  /-- The debounce is over. -/
  | decide {deadline : Nat} (hphase : p.phase = .gathering deadline) (hdue : deadline ≤ e.clock)
      (hnone : ¬ p.Triggered e.form) : Proceeds e p race (e.decide p false false)
  /-- The results of an evaluation are there, and nothing outruns them. -/
  | complete {v : Evaluation} (hphase : p.phase = .evaluating v) (hdue : v.finish ≤ e.clock)
      (hfirst : e.outruns p.control race = false) : Proceeds e p race (e.complete p v)

theorem begin_eq (hforce : (e.entry p.control).force = false) (hpos : p.settings.debounce ≠ 0) :
    e.begin p outrun = (e.engaged p).enter p (.gathering (e.clock + p.settings.debounce)) := by
  have hnot : ¬ ((e.scheduler.table.entry p.control).force = true ∨ p.settings.debounce = 0) := by
    rintro (h | h)
    · exact Bool.false_ne_true (hforce.symm.trans h)
    · exact hpos h
  exact if_neg hnot

private theorem triggered_of_takes (hsound : stream.Sound)
    (hs : e.form.changes? p.control = some stream) (htakes : p.Takes stream p') :
    p.Triggered e.form := by
  cases htakes with
  | request hpos => exact .inl hpos
  | change hnext =>
      have hbounds := Stream.next?_bounds hsound hnext
      exact .inr ⟨stream, hs, Nat.lt_of_lt_of_le hbounds.1 hbounds.2⟩

theorem not_triggered (hsound : stream.Sound) (hs : e.form.changes? p.control = some stream)
    (hzero : p.requests = 0) (hnext : stream.next? p.receiver = none) :
    ¬ p.Triggered e.form := by
  rw [Stream.next?_eq_none_iff hsound] at hnext
  rintro (hpos | ⟨stream', hs', hunread⟩)
  · omega
  · rw [hs] at hs'
    cases hs'
    omega

/-- A trigger is taken, where an evaluation may have been given up before. -/
private theorem proceeds_begin {e₀ : Engine} (hp : e.scheduler.inquiry? p.control = some p)
    (htriggered : p.Triggered e.form)
    (hearly : ∀ v, p.phase = .evaluating v → v.finish ≤ e.clock → race.triggerFirst = true)
    (htakes : p.Takes stream p') (hpos : p.settings.debounce ≠ 0)
    (hinquiry : e₀.scheduler.inquiry? p.control = e.scheduler.inquiry? p.control)
    (hclock : e₀.clock = e.clock) (hforce : (e₀.entry p.control).force = false)
    (hentry : e₀.entry p.control = (e.entry p.control).count fun s =>
      { s with superseded := s.superseded + p.phase.evaluation?.toList.length }) :
    e.Proceeds p race (e₀.begin p' outrun) := by
  have houtline := InquiryPipeline.eq_of_outline (htakes.outline p'.phase)
  have hsettings : p'.settings = p.settings := houtline.2.2
  rw [begin_eq (by rwa [htakes.control]) (by rwa [hsettings])]
  refine .gather htriggered hearly (htakes.outline p'.phase) ?_ ?_
  · have hsome : (e₀.engaged p').scheduler.inquiry? p'.control = some p := by
      rw [htakes.control]
      exact hinquiry.trans hp
    have hmoment : e.clock + p.settings.debounce = e₀.clock + p'.settings.debounce := by
      rw [hclock, hsettings]
    rw [hmoment, ← htakes.control]
    exact inquiry?_enter (by rw [hsome]; rfl) _
  · have hengaged := entry_engaged e₀ p'
    rw [htakes.control] at hengaged
    have hsame := congrArg (fun force => { e₀.entry p.control with force }) hforce.symm
    exact (hengaged.trans hsame).trans hentry

/-- What a step of a pipeline with a debounce can do while its inquiries are not forced. -/
theorem proceeds_of_stepInquiry? (h : e.Sound) (hp : e.scheduler.inquiry? p.control = some p)
    (hpos : p.settings.debounce ≠ 0) (hforce : (e.entry p.control).force = false)
    (hunforced : ∀ v, p.phase.evaluation? = some v → v.forced = false)
    (hstep : e.stepInquiry? p.control race = some e') : e.Proceeds p race e' := by
  obtain ⟨-, stream, hs, hsound, hopen, -⟩ := h.inquiry hp
  obtain ⟨q, stream', hq, hs', hinquiry⟩ := inquiryStep_of_stepInquiry? hstep
  rw [hp] at hq
  rw [hs] at hs'
  cases hq
  cases hs'
  cases hinquiry with
  | @begin p' outrun htakes hidle =>
      have hnone : p.phase.evaluation? = none := by
        cases hphase : p.phase with
        | evaluating v => exact absurd hphase (hidle v)
        | _ => rfl
      exact proceeds_begin hp (triggered_of_takes hsound hs htakes)
        (fun v hv => absurd hv (hidle v)) htakes hpos rfl rfl hforce (by rw [hnone]; rfl)
  | @supersede p' v outrun htakes hphase hfirst =>
      have hgivenUp := entry_givenUp e p' v
      rw [htakes.control, hforce, hunforced v (by rw [hphase]; rfl)] at hgivenUp
      refine @proceeds_begin e p p' stream race outrun (e.givenUp p' v) hp
        (triggered_of_takes hsound hs htakes) (fun u hu => ?_) htakes hpos rfl rfl
        (congrArg ScheduleEntry.force hgivenUp) (hgivenUp.trans ?_)
      · rw [hphase] at hu
        cases hu
        exact fun hdue => (Bool.and_eq_true_iff.1 (hfirst hdue)).1
      · rw [hphase]
        exact congrArg (fun force => { (e.entry p.control).count _ with force }) hforce.symm
  | decide hphase hdue hzero hnext =>
      exact .decide hphase hdue (not_triggered hsound hs hzero hnext)
  | complete hphase hdue hfirst =>
      exact .complete hphase hdue ((outruns_eq hp hs race).trans hfirst)
  | finish hclosed =>
      rw [hclosed] at hopen
      cases hopen

/-! ## The bursts of the triggers that were taken -/

/-- Of the triggers of a pipeline some have been taken, and the others have come just now. There is
a moment at which it has decided for each burst of those that were taken, except for the burst that
it is gathering. -/
structure Gathers (e : Engine) (p : InquiryPipeline) (handled fresh moments : List Nat) : Prop where
  handled_le : ∀ t ∈ handled, t ≤ e.clock
  fresh_now : ∀ t ∈ fresh, t = e.clock
  taken : ¬ p.Triggered e.form → fresh = []
  /-- Where a trigger is left although all have been counted, another one was taken just now. -/
  renewed : p.Triggered e.form → fresh = [] → p.phase = .gathering (e.clock + p.settings.debounce)
  closings : moments ++ p.phase.closing = p.settings.closings handled
  moments_le : ∀ t ∈ moments, t ≤ e.clock
  ahead : ∀ t ∈ p.deadline?, e.clock ≤ t

namespace Gathers

variable {handled fresh moments : List Nat}

/-- Nothing was taken yet, and a trigger is there. -/
theorem first (hphase : p.phase = .waiting) (htriggered : p.Triggered e.form) :
    e.Gathers p [] [e.clock] [] where
  handled_le := nofun
  fresh_now t ht := List.mem_singleton.1 ht
  taken hnone := absurd htriggered hnone
  renewed _ hnil := by cases hnil
  closings := by rw [hphase]; rfl
  moments_le := nofun
  ahead t ht := by
    rw [InquiryPipeline.deadline?, hphase] at ht
    cases ht

variable (g : e.Gathers p handled fresh moments)

include g

/-- A further trigger has come. -/
theorem send (hclock : e'.clock = e.clock) (htriggered : p.Triggered e'.form) :
    e'.Gathers p handled (fresh ++ [e.clock]) moments where
  handled_le := hclock ▸ g.handled_le
  fresh_now := hclock.symm ▸ List.forall_mem_append.2
    ⟨g.fresh_now, List.forall_mem_singleton.2 rfl⟩
  taken hnone := absurd htriggered hnone
  renewed _ hnil := absurd hnil (by simp)
  closings := g.closings
  moments_le := hclock ▸ g.moments_le
  ahead := hclock ▸ g.ahead

/-- Nothing concerns the pipeline. -/
theorem carry (hclock : e'.clock = e.clock) (hsame : p.Triggered e'.form ↔ p.Triggered e.form) :
    e'.Gathers p handled fresh moments where
  handled_le := hclock ▸ g.handled_le
  fresh_now := hclock ▸ g.fresh_now
  taken hnone := g.taken (mt hsame.2 hnone)
  renewed htriggered hnil := hclock.symm ▸ g.renewed (hsame.1 htriggered) hnil
  closings := g.closings
  moments_le := hclock ▸ g.moments_le
  ahead := hclock ▸ g.ahead

/-- Time passes while the pipeline has to wait. -/
theorem tick {now : Nat} (hnone : ¬ p.Triggered e.form) (hle : e.clock ≤ now)
    (hahead : ∀ t ∈ p.deadline?, now ≤ t) :
    (e.tick now).Gathers { p with phase := p.phase.tick now } handled [] moments where
  handled_le t ht := Nat.le_trans (g.handled_le t ht) hle
  fresh_now := nofun
  taken _ := rfl
  renewed htriggered := absurd htriggered hnone
  closings := by
    rw [← g.closings]
    cases p.phase <;> rfl
  moments_le t ht := Nat.le_trans (g.moments_le t ht) hle
  ahead := by
    unfold InquiryPipeline.deadline? at hahead ⊢
    cases hphase : p.phase <;> simp only [hphase] at hahead <;> exact hahead

/-- The pipeline takes a trigger, and all that have come just now count as taken. -/
theorem gather {p' : InquiryPipeline} (hpos : p.settings.debounce ≠ 0)
    (hspaced : p.settings.Spaced (handled ++ fresh)) (htriggered : p.Triggered e.form)
    (hclock : e'.clock = e.clock) (hsettings : p'.settings = p.settings)
    (hphase : p'.phase = .gathering (e.clock + p.settings.debounce)) :
    e'.Gathers p' (handled ++ fresh) [] moments where
  handled_le := hclock ▸ List.forall_mem_append.2
    ⟨g.handled_le, fun t ht => Nat.le_of_eq (g.fresh_now t ht)⟩
  fresh_now := nofun
  taken _ := rfl
  renewed _ _ := by rw [hphase, hclock, hsettings]
  closings := by
    rw [hphase, hsettings]
    rcases eq_or_ne fresh [] with rfl | hne
    · rw [List.append_nil, ← g.closings, g.renewed htriggered rfl]
    · have hlast := g.closings ▸ p.settings.getLast?_closings handled
      cases hclosing : p.phase.closing with
      | nil =>
          rw [hclosing, List.append_nil] at hlast
          rw [ChangeSettings.closings_append_of_le g.fresh_now hne hpos fun t ht => ?_,
            ← g.closings, hclosing, List.append_nil]
          · rfl
          · rw [Option.mem_def.1 ht] at hlast
            exact g.moments_le _ (List.mem_of_getLast? hlast)
      | cons deadline rest =>
          obtain ⟨hgathering, rfl⟩ : p.phase = .gathering deadline ∧ rest = [] := by
            cases hp : p.phase <;> rw [hp] at hclosing <;> cases hclosing
            exact ⟨rfl, rfl⟩
          rw [hclosing, List.getLast?_concat] at hlast
          have hdue : e.clock ≤ deadline :=
            g.ahead deadline (by rw [InquiryPipeline.deadline?, hgathering]; rfl)
          rw [ChangeSettings.closings_append_of_lt g.fresh_now hne hpos fun t ht => ?_,
            ← g.closings, hclosing, List.dropLast_concat]
          · rfl
          · have hapart := hspaced.ne_of_mem_getLast? g.fresh_now hne t ht
            rw [Option.mem_def.1 ht] at hlast
            have hdeadline : deadline = t + p.settings.debounce := Option.some.inj hlast
            omega
  moments_le := hclock ▸ g.moments_le
  ahead t ht := by
    rw [InquiryPipeline.deadline?, hphase] at ht
    cases ht
    rw [hclock]
    exact Nat.le_add_right _ _

/-- A trigger that is there while an evaluation is under way has come just now. -/
theorem clock_mem_fresh {v : Evaluation} (htriggered : p.Triggered e.form)
    (hphase : p.phase = .evaluating v) : e.clock ∈ fresh := by
  have hne : fresh ≠ [] := by
    rintro rfl
    have hgathering := g.renewed htriggered rfl
    rw [hphase] at hgathering
    cases hgathering
  obtain ⟨first, rest, rfl⟩ := List.exists_cons_of_ne_nil hne
  rw [← g.fresh_now first List.mem_cons_self]
  exact List.mem_cons_self

/-- A pipeline that is not gathering has decided before further triggers have come. -/
theorem moment_lt (hspaced : p.settings.Spaced (handled ++ fresh)) (hne : fresh ≠ [])
    (hclosing : p.phase.closing = []) : ∀ moment ∈ moments.getLast?, moment < e.clock := by
  intro moment hmoment
  have hlast := g.closings ▸ p.settings.getLast?_closings handled
  rw [hclosing, List.append_nil, Option.mem_def.1 hmoment] at hlast
  obtain ⟨t, ht, rfl⟩ := Option.map_eq_some_iff.1 hlast.symm
  exact Nat.lt_of_le_of_ne (g.moments_le _ (List.mem_of_getLast? hmoment))
    (hspaced.ne_of_mem_getLast? g.fresh_now hne t ht).symm

/-- The pipeline has decided at the end of a burst. -/
theorem decide {deadline : Nat} {phase : InquiryPhase} (hphase : p.phase = .gathering deadline)
    (hdue : deadline ≤ e.clock) (hnone : ¬ p.Triggered e.form) (hclock : e'.clock = e.clock)
    (hsame : ∀ {q : InquiryPipeline}, q.Triggered e'.form ↔ q.Triggered e.form)
    (hclosing : phase.closing = []) (hahead : ∀ v, phase = .evaluating v → e.clock ≤ v.finish) :
    e'.Gathers { p with phase } handled [] (moments ++ [e.clock]) where
  handled_le := hclock ▸ g.handled_le
  fresh_now := nofun
  taken _ := rfl
  renewed htriggered := absurd (hsame.1 htriggered) hnone
  closings := by
    have hnow : deadline = e.clock := Nat.le_antisymm hdue
      (g.ahead deadline (by rw [InquiryPipeline.deadline?, hphase]; rfl))
    have hclosings := g.closings
    rw [hphase, hnow] at hclosings
    rw [hclosing, List.append_nil]
    exact hclosings
  moments_le := hclock.symm ▸ List.forall_mem_append.2
    ⟨g.moments_le, List.forall_mem_singleton.2 (Nat.le_refl _)⟩
  ahead t ht := by
    rw [hclock]
    unfold InquiryPipeline.deadline? at ht
    cases phase with
    | evaluating v =>
        cases ht
        exact hahead v rfl
    | gathering => cases hclosing
    | _ => cases ht

/-- An evaluation is completed. -/
theorem complete {v : Evaluation} (hphase : p.phase = .evaluating v) (hclock : e'.clock = e.clock)
    (hsame : ∀ {q : InquiryPipeline}, q.Triggered e'.form ↔ q.Triggered e.form) :
    e'.Gathers { p with phase := .waiting } handled fresh moments where
  handled_le := hclock ▸ g.handled_le
  fresh_now := hclock ▸ g.fresh_now
  taken hnone := g.taken (mt hsame.2 hnone)
  renewed htriggered hnil := by
    have hgathering := g.renewed (hsame.1 htriggered) hnil
    rw [hphase] at hgathering
    cases hgathering
  closings := by
    rw [← g.closings, hphase]
    rfl
  moments_le := hclock ▸ g.moments_le
  ahead t ht := by cases ht

/-- A pipeline that has to wait has decided for each burst that is over. -/
theorem moments_eq (hnone : ¬ p.Triggered e.form) (hwaits : ∀ t ∈ p.deadline?, e.clock < t) :
    fresh = [] ∧ moments = (p.settings.closings handled).filter (· ≤ e.clock) := by
  refine ⟨g.taken hnone, ?_⟩
  have hover : moments.filter (· ≤ e.clock) = moments :=
    List.filter_eq_self.2 fun t ht => decide_eq_true (g.moments_le t ht)
  have hopen : p.phase.closing.filter (· ≤ e.clock) = [] := by
    refine List.filter_eq_nil_iff.2 fun t ht => ?_
    unfold InquiryPipeline.deadline? at hwaits
    cases hphase : p.phase <;> rw [hphase] at ht hwaits <;> cases ht
    · exact mt of_decide_eq_true (Nat.not_le.2 (hwaits t rfl))
    · contradiction
  rw [← g.closings, List.filter_append, hover, hopen, List.append_nil]

end Gathers

end Engine

end ReactiveForm
