import ReactiveForm.Proofs.Form.Structure
import ReactiveForm.Proofs.Recompute.InquiryStep

/-!
# Pipelines and their streams

As long as the structure of a form stays, the streams of its controls are open, and no pipeline has
received more than was sent or has ended (`Engine.Sound`). Steps of pipelines keep this up, and so
does the clock.
-/

namespace ReactiveForm

namespace ChangePipeline

variable {f g : Form} {p : ChangePipeline}

/-- The pipeline watches an open stream. -/
def Sound (f : Form) (p : ChangePipeline) : Prop :=
  ∃ s, f.changes? p.watched = some s ∧ s.Sound ∧ s.closed = false ∧ p.watcher.Sound s

/-- The watcher of the pipeline is behind. -/
def Behind (f : Form) (p : ChangePipeline) : Prop :=
  ∃ s, f.changes? p.watched = some s ∧ p.watcher.Behind s

theorem Sound.congr (h : p.Sound f) (hsame : g.changes? p.watched = f.changes? p.watched) :
    p.Sound g := by
  obtain ⟨s, hs, hsound⟩ := h
  exact ⟨s, hsame.trans hs, hsound⟩

theorem Behind.congr (h : p.Behind f) (hsame : g.changes? p.watched = f.changes? p.watched) :
    p.Behind g := by
  obtain ⟨s, hs, hbehind⟩ := h
  exact ⟨s, hsame.trans hs, hbehind⟩

private theorem watcher_sound_sendTimes {w : Watcher} {s : Stream Json} (hw : w.Sound s)
    (v : Json) (n : Nat) : w.Sound (s.sendTimes v n) := by
  induction n with
  | zero => exact hw
  | succ n ih => exact ih.send v

theorem Sound.sendTimes (h : p.Sound f) {v : Json} {n : Nat}
    (hsent : g.changes? p.watched = (f.changes? p.watched).map fun s => s.sendTimes v n) :
    p.Sound g := by
  obtain ⟨s, hs, hsound, hopen, hw⟩ := h
  rw [hs] at hsent
  exact ⟨_, hsent, hsound.sendTimes v n, (Stream.closed_sendTimes s v n).trans hopen,
    watcher_sound_sendTimes hw v n⟩

/-- What is sent at least once leaves the pipeline behind. -/
theorem Sound.behind_of_sendTimes (h : p.Sound f) {v : Json} {n : Nat} (hpos : 0 < n)
    (hsent : g.changes? p.watched = (f.changes? p.watched).map fun s => s.sendTimes v n) :
    p.Behind g := by
  obtain ⟨s, hs, -, -, hw⟩ := h
  rw [hs] at hsent
  obtain ⟨n, rfl⟩ : ∃ m, n = m + 1 := ⟨n - 1, by omega⟩
  exact ⟨_, hsent, (watcher_sound_sendTimes hw v n).behind_send v⟩

end ChangePipeline

/-- A phase at a later moment: some of the rules that were still to be asked have been asked. -/
def InquiryPhase.tick (now : Nat) : InquiryPhase → InquiryPhase
  | .evaluating e => .evaluating { e with upcoming := e.upcoming.filter (now < ·.1) }
  | phase => phase

theorem InquiryPhase.tick_ne_ended {phase : InquiryPhase} {now : Nat} (h : phase ≠ .ended) :
    phase.tick now ≠ .ended := by
  cases phase with
  | ended => exact absurd rfl h
  | _ => simp [InquiryPhase.tick]

theorem InquiryPipeline.isBusy_tick (p : InquiryPipeline) (now : Nat) :
    { p with phase := p.phase.tick now }.isBusy = p.isBusy := by
  cases hp : p.phase <;> simp [InquiryPhase.tick, isBusy, hp]

namespace InquiryPipeline

variable {f g : Form} {p : InquiryPipeline}

theorem tick_eq (p : InquiryPipeline) (now : Nat) :
    p.tick now = { p with phase := p.phase.tick now } := by
  obtain ⟨control, tests, settings, receiver, requests, phase⟩ := p
  cases phase <;> rfl

/-- The pipeline receives from an open stream. -/
def Sound (f : Form) (p : InquiryPipeline) : Prop :=
  ∃ s, f.changes? p.control = some s ∧ s.Sound ∧ s.closed = false ∧ p.receiver ≤ s.sent ∧
    p.phase ≠ .ended

/-- The pipeline has a change of its control before it. -/
def Unread (f : Form) (p : InquiryPipeline) : Prop :=
  ∃ s, f.changes? p.control = some s ∧ p.receiver < s.sent

theorem Sound.congr (h : p.Sound f) (hsame : g.changes? p.control = f.changes? p.control) :
    p.Sound g := by
  obtain ⟨s, hs, hsound⟩ := h
  exact ⟨s, hsame.trans hs, hsound⟩

theorem Unread.congr (h : p.Unread f) (hsame : g.changes? p.control = f.changes? p.control) :
    p.Unread g := by
  obtain ⟨s, hs, hunread⟩ := h
  exact ⟨s, hsame.trans hs, hunread⟩

theorem Sound.sendTimes (h : p.Sound f) {v : Json} {n : Nat}
    (hsent : g.changes? p.control = (f.changes? p.control).map fun s => s.sendTimes v n) :
    p.Sound g := by
  obtain ⟨s, hs, hsound, hopen, hle, hphase⟩ := h
  rw [hs] at hsent
  refine ⟨_, hsent, hsound.sendTimes v n, (Stream.closed_sendTimes s v n).trans hopen, ?_, hphase⟩
  rw [Stream.sent_sendTimes]
  omega

theorem Sound.unread_of_sendTimes (h : p.Sound f) {v : Json} {n : Nat} (hpos : 0 < n)
    (hsent : g.changes? p.control = (f.changes? p.control).map fun s => s.sendTimes v n) :
    p.Unread g := by
  obtain ⟨s, hs, -, -, hle, -⟩ := h
  rw [hs] at hsent
  refine ⟨_, hsent, ?_⟩
  rw [Stream.sent_sendTimes]
  omega

/-- Taking a trigger keeps the receiver within the stream. -/
theorem Sound.takes {p' : InquiryPipeline} {s : Stream Json} (h : p.Sound f)
    (hs : f.changes? p.control = some s) (htakes : p.Takes s p') {phase : InquiryPhase}
    (hphase : phase ≠ .ended) : { p' with phase }.Sound f := by
  obtain ⟨s', hs', hsound, hopen, hle, -⟩ := h
  rw [hs] at hs'
  cases hs'
  cases htakes with
  | request => exact ⟨s, hs, hsound, hopen, hle, hphase⟩
  | change hnext =>
      exact ⟨s, hs, hsound, hopen, (Stream.next?_bounds hsound hnext).2, hphase⟩

end InquiryPipeline

namespace Engine

variable {e e' : Engine} {race : Race}

/-- No pipeline has received more than was sent, and none has ended. -/
structure Sound (e : Engine) : Prop where
  dependency : ∀ q ∈ e.scheduler.dependencies, q.Sound e.form
  editability : ∀ {id q}, e.scheduler.editability? id = some q → q.watched = id ∧ q.Sound e.form
  inquiry : ∀ {id p}, e.scheduler.inquiry? id = some p → p.control = id ∧ p.Sound e.form

theorem Sound.watches (h : e.Sound) {q : ChangePipeline} (hq : e.scheduler.Watches q) :
    q.Sound e.form := by
  rcases hq with hq | ⟨id, hq⟩
  · exact h.dependency q hq
  · exact (h.editability hq).2

/-! ## Steps -/

/-- A watcher that moves fits the stream on which it does so. -/
theorem ChangeStep.exists_move {p : ChangePipeline} {y : Option Json} {w : Watcher} {s : Scheduler}
    (h : e.ChangeStep p y w s) (hsound : e.Sound) :
    ∃ stream, e.form.changes? p.watched = some stream ∧ stream.Sound ∧ stream.closed = false ∧
      p.watcher.Sound stream ∧ p.watcher.Move e.clock stream y w := by
  obtain ⟨stream, hstream, hs, hopen, hw⟩ := hsound.watches h.watches
  obtain ⟨stream', hstream', hmove⟩ := h.move
  rw [hstream] at hstream'
  cases hstream'
  exact ⟨stream, hstream, hs, hopen, hw, hmove⟩

theorem ChangeStep.sound {p : ChangePipeline} {y : Option Json} {w : Watcher} {s : Scheduler}
    (h : e.ChangeStep p y w s) (hsound : e.Sound) : { e with scheduler := s }.Sound := by
  have hmoved : { p with watcher := w }.Sound e.form := by
    obtain ⟨stream, hstream, hs, hopen, hw, hmove⟩ := h.exists_move hsound
    exact ⟨stream, hstream, hs, hopen, hmove.sound hs hopen hw⟩
  refine ⟨fun q hq => ?_, fun {id q} hq => ?_, fun {id q} hq => ?_⟩
  · rcases h.dependencies q hq with ⟨rfl, -⟩ | hq
    · exact hmoved
    · exact hsound.dependency q hq
  · rcases h.editability id q hq with ⟨rfl, hp⟩ | hq
    · exact ⟨(hsound.editability hp).1, hmoved⟩
    · exact hsound.editability hq
  · exact hsound.inquiry ((h.inquiry id).symm.trans hq)

theorem Sound.react (h : e.Sound) (control : ControlId) (reaction : Reaction) :
    (e.react control reaction).Sound := by
  have hsame := (sameDocument_react e control reaction).changes
  refine ⟨fun q hq => ?_, fun {id q} hq => ?_, fun {id p} hp => ?_⟩
  · rw [dependencies_react] at hq
    exact (h.dependency q hq).congr (hsame _)
  · rw [editability?_react] at hq
    obtain ⟨hwatched, hq⟩ := h.editability hq
    exact ⟨hwatched, hq.congr (hsame _)⟩
  · rw [inquiry?_react] at hp
    split at hp
    · obtain ⟨p', hp', rfl⟩ := Option.map_eq_some_iff.1 hp
      obtain ⟨hcontrol, hp'⟩ := h.inquiry hp'
      exact ⟨hcontrol, hp'.congr (hsame _)⟩
    · obtain ⟨hcontrol, hp⟩ := h.inquiry hp
      exact ⟨hcontrol, hp.congr (hsame _)⟩

theorem Sound.reactIf (h : e.Sound) (p : ChangePipeline) (y : Option Json) :
    (e.reactIf p y.isSome).Sound := by
  cases y with
  | none => exact h
  | some v => exact h.react p.control p.reaction

theorem InquiryStep.sound {p : InquiryPipeline} {stream : Stream Json}
    (hp : e.scheduler.inquiry? p.control = some p)
    (hstream : e.form.changes? p.control = some stream) (hsound : e.Sound)
    (h : e.InquiryStep p stream race e') : e'.Sound := by
  have frame := h.frame hp
  have hsame := frame.document.changes
  refine ⟨fun q hq => ?_, fun {id q} hq => ?_, fun {id q} hq => ?_⟩
  · exact (hsound.dependency q (frame.dependencies ▸ hq)).congr (hsame _)
  · obtain ⟨hwatched, hq⟩ := hsound.editability ((frame.editability id).symm.trans hq)
    exact ⟨hwatched, hq.congr (hsame _)⟩
  · by_cases hid : id = p.control
    · subst hid
      have hpsound := (hsound.inquiry hp).2
      obtain ⟨s, hs, hstreamSound, hopen, hle, hphase⟩ := hpsound
      rw [hstream] at hs
      cases hs
      -- the pipeline behind the step has taken a trigger or has only changed its phase
      obtain ⟨p', phase, hp', hphase', hnew⟩ := h.exists_inquiry? hp hopen
      rw [hnew] at hq
      cases hq
      have hmoved : { p' with phase }.Sound e.form := by
        rcases hp' with htakes | ⟨rfl, -⟩
        · exact (hsound.inquiry hp).2.takes hstream htakes hphase'
        · exact ⟨stream, hstream, hstreamSound, hopen, hle, hphase'⟩
      have hcontrol : p'.control = p.control := by
        rcases hp' with htakes | ⟨rfl, -⟩
        · exact htakes.control
        · rfl
      exact ⟨hcontrol, hmoved.congr (hsame _)⟩
    · obtain ⟨hcontrol, hq⟩ := hsound.inquiry ((frame.inquiry id hid).symm.trans hq)
      exact ⟨hcontrol, hq.congr (hsame _)⟩

theorem Sound.step (h : e.Sound) {r : PipelineRef} (hstep : e.step? r race = some e') :
    e'.Sound := by
  cases r with
  | dependency i =>
      obtain ⟨p, y, w, s, hchange, rfl⟩ := changeStep_of_stepDependency? hstep
      exact (hchange.sound h).reactIf _ _
  | editability id =>
      obtain ⟨p, y, w, s, hchange, rfl⟩ := changeStep_of_stepEditability? hstep
      exact (hchange.sound h).reactIf _ _
  | inquiry id =>
      obtain ⟨p, stream, hp, hstream, hinquiry⟩ := inquiryStep_of_stepInquiry? hstep
      obtain ⟨rfl, -⟩ := h.inquiry hp
      exact hinquiry.sound hp hstream h

/-! ## The clock -/

/-- A step takes no time. -/
theorem clock_step (h : e.Sound) {r : PipelineRef} (hstep : e.step? r race = some e') :
    e'.clock = e.clock := by
  cases r with
  | dependency i =>
      obtain ⟨p, y, w, s, -, rfl⟩ := changeStep_of_stepDependency? hstep
      exact clock_reactIf _ _ _
  | editability id =>
      obtain ⟨p, y, w, s, -, rfl⟩ := changeStep_of_stepEditability? hstep
      exact clock_reactIf _ _ _
  | inquiry id =>
      obtain ⟨p, stream, hp, -, hinquiry⟩ := inquiryStep_of_stepInquiry? hstep
      obtain ⟨rfl, -⟩ := h.inquiry hp
      exact (hinquiry.frame hp).clock

theorem own?_tick (e : Engine) (now : Nat) (id : ControlId) :
    (e.tick now).scheduler.own? id = (e.scheduler.own? id).map fun o =>
      { o with inquiry := o.inquiry.map (·.tick now) } := by
  simp only [tick, Scheduler.own?, List.find?_map]
  rfl

theorem editability?_tick (e : Engine) (now : Nat) (id : ControlId) :
    (e.tick now).scheduler.editability? id = e.scheduler.editability? id := by
  rw [Scheduler.editability?, own?_tick, Option.bind_map]
  rfl

theorem watches_tick (e : Engine) (now : Nat) (q : ChangePipeline) :
    (e.tick now).scheduler.Watches q ↔ e.scheduler.Watches q :=
  or_congr .rfl (exists_congr fun id => by rw [editability?_tick])

theorem inquiry?_tick (e : Engine) (now : Nat) (id : ControlId) :
    (e.tick now).scheduler.inquiry? id = (e.scheduler.inquiry? id).map (·.tick now) := by
  rw [Scheduler.inquiry?_eq, own?_tick, Option.bind_map, Scheduler.inquiry?_eq, Option.map_bind]
  rfl

theorem sameOutline_tick (e : Engine) (now : Nat) :
    Scheduler.SameOutline (e.tick now).scheduler e.scheduler where
  dependencies := rfl
  controls := by
    simp only [tick, List.map_map]
    rfl
  own id := by
    rw [own?_tick, Option.map_map]
    refine congrArg (fun change => Option.map change _) (funext fun o => ?_)
    simp only [Function.comp_apply, OwnPipelines.outline, Option.map_map]
    refine congrArg (fun inquiry => OwnPipelines.mk o.control _ inquiry) ?_
    refine congrArg (fun change => Option.map change _) (funext fun p => ?_)
    rw [Function.comp_apply, InquiryPipeline.tick_eq]
    rfl

theorem Sound.tick (h : e.Sound) (now : Nat) : (e.tick now).Sound where
  dependency := h.dependency
  editability hq := h.editability ((editability?_tick e now _).symm.trans hq)
  inquiry {id p} hp := by
    rw [inquiry?_tick] at hp
    obtain ⟨p', hp', rfl⟩ := Option.map_eq_some_iff.1 hp
    obtain ⟨hcontrol, s, hs, hsound, hopen, hle, hphase⟩ := h.inquiry hp'
    rw [InquiryPipeline.tick_eq]
    exact ⟨hcontrol, s, hs, hsound, hopen, hle, InquiryPhase.tick_ne_ended hphase⟩

end Engine

end ReactiveForm
