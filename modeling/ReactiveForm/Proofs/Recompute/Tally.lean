import ReactiveForm.Proofs.Recompute.Passes
import ReactiveForm.Proofs.Recompute.Subscribed
import ReactiveForm.Proofs.Recompute.Work

/-!
# Every value is one pass

Without a debounce and without distinct values a pipeline yields every value that it receives, and
each yield is a pass of its control. So the passes that a control has made and the values that its
pipelines have not received yet add up to the same number all the time (`Tallies`), until in a
settled state only passes are left. When one value was sent to the streams of some controls, that
number has grown by one for each pipeline that watches one of them (`owed_eq`).
-/

namespace ReactiveForm

namespace Stream

variable {α : Type} {s : Stream α}

theorem unread_of_sent_le {receiver : Nat} (hle : s.sent ≤ receiver) : s.unread receiver = 0 := by
  unfold unread
  omega

/-- A receiver that has received everything has one value before it when one is sent. -/
theorem unread_sendTimes (h : s.Sound) (v : α) {n : Nat} (hn : n ≤ 1) :
    (s.sendTimes v n).unread s.sent = n := by
  obtain rfl | rfl : n = 0 ∨ n = 1 := by omega
  · exact unread_of_sent_le (Nat.le_refl _)
  · have hkept := (h.sendTimes v 1).kept_le_sent
    have hpos := (h.sendTimes v 1).kept_pos
    simp only [unread, oldest, sent_sendTimes] at *
    omega

end Stream

namespace Watcher

variable {w w' : Watcher} {s : Stream Json} {y : Option Json} {now : Nat}

/-- A watcher that reacts at once and to every value yields in each of its steps. -/
theorem Move.unread_of_immediate (hs : s.Sound) (hopen : s.closed = false) (hw : w.Sound s)
    (himmediate : w.settings = .immediate) (h : Move w now s y w') :
    y.isSome = true ∧ s.unread w'.receiver + 1 = s.unread w.receiver := by
  have hzero : w.settings.debounce = 0 := by rw [himmediate]; rfl
  cases h with
  | gather _ hpos => exact absurd hzero hpos
  | yield hoffer =>
      cases hoffer with
      | value hnext => exact ⟨rfl, Stream.unread_of_next? hs hnext⟩
      | burst hphase => exact absurd hphase (hw.at_once hzero _ _)
  | ignore _ hold => simp [ignores, himmediate, ChangeSettings.immediate] at hold
  | finish hclosed => simp [hopen] at hclosed

end Watcher

namespace ChangePipeline

variable {f g : Form} {q : ChangePipeline}

/-- How many values the pipeline has not received yet. -/
def unread (f : Form) (q : ChangePipeline) : Nat :=
  ((f.changes? q.watched).map fun s => s.unread q.watcher.receiver).getD 0

theorem unread_congr (hsame : g.changes? q.watched = f.changes? q.watched) :
    q.unread g = q.unread f := by
  rw [unread, unread, hsame]

/-- A pipeline that is not behind has received everything. -/
theorem unread_of_not_behind (hnot : ¬ q.Behind f) : q.unread f = 0 := by
  unfold unread
  cases hs : f.changes? q.watched with
  | none => rfl
  | some s =>
      refine Stream.unread_of_sent_le (Nat.le_of_not_lt fun hlt => ?_)
      exact hnot ⟨s, hs, .inl hlt⟩

/-- A pipeline that was not behind has those values before it that were sent since. -/
theorem unread_of_sendTimes (hq : q.Sound f) (hnot : ¬ q.Behind f) {v : Json} {n : Nat}
    (hn : n ≤ 1) (hsent : g.changes? q.watched = (f.changes? q.watched).map (·.sendTimes v n)) :
    q.unread g = n := by
  obtain ⟨s, hs, hsound, -, hw⟩ := hq
  have hend : q.watcher.receiver = s.sent := by
    refine Nat.le_antisymm hw.receiver_le (Nat.le_of_not_lt fun hlt => ?_)
    exact hnot ⟨s, hs, .inl hlt⟩
  rw [unread, hsent, hs, hend]
  exact Stream.unread_sendTimes hsound v hn

end ChangePipeline

namespace Engine

variable {e e' : Engine} {control : ControlId} {reaction : Reaction} {n : Nat} {race : Race}

/-! ## What pipelines owe -/

/-- The passes of a control that a pipeline still has to trigger. -/
def owedBy (e : Engine) (control : ControlId) (reaction : Reaction) (q : ChangePipeline) : Nat :=
  if control = q.control ∧ q.reaction = reaction then q.unread e.form else 0

/-- The passes of a control that its pipelines still have to trigger. -/
def owed (e : Engine) (control : ControlId) (reaction : Reaction) : Nat :=
  total (e.owedBy control reaction) e.scheduler.dependencies +
    ((e.scheduler.editability? control).map (e.owedBy control reaction)).getD 0

theorem owedBy_congr (hdoc : Form.SameDocument e'.form e.form) (control : ControlId)
    (reaction : Reaction) : e'.owedBy control reaction = e.owedBy control reaction := by
  funext q
  unfold owedBy
  rw [ChangePipeline.unread_congr (hdoc.changes _)]

theorem owed_congr (hdoc : Form.SameDocument e'.form e.form)
    (hdependencies : e'.scheduler.dependencies = e.scheduler.dependencies)
    (heditability : e'.scheduler.editability? control = e.scheduler.editability? control) :
    e'.owed control reaction = e.owed control reaction := by
  rw [owed, owed, owedBy_congr hdoc, hdependencies, heditability]

/-- When one value is before each pipeline that watches one of the given controls, each of these
pipelines owes one pass. -/
theorem owed_eq {ids : List ControlId} (h : ∀ q, e.scheduler.Watches q → q.control = control →
      q.reaction = reaction → q.unread e.form = if q.watched ∈ ids then 1 else 0) :
    e.owed control reaction =
      e.scheduler.dependencies.countP (Scheduler.triggers control reaction ids) +
        (e.scheduler.editability? control).toList.countP
          (Scheduler.triggers control reaction ids) := by
  have howed : ∀ q, e.scheduler.Watches q → e.owedBy control reaction q =
      if Scheduler.triggers control reaction ids q then 1 else 0 := by
    intro q hq
    by_cases hmine : control = q.control ∧ q.reaction = reaction
    · rw [owedBy, if_pos hmine, h q hq hmine.1.symm hmine.2]
      simp [Scheduler.triggers, hmine.1, hmine.2]
    · rw [owedBy, if_neg hmine]
      have hnot : Scheduler.triggers control reaction ids q = false := by
        refine decide_eq_false fun htriggers => hmine ⟨htriggers.1.symm, htriggers.2.1⟩
      simp [hnot]
  rw [owed, total_congr fun q hq => howed q (.inl hq), total_ite]
  cases hq : e.scheduler.editability? control with
  | none => rfl
  | some q => simp [howed q (.inr ⟨control, hq⟩), List.countP_singleton]

/-! ## The tally -/

/-- The passes of a control that were made and those that are owed add up to a number. All pipelines
that trigger them react at once and to every value. -/
structure Tallies (e : Engine) (control : ControlId) (reaction : Reaction) (n : Nat) : Prop where
  sound : e.Sound
  immediate : ∀ q, e.scheduler.Watches q → q.control = control → q.reaction = reaction →
    q.watcher.settings = .immediate
  own : ∀ {id q}, e.scheduler.editability? id = some q → q.control = id
  sum : e.passes control reaction + e.owed control reaction = n

namespace Tallies

/-- A pipeline that moves owes as much less as the passes that it makes. -/
private theorem owedBy_changeStep (h : e.Tallies control reaction n) {p : ChangePipeline}
    {y : Option Json} {w : Watcher} {s : Scheduler} (hstep : e.ChangeStep p y w s) :
    (e.owedBy control reaction { p with watcher := w } +
      if y.isSome = true ∧ control = p.control ∧ p.reaction = reaction then 1 else 0) =
      e.owedBy control reaction p := by
  unfold owedBy
  dsimp only
  by_cases hmine : control = p.control ∧ p.reaction = reaction
  · obtain ⟨stream, hstream, hs, hopen, hw, hmove⟩ := hstep.exists_move h.sound
    have himmediate := h.immediate p hstep.watches hmine.1.symm hmine.2
    obtain ⟨hyields, hunread⟩ := hmove.unread_of_immediate hs hopen hw himmediate
    rw [if_pos hmine, if_pos hmine, if_pos ⟨hyields, hmine⟩, ChangePipeline.unread,
      ChangePipeline.unread, hstream]
    exact hunread
  · rw [if_neg hmine, if_neg hmine, if_neg fun hall => hmine hall.2]

/-- A step that moves one pipeline keeps the tally if it changes what is owed by as much as this
pipeline does. -/
private theorem changeStep (h : e.Tallies control reaction n) {p : ChangePipeline}
    {y : Option Json} {w : Watcher} {s : Scheduler} (hstep : e.ChangeStep p y w s)
    (howed : owed { e with scheduler := s } control reaction + e.owedBy control reaction p =
      e.owed control reaction + e.owedBy control reaction { p with watcher := w }) :
    ({ e with scheduler := s }.reactIf { p with watcher := w } y.isSome).Tallies control reaction
      n where
  sound := (hstep.sound h.sound).reactIf _ _
  immediate q hq hcontrol hreaction := by
    rcases hstep.watches_cases ((watches_reactIf _ _ _ _).1 hq) with rfl | hq
    · rw [← h.immediate p hstep.watches hcontrol hreaction]
      exact hstep.move.elim fun _ hmove => hmove.2.settings
    · exact h.immediate q hq hcontrol hreaction
  own {id q} hq := by
    rw [editability?_reactIf] at hq
    rcases hstep.editability id q hq with ⟨rfl, hp⟩ | hq
    · exact h.own (q := p) hp
    · exact h.own hq
  sum := by
    have hpasses := passes_changeStep hstep control reaction
    have hmoved := h.owedBy_changeStep hstep
    have hsum := h.sum
    have hreact : ({ e with scheduler := s }.reactIf { p with watcher := w } y.isSome).owed control
        reaction = owed { e with scheduler := s } control reaction :=
      owed_congr (sameDocument_reactIf _ _ _) (dependencies_reactIf _ _ _)
        (editability?_reactIf _ _ _ _)
    rw [hpasses, hreact]
    split <;> simp_all
    omega

/-- After one value was sent to each of some streams, every pipeline that watches one of them and
was not behind owes a pass. -/
theorem of_sent (hsound : e.Sound)
    (himmediate : ∀ q, e.scheduler.Watches q → q.control = control → q.reaction = reaction →
      q.watcher.settings = .immediate)
    (hown : ∀ {id q}, e.scheduler.editability? id = some q → q.control = id)
    (hnot : ∀ q, e.scheduler.Watches q → q.control = control → ¬ q.Behind e.form)
    {f : Form} {v : ControlId → Json} {ids : List ControlId} (hids : ids.Nodup)
    (hsent : ∀ id, f.changes? id =
      (e.form.changes? id).map fun s => s.sendTimes (v id) (ids.count id)) :
    { e with form := f }.Tallies control reaction (e.passes control reaction +
      (e.scheduler.dependencies.countP (Scheduler.triggers control reaction ids) +
        (e.scheduler.editability? control).toList.countP
          (Scheduler.triggers control reaction ids))) where
  sound := hsound.sendTimes hsent
  immediate := himmediate
  own := hown
  sum := by
    refine congrArg (e.passes control reaction + ·) (owed_eq fun q hq hcontrol _ => ?_)
    have hcount := hids.count (a := q.watched)
    rw [← hcount]
    refine ChangePipeline.unread_of_sendTimes (hsound.watches hq) (hnot q hq hcontrol) ?_ (hsent _)
    rw [hcount]
    split <;> omega

/-- Every step keeps the tally. -/
theorem step (h : e.Tallies control reaction n) {r : PipelineRef}
    (hstep : e.step? r race = some e') : e'.Tallies control reaction n := by
  cases r with
  | dependency i =>
      obtain ⟨p, y, w, s, hchange, rfl, hp, rfl⟩ := exists_changeStep_of_stepDependency? hstep
      refine h.changeStep hchange ?_
      have hsum := total_set (e.owedBy control reaction) hp { p with watcher := w }
      simp only [owed]
      have hsame : owedBy { e with
          scheduler := { e.scheduler with
            dependencies := e.scheduler.dependencies.set i { p with watcher := w } } } control
          reaction = e.owedBy control reaction := owedBy_congr (.refl _) _ _
      have hedit : Scheduler.editability? { e.scheduler with
          dependencies := e.scheduler.dependencies.set i { p with watcher := w } } control =
          e.scheduler.editability? control := rfl
      rw [hsame, hedit]
      omega
  | editability id =>
      obtain ⟨p, y, w, s, hchange, rfl, hp, rfl⟩ := exists_changeStep_of_stepEditability? hstep
      refine h.changeStep hchange ?_
      have hedit := Scheduler.editability?_setEditability (p := { p with watcher := w }) hp control
      have hsame : owedBy { e with
          scheduler := e.scheduler.modifyOwn id fun o =>
            { o with editability := some { p with watcher := w } } } control reaction =
          e.owedBy control reaction := owedBy_congr (.refl _) _ _
      simp only [owed]
      rw [hsame, hedit]
      split
      · rename_i heq
        subst heq
        rw [hp]
        exact Nat.add_right_comm _ _ _
      · -- a pipeline of another control owes this one nothing
        rename_i hne
        have hzero : ∀ q : ChangePipeline, q.control = p.control →
            e.owedBy control reaction q = 0 := by
          intro q hq
          rw [owedBy, if_neg fun hmine => hne (hmine.1.trans (hq.trans (h.own hp)))]
        rw [hzero p rfl, hzero { p with watcher := w } rfl]
        rfl
  | inquiry id =>
      obtain ⟨p, stream, hp, hstream, hinquiry⟩ := inquiryStep_of_stepInquiry? hstep
      obtain ⟨rfl, -⟩ := h.sound.inquiry hp
      have frame := hinquiry.frame hp
      refine ⟨h.sound.step hstep, fun q hq => h.immediate q ?_, fun hq => ?_, ?_⟩
      · exact (frame.watches q).1 hq
      · exact h.own ((frame.editability _).symm.trans hq)
      · rw [passes_of_inquiryFrame frame, owed_congr frame.document frame.dependencies
          (frame.editability control)]
        exact h.sum

theorem tick (h : e.Tallies control reaction n) (now : Nat) :
    (e.tick now).Tallies control reaction n where
  sound := h.sound.tick now
  immediate q hq := h.immediate q ((watches_tick e now q).1 hq)
  own hq := h.own ((editability?_tick e now _).symm.trans hq)
  sum := by
    have howed : (e.tick now).owed control reaction = e.owed control reaction :=
      owed_congr (.refl _) rfl (editability?_tick e now control)
    rw [howed]
    exact h.sum

theorem advance (h : e.Tallies control reaction n) (ms : Nat) :
    (e.advance ms).Tallies control reaction n :=
  runWithin_induction (I := fun e => e.Tallies control reaction n)
    (fun h hstep => h.step hstep) (fun now h => h.tick now) _ _ none h

/-- In a settled state nothing is owed. -/
theorem passes_of_isSettled (h : e.Tallies control reaction n) (hsettled : e.isSettled = true) :
    e.passes control reaction = n := by
  have hnone : e.owed control reaction = 0 := by
    rw [@owed_eq e control reaction [] fun q hq _ _ => ChangePipeline.unread_of_not_behind
      (not_behind_of_isSettled hsettled h.sound hq)]
    simp [Scheduler.triggers]
  have hsum := h.sum
  omega

end Tallies

end Engine

end ReactiveForm
