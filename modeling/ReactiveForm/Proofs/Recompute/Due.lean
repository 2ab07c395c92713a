import ReactiveForm.Proofs.Recompute.Rebuild
import ReactiveForm.Proofs.Recompute.Subscribed
import ReactiveForm.Proofs.Recompute.Work

/-!
# When a pipeline is going to yield

A watcher that has values before it reacts when its debounce has passed, and one that is waiting for
the end of a burst reacts at that moment (`Watcher.due?`). How many values it has before it plays no
part, and so neither does how many of them the stream still keeps.

As long as nothing is sent the moment stays, whatever steps are made in the meantime. A step of a
pipeline yields only when its moment has come (`Engine.DueStep`), and while no pipeline can make a
step the clock does not move a moment either. New values move the moment of a pipeline to the end of
its debounce, and a rebuild leaves no moment to the pipelines that it makes.

All this is about pipelines that ask for every value: one that ignores repeated values may let its
moment pass.
-/

namespace ReactiveForm

/-! ## Watchers -/

namespace Watcher

variable {w w' : Watcher} {s : Stream Json} {v : Json} {now : Nat}

/-- The moment at which the watcher is going to yield if nothing more is sent. -/
def due? (w : Watcher) (s : Stream Json) (now : Nat) : Option Nat :=
  if w.receiver < s.sent then some (now + w.settings.debounce) else w.deadline?

theorem due?_of_lt (h : w.receiver < s.sent) (now : Nat) :
    w.due? s now = some (now + w.settings.debounce) := if_pos h

theorem due?_of_le (h : s.sent ≤ w.receiver) (now : Nat) : w.due? s now = w.deadline? :=
  if_neg (Nat.not_lt.2 h)

/-- A step that yields nothing leaves the moment as it is. -/
theorem Move.due?_of_none (hs : s.Sound) (hopen : s.closed = false)
    (hall : w.settings.distinct = false) (h : Move w now s none w') :
    w'.due? s now = w.due? s now := by
  cases h with
  | @gather v receiver hnext =>
      obtain ⟨hlt, hle⟩ := Stream.next?_bounds hs hnext
      rw [due?_of_lt (Nat.lt_of_lt_of_le hlt hle)]
      -- whether there is more to receive or not, the burst ends one debounce from now
      unfold due?
      split <;> rfl
  | ignore _ hold => simp [ignores, hall] at hold
  | finish hclosed => simp [hopen] at hclosed

/-- A watcher yields when the moment has come, and no later one is left. -/
theorem Move.due?_of_some (hs : s.Sound) (h : Move w now s (some v) w') :
    (∃ moment ≤ now, w.due? s now = some moment) ∧
      ∀ moment, w'.due? s now = some moment → moment ≤ now := by
  cases h with
  | @yield _ receiver hoffer =>
      cases hoffer with
      | value hnext hzero =>
          obtain ⟨hlt, hle⟩ := Stream.next?_bounds hs hnext
          refine ⟨⟨now, Nat.le_refl _, ?_⟩, fun moment hmoment => ?_⟩
          · rw [due?_of_lt (Nat.lt_of_lt_of_le hlt hle), hzero, Nat.add_zero]
          · unfold due? at hmoment
            split at hmoment
            · cases hmoment
              exact Nat.le_of_eq (congrArg (now + ·) hzero)
            · cases hmoment
      | @burst t hphase hdue hnone =>
          have hle := (Stream.next?_eq_none_iff hs).1 hnone
          refine ⟨⟨t, hdue, ?_⟩, fun moment hmoment => ?_⟩
          · rw [due?_of_le hle, deadline?, hphase]
          · unfold due? at hmoment
            rw [if_neg (Nat.not_lt.2 hle)] at hmoment
            cases hmoment

/-- A watcher that has to wait has received everything. -/
theorem sent_le_of_waits (hs : s.Sound) (hw : w.Sound s) (hstep : w.step? now s = none) :
    s.sent ≤ w.receiver := by
  rw [← Stream.next?_eq_none_iff hs]
  cases hnext : s.next? w.receiver with
  | none => rfl
  | some next =>
      unfold step? at hstep
      cases hphase : w.phase with
      | ended => exact absurd hphase hw.not_ended
      | idle => simp [hphase, hnext] at hstep
      | gathering latest t => simp [hphase, hnext] at hstep

theorem receiver_lt_sendTimes (hw : w.Sound s) {n : Nat} (hpos : 0 < n) :
    w.receiver < (s.sendTimes v n).sent := by
  have hle := hw.receiver_le
  rw [Stream.sent_sendTimes]
  omega

theorem due?_create (s : Stream Json) (settings : ChangeSettings) (now : Nat) :
    (create s settings).due? s now = none := due?_of_le (Nat.le_refl _) now

end Watcher

/-! ## Pipelines by their names -/

namespace Scheduler

variable {s s' : Scheduler} {f g : Form} {r : PipelineRef} {q : ChangePipeline}

/-- No pipeline that runs checks ignores repeated values. -/
def HearsAll (s : Scheduler) : Prop := ∀ q, s.Watches q → q.watcher.settings.distinct = false

/-- The pipeline of a name, if it is one that runs checks. -/
def change? (s : Scheduler) : PipelineRef → Option ChangePipeline
  | .dependency index => s.dependencies[index]?
  | .editability control => s.editability? control
  | .inquiry _ => none

theorem watches_of_change? (hq : s.change? r = some q) : s.Watches q := by
  cases r with
  | dependency i => exact .inl (List.mem_of_getElem? hq)
  | editability id => exact .inr ⟨id, hq⟩
  | inquiry id => cases hq

theorem exists_change? (hq : s.Watches q) : ∃ r, s.change? r = some q := by
  rcases hq with hq | ⟨id, hq⟩
  · obtain ⟨i, hi⟩ := List.mem_iff_getElem?.1 hq
    exact ⟨.dependency i, hi⟩
  · exact ⟨.editability id, hq⟩

theorem map_outline_change?_congr
    (hdependencies : s.dependencies.map ChangePipeline.outline =
      s'.dependencies.map ChangePipeline.outline)
    (hown : ∀ id, (s.own? id).map OwnPipelines.outline = (s'.own? id).map OwnPipelines.outline)
    (r : PipelineRef) :
    (s.change? r).map ChangePipeline.outline = (s'.change? r).map ChangePipeline.outline := by
  cases r with
  | dependency i =>
      have hget := congrArg (·[i]?) hdependencies
      simp only [List.getElem?_map] at hget
      exact hget
  | editability id => exact map_outline_editability?_congr (hown id)
  | inquiry id => rfl

theorem SameOutline.change? (h : SameOutline s s') (r : PipelineRef) :
    (s.change? r).map ChangePipeline.outline = (s'.change? r).map ChangePipeline.outline :=
  map_outline_change?_congr h.dependencies h.own r

theorem HearsAll.congr (h : s.HearsAll) (hsame : SameOutline s' s) : s'.HearsAll := by
  intro q hq
  obtain ⟨r, hr⟩ := exists_change? hq
  obtain ⟨q', hq', houtline⟩ := Option.map_eq_some_iff.1
    ((hsame.change? r).symm.trans (congrArg (Option.map _) hr))
  rw [← (ChangePipeline.eq_of_outline houtline).2.2.2]
  exact h q' (watches_of_change? hq')

/-- Schedulers for forms with the same tree have pipelines with the same names for the same. -/
theorem Subscribed.change? (hs : Subscribed f s) (hs' : Subscribed g s') (t : Form.SameTree f g)
    (r : PipelineRef) :
    (s.change? r).map ChangePipeline.outline = (s'.change? r).map ChangePipeline.outline := by
  have hmoved : Subscribed g s := hs.congr t (.refl s)
  refine map_outline_change?_congr ?_ (fun id => ?_) r
  · rw [hmoved.dependencies, hs'.dependencies]
  · rw [hmoved.own, hs'.own]

end Scheduler

namespace Engine

variable {e e' : Engine} {r : PipelineRef} {q : ChangePipeline} {s : Stream Json} {g : Form}
  {race : Race}
  {moment : Nat}

/-- The moment at which a pipeline is going to yield if nothing more is sent. -/
def due? (e : Engine) (r : PipelineRef) : Option Nat :=
  (e.scheduler.change? r).bind fun q =>
    (e.form.changes? q.watched).bind fun s => q.watcher.due? s e.clock

theorem due?_eq (hq : e.scheduler.change? r = some q) (hs : e.form.changes? q.watched = some s) :
    e.due? r = q.watcher.due? s e.clock := by
  rw [due?, hq, Option.bind_some, hs, Option.bind_some]

/-- The moments depend on the pipelines, their streams and the clock only. -/
theorem due?_congr (hpipelines : e'.scheduler.change? r = e.scheduler.change? r)
    (hstreams : ∀ id, e'.form.changes? id = e.form.changes? id) (hclock : e'.clock = e.clock) :
    e'.due? r = e.due? r := by
  rw [due?, due?, hpipelines, hclock]
  simp only [hstreams]

/-! ## Steps -/

/-- All that a step does to the pipelines that run checks and to what these have recorded. -/
inductive CheckStep (e e' : Engine) : Prop where
  /-- Nothing. -/
  | rests (hpipelines : ∀ r, e'.scheduler.change? r = e.scheduler.change? r)
      (hchecked : ∀ id, (e'.form.state? id).map ControlState.checked =
        (e.form.state? id).map ControlState.checked)
  /-- The watcher of one of them moves, and if it yields the tests of its control are run. -/
  | moves {r : PipelineRef} {q : ChangePipeline} {s : Stream Json} {y : Option Json} {w : Watcher}
      (hq : e.scheduler.change? r = some q) (hstream : e.form.changes? q.watched = some s)
      (hs : s.Sound) (hopen : s.closed = false) (hmove : q.watcher.Move e.clock s y w)
      (hpipelines : ∀ other, e'.scheduler.change? other =
        if other = r then some { q with watcher := w } else e.scheduler.change? other)
      (hstate : ∀ id, e'.form.state? id =
        if y.isSome = true ∧ id = q.control then
          (e.form.state? id).map (e.form.judged q.control q.reaction)
        else e.form.state? id)

/-- The pipelines behind a step of one of them that runs checks. -/
private theorem exists_changeStep_of_step? (hstep : e.step? r race = some e')
    (hchecks : ∀ id, r ≠ .inquiry id) :
    ∃ p y w s, e.ChangeStep p y w s ∧
      e' = { e with scheduler := s }.reactIf { p with watcher := w } y.isSome ∧
      e.scheduler.change? r = some p ∧ ∀ other, s.change? other =
        if other = r then some { p with watcher := w } else e.scheduler.change? other := by
  cases r with
  | dependency i =>
      obtain ⟨p, y, w, s, hchange, he', hp, rfl⟩ := exists_changeStep_of_stepDependency? hstep
      refine ⟨p, y, w, _, hchange, he', hp, fun other => ?_⟩
      cases other with
      | dependency j =>
          have hlt := (List.getElem?_eq_some_iff.1 hp).choose
          simp only [Scheduler.change?, List.getElem?_set, PipelineRef.dependency.injEq, eq_comm,
            hlt, if_true]
      | editability id => rfl
      | inquiry id => rfl
  | editability control =>
      obtain ⟨p, y, w, s, hchange, he', hp, rfl⟩ := exists_changeStep_of_stepEditability? hstep
      refine ⟨p, y, w, _, hchange, he', hp, fun other => ?_⟩
      cases other with
      | dependency j => rfl
      | editability id =>
          simp only [Scheduler.change?, Scheduler.editability?_setEditability hp,
            PipelineRef.editability.injEq]
      | inquiry id => rfl
  | inquiry id => exact absurd rfl (hchecks id)

theorem change?_reactIf (e : Engine) (p : ChangePipeline) (y : Option Json) (r : PipelineRef) :
    (e.reactIf p y.isSome).scheduler.change? r = e.scheduler.change? r := by
  cases r with
  | dependency i => exact congrArg (·[i]?) (dependencies_reactIf e p y)
  | editability id => exact editability?_reactIf e p y id
  | inquiry id => rfl

theorem InquiryFrame.change? {control : ControlId} (h : InquiryFrame control e e')
    (r : PipelineRef) : e'.scheduler.change? r = e.scheduler.change? r := by
  cases r with
  | dependency i => exact congrArg (·[i]?) h.dependencies
  | editability id => exact h.editability id
  | inquiry id => rfl

/-- Every step is one of these. -/
theorem checkStep_of_step? (h : e.Sound) (hstep : e.step? r race = some e') : e.CheckStep e' := by
  by_cases hchecks : ∃ id, r = .inquiry id
  · obtain ⟨id, rfl⟩ := hchecks
    obtain ⟨p, stream, hp, -, hinquiry⟩ := inquiryStep_of_stepInquiry? hstep
    obtain ⟨rfl, -⟩ := h.inquiry hp
    have frame := hinquiry.frame hp
    exact .rests frame.change? frame.checked
  · obtain ⟨p, y, w, s, hchange, he', hp, hmoved⟩ :=
      exists_changeStep_of_step? hstep fun id heq => hchecks ⟨id, heq⟩
    obtain ⟨stream, hstream, hs, hopen, -, hmove⟩ := hchange.exists_move h
    refine .moves hp hstream hs hopen hmove (fun other => ?_) fun id => ?_
    · rw [he', change?_reactIf]
      exact hmoved other
    · rw [he']
      cases y with
      | none => rw [reactIf_none, if_neg fun h => Bool.false_ne_true h.1]
      | some v =>
          rw [reactIf_some, state?_react]
          simp only [Option.isSome_some, true_and]

/-- All that a step does to the moments and to what checks have recorded. -/
inductive DueStep (e e' : Engine) : Prop where
  /-- Nothing. -/
  | waits (hdue : ∀ r, e'.due? r = e.due? r)
      (hchecked : ∀ id, (e'.form.state? id).map ControlState.checked =
        (e.form.state? id).map ControlState.checked)
  /-- A pipeline whose moment has come yields, and the tests of its control are run. -/
  | yields {r : PipelineRef} {q : ChangePipeline} {moment : Nat}
      (hq : e.scheduler.change? r = some q) (hdue : e.due? r = some moment)
      (hle : moment ≤ e.clock) (hafter : ∀ moment, e'.due? r = some moment → moment ≤ e.clock)
      (hother : ∀ other, other ≠ r → e'.due? other = e.due? other)
      (hstate : ∀ id, e'.form.state? id =
        if id = q.control then (e.form.state? id).map (e.form.judged q.control q.reaction)
        else e.form.state? id)

/-- Every step is one of these. -/
theorem dueStep_of_step? (h : e.Sound) (hall : e.scheduler.HearsAll)
    (hstep : e.step? r race = some e') : e.DueStep e' := by
  have hchanges := (sameDocument_step h hstep).changes
  have hclock := clock_step h hstep
  cases checkStep_of_step? h hstep with
  | rests hpipelines hchecked =>
      exact .waits (fun r => due?_congr (hpipelines r) hchanges hclock) hchecked
  | @moves r p stream y w hp hstream hs hopen hmove hpipelines hstate =>
      have hother : ∀ other, other ≠ r → e'.due? other = e.due? other := fun other hne =>
        due?_congr ((hpipelines other).trans (if_neg hne)) hchanges hclock
      have hbefore : e.due? r = p.watcher.due? stream e.clock := due?_eq hp hstream
      have hafter : e'.due? r = w.due? stream e.clock :=
        hclock ▸ due?_eq ((hpipelines r).trans (if_pos rfl)) ((hchanges _).trans hstream)
      cases y with
      | none =>
          refine .waits (fun other => ?_) fun id => ?_
          · by_cases heq : other = r
            · rw [heq, hafter, hbefore,
                hmove.due?_of_none hs hopen (hall p (Scheduler.watches_of_change? hp))]
            · exact hother other heq
          · rw [hstate, if_neg fun h => Bool.false_ne_true h.1]
      | some v =>
          obtain ⟨⟨moment, hle, hdue⟩, hlast⟩ := hmove.due?_of_some hs
          refine .yields hp (hbefore.trans hdue) hle (fun moment hmoment => ?_) hother fun id => ?_
          · exact hlast moment (hafter.symm.trans hmoment)
          · rw [hstate]
            simp only [Option.isSome_some, true_and]

/-! ## The clock -/

theorem change?_tick (e : Engine) (now : Nat) (r : PipelineRef) :
    (e.tick now).scheduler.change? r = e.scheduler.change? r := by
  cases r with
  | dependency i => rfl
  | editability id => exact editability?_tick e now id
  | inquiry id => rfl

theorem mem_pipelines_of_change? (hq : e.scheduler.change? r = some q) : r ∈ e.pipelines := by
  cases r with
  | dependency i =>
      have hlt := (List.getElem?_eq_some_iff.1 hq).choose
      exact List.mem_append_left _ (List.mem_map_of_mem (List.mem_range.2 hlt))
  | editability id =>
      obtain ⟨o, ho, -⟩ := Option.bind_eq_some_iff.1 hq
      refine List.mem_append_right _ (List.mem_flatMap.2 ⟨o, Scheduler.mem_own_of_own? ho, ?_⟩)
      rw [Scheduler.control_of_own? ho]
      exact List.mem_cons_self
  | inquiry id => cases hq

/-- While no pipeline can make a step, a pipeline is going to yield when its burst ends. -/
theorem due?_of_next? (h : e.Sound) (hquiet : e.next? none = none)
    (hq : e.scheduler.change? r = some q) (now : Nat) :
    ({ e with clock := now } : Engine).due? r = q.watcher.deadline? := by
  obtain ⟨stream, hstream, hs, -, hw⟩ := h.watches (Scheduler.watches_of_change? hq)
  have hwaits : q.watcher.step? e.clock stream = none := by
    rw [next?, Option.toList_none, List.nil_append, List.findSome?_eq_none_iff] at hquiet
    have hstep := hquiet r (mem_pipelines_of_change? hq)
    rw [Option.map_eq_none_iff] at hstep
    have hchange : e.stepChange? q = none := by
      cases r with
      | dependency i =>
          have hq : e.scheduler.dependencies[i]? = some q := hq
          rw [step?, stepDependency?, hq, Option.bind_some, Option.map_eq_none_iff] at hstep
          exact hstep
      | editability id =>
          have hq : (e.scheduler.own.find? (·.control == id)).bind OwnPipelines.editability =
            some q := hq
          rw [step?, stepEditability?, hq, Option.bind_some, Option.map_eq_none_iff] at hstep
          exact hstep
      | inquiry id => cases hq
    rw [stepChange?, hstream, Option.bind_some, Option.map_eq_none_iff] at hchange
    exact hchange
  rw [due?_eq (e := { e with clock := now }) hq hstream]
  exact Watcher.due?_of_le (Watcher.sent_le_of_waits hs hw hwaits) now

/-- While no pipeline can make a step the clock leaves the moments. -/
theorem due?_tick (h : e.Sound) (hquiet : e.next? none = none) (now : Nat) (r : PipelineRef) :
    (e.tick now).due? r = e.due? r := by
  have hmoved : (e.tick now).due? r = ({ e with clock := now } : Engine).due? r :=
    due?_congr (change?_tick e now r) (fun _ => rfl) rfl
  rw [hmoved]
  cases hq : e.scheduler.change? r with
  | none => rw [due?, due?, hq]; rfl
  | some q => rw [due?_of_next? h hquiet hq now, ← due?_of_next? h hquiet hq e.clock]

/-- A pipeline that is going to yield then has this moment as a deadline. -/
theorem mem_deadlines_of_due? (h : e.Sound) (hquiet : e.next? none = none)
    (hdue : e.due? r = some moment) : moment ∈ e.deadlines := by
  obtain ⟨q, hq, -⟩ := Option.bind_eq_some_iff.1 hdue
  have hdeadline := (due?_of_next? h hquiet hq e.clock).symm.trans hdue
  cases r with
  | dependency i =>
      exact List.mem_append_left _ (List.mem_filterMap.2 ⟨q, List.mem_of_getElem? hq, hdeadline⟩)
  | editability id =>
      obtain ⟨o, ho, hedit⟩ := Option.bind_eq_some_iff.1 hq
      refine List.mem_append_right _ (List.mem_flatMap.2 ⟨o, Scheduler.mem_own_of_own? ho, ?_⟩)
      refine List.mem_append_left _ (Option.mem_toList.2 ?_)
      rw [hedit]
      exact hdeadline
  | inquiry id => cases hq

/-! ## New values and new pipelines -/

/-- What a pipeline watches and how it is set up is all that decides when it is going to yield after
new values were sent. -/
theorem due?_sendTimes (h : e.Sound) {v : ControlId → Json} {n : ControlId → Nat}
    (hsent : ∀ id, g.changes? id = (e.form.changes? id).map fun s => s.sendTimes (v id) (n id))
    (r : PipelineRef) :
    ({ e with form := g } : Engine).due? r =
      ((e.scheduler.change? r).map ChangePipeline.outline).bind fun q =>
        if 0 < n q.watched then some (e.clock + q.watcher.settings.debounce) else e.due? r := by
  cases hq : e.scheduler.change? r with
  | none => rw [due?, hq]; rfl
  | some q =>
      obtain ⟨stream, hstream, -, -, hw⟩ := h.watches (Scheduler.watches_of_change? hq)
      have hstream' : g.changes? q.watched =
          some (stream.sendTimes (v q.watched) (n q.watched)) := by
        rw [hsent, hstream, Option.map_some]
      rw [due?_eq (e := { e with form := g }) hq hstream', Option.map_some, Option.bind_some,
        due?_eq hq hstream]
      split
      · rename_i hpos
        exact Watcher.due?_of_lt (Watcher.receiver_lt_sendTimes hw hpos) _
      · rename_i hzero
        have hnone : n q.watched = 0 := Nat.eq_zero_of_not_pos hzero
        rw [hnone]
        rfl

private theorem due?_of_watch? {control watched : ControlId} {reaction : Reaction}
    {settings : ChangeSettings}
    (hq : Scheduler.watch? e.form control watched reaction settings = some q)
    (hr : e.scheduler.change? r = some q) : e.due? r = none := by
  obtain ⟨-, stream, hstream, rfl⟩ := Scheduler.watch?_eq_some hq
  rw [due?_eq hr hstream]
  exact Watcher.due?_create stream settings _

/-- A pipeline that is made by a rebuild is not going to yield. The others keep their moments. -/
theorem due?_rebuild (h : e.Sound)
    (hkept : ∀ {id s}, g.contains id = true → e.form.changes? id = some s →
      g.changes? id = some s) (r : PipelineRef) :
    ({ e with form := g, scheduler := e.scheduler.rebuild g } : Engine).due? r =
      match r with
      | .editability id => if g.contains id then e.due? r else none
      | _ => none := by
  cases r with
  | dependency i =>
      cases hq : (e.scheduler.rebuild g).change? (.dependency i) with
      | none => rw [due?, hq]; rfl
      | some q =>
          have hmem : q ∈ (e.scheduler.rebuild g).dependencies := List.mem_of_getElem? hq
          exact due?_of_watch? (Scheduler.watch?_of_mem_rebuild hmem).2 hq
  | editability id =>
      have hown := Scheduler.own?_rebuild e.scheduler g id
      dsimp only
      split
      · rename_i hid
        rw [if_pos hid] at hown
        cases ho : e.scheduler.own? id with
        | some o =>
            have hsame : (e.scheduler.rebuild g).change? (.editability id) =
                e.scheduler.change? (.editability id) := by
              rw [Scheduler.change?, Scheduler.change?, Scheduler.editability?, hown, ho,
                Option.some_or, Scheduler.editability?, ho]
            cases hq : e.scheduler.change? (.editability id) with
            | none => rw [due?, due?, hsame, hq]; rfl
            | some q =>
                obtain ⟨hwatched, stream, hstream, -⟩ := h.editability hq
                have hstream' := hkept (hwatched.symm ▸ hid) hstream
                rw [due?_eq (hsame.trans hq) hstream', due?_eq hq hstream]
        | none =>
            have hnone : e.due? (.editability id) = none := by
              rw [due?, Scheduler.change?, Scheduler.editability?, ho]
              rfl
            rw [hnone]
            cases hq : (e.scheduler.rebuild g).change? (.editability id) with
            | none => rw [due?, hq]; rfl
            | some q =>
                obtain ⟨o, ho', hedit⟩ := Option.bind_eq_some_iff.1 hq
                rw [hown, ho, Option.none_or] at ho'
                obtain ⟨p, -, rfl⟩ := Option.map_eq_some_iff.1 ho'
                exact due?_of_watch? (Option.ite_none_left_eq_some.1 hedit).2 hq
      · rename_i hid
        rw [if_neg hid] at hown
        rw [due?, Scheduler.change?, Scheduler.editability?, hown]
        rfl
  | inquiry id => rfl

theorem due?_attach (f : Form) (clock : Nat) (asked : List Rule) (r : PipelineRef) :
    (⟨f, .attach f, clock, asked⟩ : Engine).due? r = none := by
  have hrebuilt := due?_rebuild (.empty f clock asked) (g := f) (fun _ hs => hs) r
  cases r with
  | editability id => exact hrebuilt.trans (ite_self _)
  | _ => exact hrebuilt

end Engine

end ReactiveForm
