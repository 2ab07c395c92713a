import ReactiveForm.Proofs.Recompute.Weights

/-!
# Every step uses something up

The work that is left for the pipelines is finite, and every step lowers it (`work_lt_of_step?`): a
watcher that takes a value or ends a burst gives up more than the request that it makes is worth.
Time alone does not change the work, and when the clock reaches a deadline some pipeline can make a
step. So letting time pass never runs out of steps before it has arrived: it ends with a state in
which no pipeline can go on (`advance_spec`).
-/

namespace ReactiveForm

/-! ## One pipeline -/

namespace Watcher

variable {w w' : Watcher} {s : Stream Json} {y : Option Json} {now : Nat}

/-- What the request that a yield leads to is worth. -/
def requestWork (y : Option Json) : Nat := if y.isSome then 3 else 0

private theorem lt_work (hphase : w.phase ≠ .ended) :
    5 * s.unread w.receiver < w.work s 5 4 := by
  unfold work
  cases hw : w.phase with
  | ended => exact absurd hw hphase
  | idle => exact Nat.lt_succ_self _
  | gathering v t =>
      dsimp only
      omega

/-- A step of a watcher gives up more than what it yields is worth. -/
theorem Move.work_lt (hs : s.Sound) (hphase : w.phase ≠ .ended) (h : Move w now s y w') :
    w'.work s 5 4 + requestWork y < w.work s 5 4 := by
  have hwork := lt_work (s := s) hphase
  cases h with
  | gather hnext =>
      have hunread := Stream.unread_of_next? hs hnext
      simp [work, requestWork] at hwork ⊢
      omega
  | yield hoffer =>
      cases hoffer with
      | value hnext =>
          have hunread := Stream.unread_of_next? hs hnext
          simp [work, requestWork] at hwork ⊢
          omega
      | burst hgathering => simp [work, requestWork, hgathering]
  | ignore hoffer =>
      cases hoffer with
      | value hnext =>
          have hunread := Stream.unread_of_next? hs hnext
          simp [work, requestWork] at hwork ⊢
          omega
      | burst hgathering => simp [work, requestWork, hgathering]
  | finish =>
      simp [work, requestWork] at hwork ⊢
      omega

end Watcher

namespace InquiryPipeline

variable {p p' : InquiryPipeline} {s : Stream Json}

theorem work_eq (hphase : p.phase ≠ .ended) :
    p.work s = 3 * (s.unread p.receiver + p.requests) + p.phase.weight := by
  unfold work
  cases hp : p.phase with
  | ended => exact absurd hp hphase
  | _ => rfl

theorem Takes.unread_add_requests (hs : s.Sound) (h : p.Takes s p') :
    s.unread p'.receiver + p'.requests + 1 = s.unread p.receiver + p.requests := by
  cases h with
  | request hpos =>
      dsimp only
      omega
  | change hnext =>
      have hunread := Stream.unread_of_next? hs hnext
      dsimp only
      omega

/-- A step of the pipeline gives up a trigger, or what its phase is worth. -/
theorem work_lt (hs : s.Sound) (hphase : p.phase ≠ .ended) {phase : InquiryPhase}
    (hphase' : phase ≠ .ended)
    (hused : p.Takes s p' ∨ p' = p ∧ phase.weight < p.phase.weight) :
    InquiryPipeline.work { p' with phase } s < p.work s := by
  rw [work_eq hphase, work_eq (p := { p' with phase }) hphase']
  dsimp only
  rcases hused with htakes | ⟨rfl, hlt⟩
  · have hqueued := htakes.unread_add_requests hs
    have hpos : 0 < p.phase.weight := by
      cases hp : p.phase with
      | ended => exact absurd hp hphase
      | _ => exact Nat.succ_pos _
    -- a trigger is worth three, as much as any phase that it may lead to
    have hle : phase.weight ≤ 3 := by
      cases phase <;> simp [InquiryPhase.weight]
    omega
  · omega

end InquiryPipeline

namespace Engine

variable {e e' : Engine} {control : ControlId} {race : Race}

/-! ## All pipelines -/

/-- The work is the sum of what the pipelines still have to do. -/
theorem work_eq (e : Engine) : e.work = e.scheduler.weight ⟨e.changeWork, e.inquiryWork⟩ :=
  (Scheduler.weight_own e.scheduler ⟨e.changeWork, e.inquiryWork⟩).symm

theorem work_congr (hdoc : Form.SameDocument e'.form e.form) :
    e'.work = e'.scheduler.weight ⟨e.changeWork, e.inquiryWork⟩ := by
  have hchange : e'.changeWork = e.changeWork := by
    funext p
    rw [changeWork, changeWork, hdoc.changes]
  have hinquiry : e'.inquiryWork = e.inquiryWork := by
    funext p
    rw [inquiryWork, inquiryWork, hdoc.changes]
  rw [work_eq, hchange, hinquiry]

theorem changeWork_eq {p : ChangePipeline} {stream : Stream Json}
    (hs : e.form.changes? p.watched = some stream) (w : Watcher) :
    e.changeWork { p with watcher := w } = w.work stream 5 4 := by
  rw [changeWork, hs]

theorem inquiryWork_eq {p : InquiryPipeline} {stream : Stream Json}
    (hs : e.form.changes? p.control = some stream) : e.inquiryWork p = p.work stream := by
  rw [inquiryWork, hs]

/-- A request adds no more work than a trigger can make. -/
private theorem inquiryWork_request (e : Engine) (p : InquiryPipeline) :
    e.inquiryWork { p with requests := p.requests + 1 } ≤ e.inquiryWork p + 3 := by
  unfold inquiryWork
  cases e.form.changes? p.control with
  | none => exact Nat.zero_le _
  | some stream =>
      simp only [InquiryPipeline.work]
      cases p.phase <;> dsimp only <;> omega

/-- Every step lowers the work. -/
theorem work_lt_of_step? (hnodup : (e.scheduler.own.map OwnPipelines.control).Nodup)
    (h : e.Sound) {r : PipelineRef} (hstep : e.step? r race = some e') : e'.work < e.work := by
  have hdoc := sameDocument_step h hstep
  rw [work_congr hdoc, work_eq]
  cases moves_of_step? hnodup h hstep with
  | @change p y w s hchange hweight =>
      -- the moved pipeline gives up more than its reaction requests
      obtain ⟨stream, hstream, hs, -, hw, hmove⟩ := hchange.exists_move h
      have hlt := hmove.work_lt hs hw.not_ended
      have hbefore : e.changeWork p = p.watcher.work stream 5 4 := changeWork_eq hstream p.watcher
      have hafter := changeWork_eq hstream w
      have hmoved := hweight ⟨e.changeWork, e.inquiryWork⟩
      have hnodup' : (s.own.map OwnPipelines.control).Nodup := hchange.outline.controls ▸ hnodup
      have hreact := weight_reactIf (e := { e with scheduler := s })
        (w := ⟨e.changeWork, e.inquiryWork⟩) hnodup' (inquiryWork_request e)
        { p with watcher := w } y
      unfold Watcher.requestWork at hlt
      dsimp only at hmoved hreact
      split at hreact
      · rename_i hrequests
        rw [if_pos hrequests.1] at hlt
        omega
      · omega
  | inquiry hstep' hp hp' hframe hweight =>
      obtain ⟨q, stream, hq, hstream, hinquiry⟩ := inquiryStep_of_stepInquiry? hstep'
      rw [hp] at hq
      cases hq
      obtain ⟨-, stream', hstream', hs, hopen, -, hphase⟩ := h.inquiry hp
      rw [hstream] at hstream'
      cases hstream'
      obtain ⟨p', phase, hused, hphase', hq'⟩ := hinquiry.exists_inquiry? hp hopen
      rw [hp'] at hq'
      cases hq'
      have hcontrol : p'.control = _ := hused.elim (·.control) (·.1 ▸ rfl)
      have hafter :
          e.inquiryWork { p' with phase } = InquiryPipeline.work { p' with phase } stream :=
        inquiryWork_eq (hcontrol ▸ hstream)
      have hbefore := inquiryWork_eq (e := e) hstream
      have hlt := InquiryPipeline.work_lt hs hphase hphase' hused
      have hmoved := hweight ⟨e.changeWork, e.inquiryWork⟩
      dsimp only at hmoved
      omega

/-! ## The clock -/

theorem work_tick (e : Engine) (now : Nat) : (e.tick now).work = e.work := by
  have hdoc : Form.SameDocument (e.tick now).form e.form := .refl e.form
  have hinquiry : ∀ p : InquiryPipeline, e.inquiryWork (p.tick now) = e.inquiryWork p := by
    intro p
    rw [InquiryPipeline.tick_eq]
    unfold inquiryWork InquiryPipeline.work
    cases p.phase <;> rfl
  rw [work_congr hdoc, weight_tick, work_eq]
  simp only [hinquiry]

/-- A pipeline that is waiting for the end of a burst can make a step when it is time. -/
private theorem exists_stepChange? {p : ChangePipeline} {moment : Nat} (hp : p.Sound e.form)
    (hdue : p.watcher.deadline? = some moment) (hle : moment ≤ e.clock) :
    ∃ next, e.stepChange? p = some next := by
  obtain ⟨stream, hs, -, -, -⟩ := hp
  unfold Watcher.deadline? at hdue
  cases hphase : p.watcher.phase with
  | gathering v t =>
      rw [hphase] at hdue
      cases hdue
      rw [stepChange?, hs, Option.bind_some, ← Option.isSome_iff_exists, Option.isSome_map,
        Watcher.step?, hphase]
      dsimp only
      cases stream.next? p.watcher.receiver with
      | some next => rfl
      | none =>
          dsimp only
          split <;> simp
  | _ => simp [hphase] at hdue

/-- An inquiry pipeline that is waiting for a moment can make a step when it has come. -/
private theorem exists_stepInquiry? {id : ControlId} {p : InquiryPipeline} {moment : Nat}
    (h : e.Sound) (hp : e.scheduler.inquiry? id = some p) (hdue : p.deadline? = some moment)
    (hle : moment ≤ e.clock) : ∃ e', e.stepInquiry? id race = some e' := by
  obtain ⟨rfl, stream, hs, -, -, -, hphase⟩ := h.inquiry hp
  refine Option.ne_none_iff_exists'.1 fun hnone => ?_
  rw [stepInquiry?_eq_none hp hs] at hnone
  have hlater := (hnone.resolve_left hphase).2 moment hdue
  omega

/-- When a deadline has come, some pipeline can make a step. -/
theorem isSome_next?_of_deadline (hnodup : (e.scheduler.own.map OwnPipelines.control).Nodup)
    (h : e.Sound) {moment : Nat} (hdue : moment ∈ e.deadlines) (hle : moment ≤ e.clock) :
    (e.next? none).isSome = true := by
  obtain ⟨r, hr, e', hstep⟩ : ∃ r ∈ e.pipelines, ∃ e', e.step? r .usual = some e' := by
    rcases List.mem_append.1 hdue with hmem | hmem
    · obtain ⟨p, hp, hdue⟩ := List.mem_filterMap.1 hmem
      obtain ⟨i, hi, rfl⟩ := List.mem_iff_getElem.1 hp
      obtain ⟨next, hnext⟩ := exists_stepChange? (h.dependency _ hp) hdue hle
      refine ⟨.dependency i, List.mem_append_left _ (List.mem_map_of_mem (List.mem_range.2 hi)), ?_⟩
      simp [step?, stepDependency?, List.getElem?_eq_getElem hi, hnext]
    · obtain ⟨o, ho, hmem⟩ := List.mem_flatMap.1 hmem
      have hown := Scheduler.own?_of_mem hnodup ho
      rcases List.mem_append.1 hmem with hmem | hmem
      · obtain ⟨p, hp, hdue⟩ := Option.bind_eq_some_iff.1 (Option.mem_toList.1 hmem)
        have hedit : e.scheduler.editability? o.control = some p := by
          rw [Scheduler.editability?, hown, Option.bind_some, hp]
        obtain ⟨next, hnext⟩ := exists_stepChange? (h.editability hedit).2 hdue hle
        refine ⟨.editability o.control, List.mem_append_right _
          (List.mem_flatMap.2 ⟨o, ho, by simp⟩), ?_⟩
        have hbind : (e.scheduler.own.find? (·.control == o.control)).bind
            OwnPipelines.editability = some p := hedit
        simp [step?, stepEditability?, hbind, hnext]
      · obtain ⟨p, hp, hdue⟩ := Option.bind_eq_some_iff.1 (Option.mem_toList.1 hmem)
        have hinquiry : e.scheduler.inquiry? o.control = some p := by
          rw [Scheduler.inquiry?_eq, hown, Option.bind_some, hp]
        exact ⟨.inquiry o.control, List.mem_append_right _
          (List.mem_flatMap.2 ⟨o, ho, by simp⟩), exists_stepInquiry? h hinquiry hdue hle⟩
  rw [next?, Option.toList_none, List.nil_append, List.findSome?_isSome_iff]
  exact ⟨r, hr, by simp [hstep]⟩

/-- While no pipeline can make a step all deadlines are still to come. -/
theorem clock_lt_of_mem_deadlines (hnodup : (e.scheduler.own.map OwnPipelines.control).Nodup)
    (h : e.Sound) (hnext : e.next? none = none) {moment : Nat} (hdue : moment ∈ e.deadlines) :
    e.clock < moment := by
  refine Nat.lt_of_not_le fun hle => ?_
  have hsome := isSome_next?_of_deadline hnodup h hdue hle
  simp [hnext] at hsome

theorem deadlines_tick (e : Engine) (now : Nat) : (e.tick now).deadlines = e.deadlines := by
  unfold deadlines tick
  dsimp only
  rw [List.flatMap_map]
  refine congrArg _ (congrArg (fun f => List.flatMap f e.scheduler.own) (funext fun o => ?_))
  dsimp only
  rw [Option.bind_map]
  refine congrArg (fun f => _ ++ (o.inquiry.bind f).toList) (funext fun p => ?_)
  rw [Function.comp_apply, InquiryPipeline.tick_eq, InquiryPipeline.deadline?,
    InquiryPipeline.deadline?]
  cases p.phase <;> rfl

/-! ## Letting time pass -/

theorem next?_none_of_next? {last : Option PipelineRef} (hnext : e.next? last = none) :
    e.next? none = none := by
  unfold next? at hnext ⊢
  rw [List.findSome?_append, Option.or_eq_none_iff] at hnext
  simpa using hnext.2

/-- As many further steps and moves of the clock are enough for the work that is left. Of each two
of them one is a step, and one less is needed where the next one is. -/
def Affords (e : Engine) (last : Option PipelineRef) (n : Nat) : Prop :=
  2 * e.work < n ∨ 2 * e.work ≤ n ∧ (e.next? last).isSome = true

theorem not_affords_zero (hnodup : (e.scheduler.own.map OwnPipelines.control).Nodup) (h : e.Sound)
    (last : Option PipelineRef) : ¬ e.Affords last 0 := by
  rintro (hlt | ⟨hle, hsome⟩)
  · exact Nat.not_lt_zero _ hlt
  · obtain ⟨⟨r, e'⟩, hnext⟩ := Option.isSome_iff_exists.1 hsome
    have hlt := work_lt_of_step? hnodup h (step?_of_next? hnext)
    omega

theorem Affords.step {last : Option PipelineRef} {n : Nat} (hn : e.Affords last (n + 1))
    (hnodup : (e.scheduler.own.map OwnPipelines.control).Nodup) (h : e.Sound) {r : PipelineRef}
    (hstep : e.step? r race = some e') : e'.Affords (some r) n := by
  have hlt := work_lt_of_step? hnodup h hstep
  unfold Affords at hn
  exact .inl (by omega)

theorem Affords.tick {last : Option PipelineRef} {n deadline : Nat} (hn : e.Affords last (n + 1))
    (hnodup : (e.scheduler.own.map OwnPipelines.control).Nodup) (h : e.Sound)
    (hnext : e.next? last = none) (hdue : e.nextDeadline? = some deadline) :
    (e.tick deadline).Affords none n := by
  -- a pipeline has been waiting for this moment, so the next turn makes a step
  have hmem : (e.tick deadline).clock ∈ (e.tick deadline).deadlines := by
    rw [deadlines_tick]
    exact List.min?_mem hdue
  have hsome := isSome_next?_of_deadline ((sameOutline_tick e deadline).controls ▸ hnodup)
    (h.tick deadline) hmem (Nat.le_refl _)
  have hwork := work_tick e deadline
  rcases hn with hlt | ⟨-, hnot⟩
  · exact .inr ⟨by omega, hsome⟩
  · simp [hnext] at hnot

section Passing

variable {I : Engine → Prop} {target : Nat} (hsound : ∀ {e}, I e → e.Sound)
  (hnodup : ∀ {e}, I e → (e.scheduler.own.map OwnPipelines.control).Nodup)
  (hstep : ∀ {e e' r race}, I e → e.step? r race = some e' → I e')
  (htick : ∀ {e} now, I e → e.next? none = none → now ≤ target → I (e.tick now))

include hsound hnodup hstep htick

/-- With enough steps a run goes on until no pipeline can make a step up to the moment at which it
is to stop, and then the clock moves there. The clock moves only while no pipeline can make a step,
and after a move there is a step. -/
theorem runWithin_spec {n : Nat} {last : Option PipelineRef} {e : Engine} (he : I e)
    (hn : e.Affords last n) :
    ∃ e', I e' ∧ e'.next? none = none ∧ (∀ moment ∈ e'.deadlines, target < moment) ∧
      runWithin n target last e = e'.tick target := by
  induction n generalizing last e with
  | zero => exact absurd hn (not_affords_zero (hnodup he) (hsound he) last)
  | succ n ih =>
      unfold runWithin
      cases hnext : e.next? last with
      | some next =>
          obtain ⟨r, e'⟩ := next
          have hr := step?_of_next? hnext
          exact ih (hstep he hr) (hn.step (hnodup he) (hsound he) hr)
      | none =>
          have hquiet := next?_none_of_next? hnext
          dsimp only
          cases hdue : e.nextDeadline? with
          | none =>
              have hnil : e.deadlines = [] := List.min?_eq_none_iff.1 hdue
              exact ⟨e, he, hquiet, by simp [hnil], rfl⟩
          | some deadline =>
              dsimp only
              split
              · rename_i hle
                exact ih (htick deadline he hquiet hle)
                  (hn.tick (hnodup he) (hsound he) hnext hdue)
              · rename_i hlater
                have hfirst := (List.min?_eq_some_iff.1 hdue).2
                refine ⟨e, he, hquiet, fun moment hmoment => ?_, rfl⟩
                exact Nat.lt_of_lt_of_le (Nat.lt_of_not_le hlater) (hfirst moment hmoment)

end Passing

/-- Letting time pass leaves no pipeline that could have made a step, and none that was to go on. -/
theorem advance_spec {I : Engine → Prop} {e : Engine} {ms : Nat} (hsound : ∀ {e}, I e → e.Sound)
    (hnodup : ∀ {e}, I e → (e.scheduler.own.map OwnPipelines.control).Nodup)
    (hstep : ∀ {e e' r race}, I e → e.step? r race = some e' → I e')
    (htick : ∀ {e'} now, I e' → e'.next? none = none → now ≤ e.clock + ms → I (e'.tick now))
    (he : I e) :
    ∃ e', I e' ∧ e'.next? none = none ∧ (∀ moment ∈ e'.deadlines, e.clock + ms < moment) ∧
      e.advance ms = e'.tick (e.clock + ms) :=
  runWithin_spec hsound hnodup hstep htick he (.inl (Nat.lt_succ_self _))

end Engine

end ReactiveForm
