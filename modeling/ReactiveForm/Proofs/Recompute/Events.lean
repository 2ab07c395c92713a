import ReactiveForm.Proofs.Recompute.Rebuild

/-!
# What happens to a form with a scheduler

While the structure of a form stays, five kinds of things can happen: a pipeline makes a step, time
passes, a field gets a new value, and callers set messages or force inquiries (`Event`). They can
follow each other in any order (`Events`). The scheduler fits the form all the time (`Fit`).

Where nothing is left to do (`isSettled`), no pipeline is behind: the watchers have received all
values and are not waiting for the end of a burst (`not_behind_of_isSettled`), and the inquiries
wait for a trigger (`waiting_of_isSettled`).
-/

namespace ReactiveForm.Engine

variable {e e' : Engine} {race : Race}

/-! ## Events -/

/-- What can happen to a form with a scheduler while its structure stays. -/
inductive Event (e : Engine) : Engine → Prop where
  /-- A pipeline makes a step, and its races end somehow. -/
  | step {r : PipelineRef} {race : Race} {e' : Engine} (hstep : e.step? r race = some e') :
      Event e e'
  /-- Time passes. -/
  | tick (now : Nat) : Event e (e.tick now)
  /-- A field gets a new value. -/
  | set {id : ControlId} {v : Json} {f : Form} (hset : e.form.setValue id v = .ok f) :
      Event e { e with form := f }
  /-- The messages of callers change. -/
  | external (id : ControlId) (change : List (String × String) → List (String × String)) :
      Event e { e with
        form := e.form.modifyState id fun s =>
          { s with externalErrors := change s.externalErrors } }
  /-- A caller forces an inquiry. -/
  | force (id : ControlId) : Event e (e.force id)

/-- One event after the other. -/
inductive Events (e : Engine) : Engine → Prop where
  | refl : Events e e
  | tail {e' e'' : Engine} (hrun : Events e e') (hevent : Event e' e'') : Events e e''

theorem Events.trans {e'' : Engine} (h : Events e e') (h' : Events e' e'') : Events e e'' := by
  induction h' with
  | refl => exact h
  | tail _ hevent ih => exact ih.tail hevent

theorem step?_of_next? {last : Option PipelineRef} {r : PipelineRef}
    (hnext : e.next? last = some (r, e')) : e.step? r .usual = some e' := by
  unfold next? at hnext
  obtain ⟨r', -, hr'⟩ := List.exists_of_findSome?_eq_some hnext
  obtain ⟨e'', hstep, heq⟩ := Option.map_eq_some_iff.1 hr'
  cases heq
  exact hstep

/-- Letting time pass keeps what steps and moves of the clock keep. -/
theorem runWithin_induction {I : Engine → Prop}
    (hstep : ∀ {e e' r race}, I e → e.step? r race = some e' → I e')
    (htick : ∀ {e} now, I e → I (e.tick now)) (n target : Nat) (last : Option PipelineRef)
    {e : Engine} (he : I e) : I (runWithin n target last e) := by
  induction n generalizing last e with
  | zero => exact htick target he
  | succ n ih =>
      unfold runWithin
      split
      · rename_i r e' hnext
        exact ih (some r) (hstep he (step?_of_next? hnext))
      · split
        · exact htick target he
        · rename_i deadline _
          split
          · exact ih none (htick deadline he)
          · exact htick target he

/-- Letting time pass is a series of steps and moves of the clock. -/
theorem events_advance (e : Engine) (ms : Nat) : Events e (e.advance ms) :=
  runWithin_induction (fun h hstep => h.tail (.step hstep)) (fun now h => h.tail (.tick now))
    _ _ none .refl

/-- Sending values to streams leaves the pipelines in order. -/
theorem Sound.sendTimes (h : e.Sound) {f : Form} {v : ControlId → Json} {n : ControlId → Nat}
    (hsent : ∀ id, f.changes? id = (e.form.changes? id).map fun s => s.sendTimes (v id) (n id)) :
    { e with form := f }.Sound where
  dependency q hq := (h.dependency q hq).sendTimes (hsent _)
  editability hq := (h.editability hq).imp_right fun hq => hq.sendTimes (hsent _)
  inquiry hp := (h.inquiry hp).imp_right fun hp => hp.sendTimes (hsent _)

theorem Sound.set (h : e.Sound) {id : ControlId} {v : Json} {f : Form}
    (hset : e.form.setValue id v = .ok f) : { e with form := f }.Sound :=
  h.sendTimes (Form.changes?_of_setValue hset)

theorem Sound.document (h : e.Sound) {f : Form} (hdoc : Form.SameDocument f e.form) :
    { e with form := f }.Sound where
  dependency q hq := (h.dependency q hq).congr (hdoc.changes _)
  editability hq := (h.editability hq).imp_right fun hq => hq.congr (hdoc.changes _)
  inquiry hp := (h.inquiry hp).imp_right fun hp => hp.congr (hdoc.changes _)

theorem inquiry?_force (e : Engine) (id other : ControlId) :
    (e.force id).scheduler.inquiry? other =
      if other = id then
        (e.scheduler.inquiry? other).map fun p => { p with requests := p.requests + 1 }
      else e.scheduler.inquiry? other := Scheduler.inquiry?_request _ id other

theorem editability?_force (e : Engine) (id other : ControlId) :
    (e.force id).scheduler.editability? other = e.scheduler.editability? other :=
  Scheduler.editability?_request _ id other

theorem watches_force (e : Engine) (id : ControlId) (q : ChangePipeline) :
    (e.force id).scheduler.Watches q ↔ e.scheduler.Watches q :=
  or_congr .rfl (exists_congr fun other => by rw [editability?_force])

theorem sameDocument_force (e : Engine) (id : ControlId) :
    Form.SameDocument (e.force id).form e.form := Form.sameDocument_refreshValidity e.form id

theorem sameOutline_force (e : Engine) (id : ControlId) :
    Scheduler.SameOutline (e.force id).scheduler e.scheduler :=
  (Scheduler.sameOutline_request _ id).trans (Scheduler.sameOutline_modifyEntry _ _ _)

theorem Sound.force (h : e.Sound) (id : ControlId) : (e.force id).Sound where
  dependency q hq := (h.dependency q hq).congr ((sameDocument_force e id).changes _)
  editability hq :=
    (h.editability ((editability?_force e id _).symm.trans hq)).imp_right fun hq =>
      hq.congr ((sameDocument_force e id).changes _)
  inquiry {other p} hp := by
    have hsame := (sameDocument_force e id).changes
    rw [inquiry?_force] at hp
    split at hp
    · obtain ⟨p', hp', rfl⟩ := Option.map_eq_some_iff.1 hp
      obtain ⟨hcontrol, hp'⟩ := h.inquiry hp'
      exact ⟨hcontrol, hp'.congr (hsame _)⟩
    · obtain ⟨hcontrol, hp⟩ := h.inquiry hp
      exact ⟨hcontrol, hp.congr (hsame _)⟩

theorem Event.sound (hevent : Event e e') (h : e.Sound) : e'.Sound := by
  cases hevent with
  | step hstep => exact h.step hstep
  | tick now => exact h.tick now
  | set hset => exact h.set hset
  | external id change => exact h.document (Form.sameDocument_modifyState _ _ _)
  | force id => exact h.force id

/-! ## What stays -/

theorem sameDocument_step (h : e.Sound) {r : PipelineRef} (hstep : e.step? r race = some e') :
    Form.SameDocument e'.form e.form := by
  cases r with
  | dependency i =>
      obtain ⟨p, y, w, s, -, rfl⟩ := changeStep_of_stepDependency? hstep
      exact sameDocument_reactIf _ _ _
  | editability id =>
      obtain ⟨p, y, w, s, -, rfl⟩ := changeStep_of_stepEditability? hstep
      exact sameDocument_reactIf _ _ _
  | inquiry id =>
      obtain ⟨p, stream, hp, -, hinquiry⟩ := inquiryStep_of_stepInquiry? hstep
      obtain ⟨rfl, -⟩ := h.inquiry hp
      exact (hinquiry.frame hp).document

theorem sameOutline_step (h : e.Sound) {r : PipelineRef} (hstep : e.step? r race = some e') :
    Scheduler.SameOutline e'.scheduler e.scheduler := by
  cases r with
  | dependency i =>
      obtain ⟨p, y, w, s, hchange, rfl⟩ := changeStep_of_stepDependency? hstep
      exact (sameOutline_reactIf _ _ _).trans hchange.outline
  | editability id =>
      obtain ⟨p, y, w, s, hchange, rfl⟩ := changeStep_of_stepEditability? hstep
      exact (sameOutline_reactIf _ _ _).trans hchange.outline
  | inquiry id =>
      obtain ⟨p, stream, hp, -, hinquiry⟩ := inquiryStep_of_stepInquiry? hstep
      obtain ⟨rfl, -⟩ := h.inquiry hp
      exact (hinquiry.frame hp).outline

theorem Event.sameTree (hevent : Event e e') (h : e.Sound) : Form.SameTree e'.form e.form := by
  cases hevent with
  | step hstep => exact (sameDocument_step h hstep).sameTree
  | tick now => exact .refl e.form
  | set hset => exact Form.sameTree_setValue hset
  | external id change =>
      dsimp only
      exact (Form.sameDocument_modifyState e.form id _).sameTree
  | force id => exact (sameDocument_force e id).sameTree

theorem Event.sameOutline (hevent : Event e e') (h : e.Sound) :
    Scheduler.SameOutline e'.scheduler e.scheduler := by
  cases hevent with
  | step hstep => exact sameOutline_step h hstep
  | tick now => exact sameOutline_tick e now
  | set hset => exact .refl _
  | external id change => exact .refl _
  | force id => exact sameOutline_force e id

theorem Events.sound (hrun : Events e e') (h : e.Sound) : e'.Sound := by
  induction hrun with
  | refl => exact h
  | tail _ hevent ih => exact hevent.sound ih

theorem Events.sameTree (hrun : Events e e') (h : e.Sound) : Form.SameTree e'.form e.form := by
  induction hrun with
  | refl => exact .refl e.form
  | tail hrun hevent ih => exact (hevent.sameTree (hrun.sound h)).trans ih

theorem Events.sameOutline (hrun : Events e e') (h : e.Sound) :
    Scheduler.SameOutline e'.scheduler e.scheduler := by
  induction hrun with
  | refl => exact .refl e.scheduler
  | tail hrun hevent ih => exact (hevent.sameOutline (hrun.sound h)).trans ih

/-- Time alone leaves the document. -/
theorem sameDocument_advance (h : e.Sound) (ms : Nat) :
    Form.SameDocument (e.advance ms).form e.form :=
  And.right (runWithin_induction (I := fun e' => e'.Sound ∧ Form.SameDocument e'.form e.form)
    (fun h hstep => ⟨h.1.step hstep, (sameDocument_step h.1 hstep).trans h.2⟩)
    (fun now h => ⟨h.1.tick now, h.2⟩) _ _ none ⟨h, .refl e.form⟩)

/-- The scheduler fits the form, and its pipelines fit the streams. -/
structure Fit (e : Engine) : Prop where
  tree : e.form.SoundTree
  sound : e.Sound
  dependencies : Scheduler.DependenciesFit e.form e.scheduler
  own : Scheduler.OwnFit e.form e.scheduler
  nodup : (e.scheduler.own.map OwnPipelines.control).Nodup

theorem Event.fit (hevent : Event e e') (h : e.Fit) : e'.Fit where
  tree := (hevent.sameTree h.sound).symm.soundTree h.tree
  sound := hevent.sound h.sound
  dependencies := h.dependencies.congr (hevent.sameTree h.sound).symm
    (hevent.sameOutline h.sound).symm.dependencies
  own := h.own.congr (hevent.sameTree h.sound).symm (hevent.sameOutline h.sound).symm
  nodup := (hevent.sameOutline h.sound).controls ▸ h.nodup

theorem Event.published (hevent : Event e e') (h : e.Fit) (published : e.form.Published) :
    e'.form.Published := by
  cases hevent with
  | step hstep => exact published.document (sameDocument_step h.sound hstep)
  | tick now => exact published
  | set hset => exact published.setValue h.tree hset
  | external id change =>
      exact published.document (Form.sameDocument_modifyState e.form id fun s =>
        { s with externalErrors := change s.externalErrors })
  | force id => exact published.document (sameDocument_force e id)

theorem Events.fit (hrun : Events e e') (h : e.Fit) : e'.Fit := by
  induction hrun with
  | refl => exact h
  | tail _ hevent ih => exact hevent.fit ih

theorem Events.published (hrun : Events e e') (h : e.Fit) (published : e.form.Published) :
    e'.form.Published := by
  induction hrun with
  | refl => exact published
  | tail hrun hevent ih => exact hevent.published (hrun.fit h) ih

/-- What a control depends on is there. -/
theorem Fit.contains_of_dependsOn (h : e.Fit) {control watched : ControlId} {reaction : Reaction}
    (hdep : Scheduler.DependsOn e.form control watched reaction) :
    e.form.contains watched = true := by
  obtain ⟨p, path, -, -, hresolve⟩ := hdep
  exact h.tree.contains_of_resolve (h.tree.contains_anchor control) hresolve

/-- A new scheduler fits the form. -/
theorem Fit.attach {f : Form} (tree : f.SoundTree) (streams : f.SoundStreams) (clock : Nat)
    (asked : List Rule) : Fit ⟨f, .attach f, clock, asked⟩ where
  tree := tree
  sound := .attach streams clock asked
  dependencies := Scheduler.dependenciesFit_attach f
  own := Scheduler.ownFit_attach f
  nodup := Scheduler.nodup_controls_attach f

/-! ## Where nothing is left to do -/

/-- Where no step is next, none of the pipelines can make one, however its races end. -/
theorem step?_eq_none_of_next? (hnext : e.next? none = none) {r : PipelineRef}
    (hr : r ∈ e.pipelines) (race : Race) : e.step? r race = none := by
  unfold next? at hnext
  simp only [Option.toList_none, List.nil_append, List.findSome?_eq_none_iff,
    Option.map_eq_none_iff] at hnext
  exact step?_eq_none_of_race (hnext r hr)

theorem next?_of_isSettled (hsettled : e.isSettled = true) : e.next? none = none := by
  unfold isSettled at hsettled
  simp only [Bool.and_eq_true, Option.isNone_iff_eq_none] at hsettled
  exact hsettled.1

theorem deadlines_of_isSettled (hsettled : e.isSettled = true) : e.deadlines = [] := by
  unfold isSettled at hsettled
  simp only [Bool.and_eq_true, List.isEmpty_iff] at hsettled
  exact hsettled.2

theorem deadline?_of_isSettled (hsettled : e.isSettled = true) {q : ChangePipeline}
    (hq : e.scheduler.Watches q) : q.watcher.deadline? = none := by
  have hdeadlines := deadlines_of_isSettled hsettled
  simp only [deadlines, List.append_eq_nil_iff, List.filterMap_eq_nil_iff,
    List.flatMap_eq_nil_iff] at hdeadlines
  rcases hq with hq | ⟨id, hq⟩
  · exact hdeadlines.1 q hq
  · obtain ⟨o, ho, hedit⟩ := Option.bind_eq_some_iff.1 hq
    have hdue := (hdeadlines.2 o (Scheduler.mem_own_of_own? ho)).1
    simpa only [hedit, Option.bind_some, Option.toList_eq_nil_iff] using hdue

theorem stepChange?_of_next? (hnext : e.next? none = none) {q : ChangePipeline}
    (hq : e.scheduler.Watches q) : e.stepChange? q = none := by
  rcases hq with hq | ⟨id, hq⟩
  · obtain ⟨i, hi, rfl⟩ := List.mem_iff_getElem.1 hq
    have hstep := step?_eq_none_of_next? hnext (r := .dependency i)
      (List.mem_append_left _ (List.mem_map_of_mem (List.mem_range.2 hi))) .usual
    simpa only [step?, stepDependency?, List.getElem?_eq_getElem hi, Option.bind_some,
      Option.map_eq_none_iff] using hstep
  · obtain ⟨o, ho, hedit⟩ := Option.bind_eq_some_iff.1 hq
    have hstep := step?_eq_none_of_next? hnext (r := .editability id)
      (List.mem_append_right _ (List.mem_flatMap.2
        ⟨o, Scheduler.mem_own_of_own? ho, by simp [Scheduler.control_of_own? ho]⟩)) .usual
    have hbind : (e.scheduler.own.find? (·.control == id)).bind OwnPipelines.editability =
        some q := hq
    simpa only [step?, stepEditability?, hbind, Option.bind_some, Option.map_eq_none_iff]
      using hstep

theorem stepInquiry?_of_next? (hnext : e.next? none = none) {id : ControlId} {p : InquiryPipeline}
    (hp : e.scheduler.inquiry? id = some p) (race : Race) : e.stepInquiry? id race = none := by
  obtain ⟨o, ho, -⟩ := Option.bind_eq_some_iff.1 hp
  exact step?_eq_none_of_next? hnext (r := .inquiry id)
    (List.mem_append_right _ (List.mem_flatMap.2
      ⟨o, Scheduler.mem_own_of_own? ho, by simp [Scheduler.control_of_own? ho]⟩)) race

/-- A pipeline with a request does not wait for anything. -/
theorem isSome_stepInquiry? (h : e.Sound) {id : ControlId} {p : InquiryPipeline}
    (hp : e.scheduler.inquiry? id = some p) (hpos : 0 < p.requests) (race : Race) :
    (e.stepInquiry? id race).isSome = true := by
  obtain ⟨rfl, s, hs, -, -, -, hphase⟩ := h.inquiry hp
  rw [Option.isSome_iff_ne_none, Ne, stepInquiry?_eq_none hp hs,
    InquiryPipeline.trigger_eq_pending]
  rintro (hended | ⟨⟨hzero, -⟩, -⟩)
  · exact hphase hended
  · omega

/-- Where no step is next, a pipeline without a deadline is not behind. -/
theorem not_behind_of_next? (hnext : e.next? none = none) (h : e.Sound) {q : ChangePipeline}
    (hq : e.scheduler.Watches q) (hdue : q.watcher.deadline? = none) : ¬ q.Behind e.form := by
  obtain ⟨s, hs, hsound, -, hw⟩ := h.watches hq
  have hstep := stepChange?_of_next? hnext hq
  simp only [stepChange?, hs, Option.bind_some, Option.map_eq_none_iff] at hstep
  rintro ⟨s', hs', hbehind⟩
  rw [hs] at hs'
  cases hs'
  exact Watcher.not_behind_of_waits hsound hw hstep hdue hbehind

/-- In a settled state no pipeline that runs checks is behind. -/
theorem not_behind_of_isSettled (hsettled : e.isSettled = true) (h : e.Sound)
    {q : ChangePipeline} (hq : e.scheduler.Watches q) : ¬ q.Behind e.form :=
  not_behind_of_next? (next?_of_isSettled hsettled) h hq (deadline?_of_isSettled hsettled hq)

/-- In a settled state every inquiry pipeline waits for a trigger, and there is none. -/
theorem waiting_of_isSettled (hsettled : e.isSettled = true) (h : e.Sound) {id : ControlId}
    {p : InquiryPipeline} (hp : e.scheduler.inquiry? id = some p) :
    p.phase = .waiting ∧ p.requests = 0 ∧ ¬ p.Unread e.form := by
  obtain ⟨rfl, s, hs, hsound, hopen, -, hphase⟩ := h.inquiry hp
  obtain ⟨o, ho, hinquiry⟩ := Option.bind_eq_some_iff.1 hp
  have hstep := stepInquiry?_of_next? (next?_of_isSettled hsettled) hp .usual
  have hdeadlines := deadlines_of_isSettled hsettled
  simp only [deadlines, List.append_eq_nil_iff, List.flatMap_eq_nil_iff] at hdeadlines
  have hdue := (hdeadlines.2 o (Scheduler.mem_own_of_own? ho)).2
  simp only [hinquiry, Option.bind_some, Option.toList_eq_nil_iff] at hdue
  have hwaiting : p.phase = .waiting := by
    cases hp' : p.phase with
    | waiting => rfl
    | ended => exact absurd hp' hphase
    | gathering t => simp [InquiryPipeline.deadline?, hp'] at hdue
    | evaluating evaluation => simp [InquiryPipeline.deadline?, hp'] at hdue
  -- a pipeline that has not ended can only be waiting because no trigger is there
  rw [stepInquiry?_eq_none hp hs, InquiryPipeline.trigger_eq_pending] at hstep
  obtain ⟨⟨hzero, hnone, -⟩, -⟩ := hstep.resolve_left hphase
  refine ⟨hwaiting, hzero, ?_⟩
  rintro ⟨s', hs', hunread⟩
  rw [hs] at hs'
  cases hs'
  have hle := (Stream.next?_eq_none_iff hsound).1 hnone
  omega

end ReactiveForm.Engine
