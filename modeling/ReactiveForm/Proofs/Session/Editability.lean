import ReactiveForm.Proofs.Recompute.Heard
import ReactiveForm.Proofs.Recompute.Work
import ReactiveForm.Proofs.Session.Runs

/-!
# Editability and visibility are up to date

Whether a control can be edited and seen is a verdict on an earlier form. Each pipeline that runs
the tests of editability watches one control. A pipeline that asks for every value is behind as long
as that control has another value than in the earlier form, and it will react.

A pipeline that asks for distinct values compares with the value that it yielded last. Another
pipeline of the same control may run the tests in the middle of a burst, and if the burst returns to
the value before it, the verdict stays about a value that is gone. This does not
happen where there are no bursts or no other pipelines: such a pipeline heeds what it watches
(`ChangeSettings.Heeds`). In a settled state the verdicts are about the present values of all that
is heeded (`Tracked.of_isSettled`).
-/

namespace ReactiveForm

/-- A pipeline with these settings notices every value that a verdict may be about: because it asks
for every value, because there are no bursts in whose middle another pipeline can run the tests, or
because it is the only one that runs them. -/
def ChangeSettings.Heeds (settings : ChangeSettings) (alone : Prop) : Prop :=
  settings.distinct = false ∨ settings.debounce = 0 ∨ alone

namespace Form

variable {f g : Form} {id : ControlId} {s s' : ControlState}

/-- The state shows the verdicts of the tests of editability and visibility. -/
def Judges (f : Form) (id : ControlId) (s : ControlState) : Prop :=
  s.enabled = (f.verdict id Property.editTests).passed ∧
    s.visible = (f.verdict id Property.viewTests).passed

theorem Judges.congr (h : f.Judges id s) (henabled : s'.enabled = s.enabled)
    (hvisible : s'.visible = s.visible) : f.Judges id s' :=
  ⟨henabled.trans h.1, hvisible.trans h.2⟩

/-- A run of the validity tests shows nothing new. -/
theorem Judges.validated (h : f.Judges id s) (g : Form) (other : ControlId) :
    f.Judges id (g.validated other s) := by
  unfold Form.validated
  cases g.property? other with
  | none => exact h
  | some p => exact h

/-- A control without a property is always shown as one that can be edited and seen. -/
theorem judges_of_property?_eq_none (hnone : f.property? id = none) :
    f.Judges id s ↔ s.enabled = true ∧ s.visible = true := by
  unfold Judges
  rw [verdict_of_property?_eq_none _ hnone, verdict_of_property?_eq_none _ hnone]
  rfl

/-- A run of the tests of editability and visibility shows their verdicts. -/
theorem judges_edited (hnone : f.property? id = none → f.Judges id s) :
    f.Judges id (f.edited id s) := by
  unfold edited
  cases hp : f.property? id with
  | none => exact hnone hp
  | some p => exact ⟨rfl, rfl⟩

theorem SameTree.judges_of_property?_eq_none (t : SameTree g f) (hnone : f.property? id = none)
    (h : f.Judges id s) : g.Judges id s := by
  rw [Form.judges_of_property?_eq_none ((t.property? id).trans hnone)]
  exact (Form.judges_of_property?_eq_none hnone).1 h

end Form

namespace Engine

variable {e e' : Engine} {control : Nat} {alone mid : Prop} {past : Form} {race : Race}

/-- What is shown of a control are the verdicts on an earlier form, and every pipeline that heeds
its control has heard of that form. -/
structure Tracks (e : Engine) (control : Nat) (alone mid : Prop) (past : Form) : Prop where
  tree : Form.SameTree past e.form
  judges : ∀ s, e.form.state? control = some s → past.Judges control s
  heard : ∀ q, e.scheduler.Watches q → q.control = control → q.reaction = .editability →
    q.watcher.settings.Heeds alone → q.Heard e.form past mid

namespace Tracks

/-- An event that leaves the document, the watchers and what is shown of the control. -/
theorem document (h : e.Tracks control alone mid past) (hdoc : Form.SameDocument e'.form e.form)
    (hstate : ∀ s', e'.form.state? control = some s' → ∃ s, e.form.state? control = some s ∧
      s'.enabled = s.enabled ∧ s'.visible = s.visible)
    (hwatches : ∀ q, e'.scheduler.Watches q → e.scheduler.Watches q) :
    e'.Tracks control alone mid past where
  tree := h.tree.trans hdoc.sameTree.symm
  judges s' hs' := by
    obtain ⟨s, hs, henabled, hvisible⟩ := hstate s' hs'
    exact (h.judges s hs).congr henabled hvisible
  heard q hq hcontrol hreaction hheeds :=
    (h.heard q (hwatches q hq) hcontrol hreaction hheeds).document hdoc

/-- A control without a property is shown in the same way all the time. -/
theorem judges_of_property?_eq_none (h : e.Tracks control alone mid past)
    (hnone : e.form.property? control = none) {s : ControlState}
    (hs : e.form.state? control = some s) : e.form.Judges control s :=
  h.tree.symm.judges_of_property?_eq_none ((h.tree.property? control).trans hnone) (h.judges s hs)

/-- A reaction of the control renews its verdicts. A pipeline that asks for distinct values and has
bursts has to be the one that has reacted. -/
theorem react (h : e.Tracks control alone True past) (fit : e.Fit) (published : e.form.Published)
    (halone : alone → ∀ d, ¬ Scheduler.DependsOn e.form control d .editability)
    {p : ChangePipeline} {v : Json} {w : Watcher} {s : Scheduler}
    (hstep : e.ChangeStep p (some v) w s) (hcontrol : p.control = control)
    (hreaction : p.reaction = .editability) :
    ({ e with scheduler := s }.reactIf { p with watcher := w } (some v).isSome).Tracks control alone
      True e.form := by
  have hdoc := sameDocument_reactIf { e with scheduler := s } { p with watcher := w } (some v)
  refine ⟨hdoc.sameTree.symm, fun s' hs' => ?_, fun q hq hqcontrol hqreaction hheeds => ?_⟩
  · rw [reactIf_some, state?_react, if_pos hcontrol.symm] at hs'
    obtain ⟨old, hold, rfl⟩ := Option.map_eq_some_iff.1 hs'
    dsimp only
    rw [hcontrol, hreaction]
    exact Form.judges_edited fun hnone => h.judges_of_property?_eq_none hnone hold
  · refine ChangePipeline.Heard.document ?_ hdoc
    -- the earlier form is now the present one, which a pipeline need not have heard of
    rcases hheeds with hall | hzero | hlone
    · exact .renew q e.form fun hdistinct => absurd hdistinct (by simp [hall])
    · exact .renew q e.form fun _ => ⟨hzero, trivial⟩
    · -- the pipeline that has reacted is the only one
      have hown := fit.own.congr (.refl e.form) hstep.outline.symm
      have hnone : ∀ q ∈ s.dependencies, q.control = control → q.reaction ≠ .editability := by
        rintro q hq rfl hqreaction
        have hdep := (fit.dependencies.congr (.refl e.form)
          hstep.outline.symm.dependencies).dependsOn q hq
        exact halone hlone q.watched (hqreaction ▸ hdep)
      obtain ⟨stream, hstream, hmove⟩ := hstep.move
      have hsame : q = { p with watcher := w } := by
        rcases (watches_reactIf _ _ _ q).1 hq with hmem | ⟨id, hid⟩
        · exact absurd hqreaction (hnone q hmem hqcontrol)
        · rcases hstep.place with hmem | ⟨id', hid', hmoved⟩
          · obtain ⟨q', hq', houtline⟩ := List.mem_map.1
              (hstep.outline.dependencies ▸ List.mem_map_of_mem hmem)
            obtain ⟨hc, -, hr, -⟩ := ChangePipeline.eq_of_outline houtline
            exact absurd (hr.trans hreaction) (hnone q' hq' (hc.trans hcontrol))
          · have heq : id = id' := (hown.editability hid).1.symm.trans
              (hqcontrol.trans (hcontrol.symm.trans (hown.editability hmoved).1))
            rw [heq] at hid
            exact Option.some.inj (hid.symm.trans hmoved)
      subst hsame
      exact .renew_self (fit.sound.watches hstep.watches) published hstream hmove trivial

/-- A step of a pipeline that runs checks. -/
theorem changeStep (h : e.Tracks control alone True past) (fit : e.Fit)
    (published : e.form.Published)
    (halone : alone → ∀ d, ¬ Scheduler.DependsOn e.form control d .editability)
    {p : ChangePipeline} {y : Option Json} {w : Watcher} {s : Scheduler}
    (hstep : e.ChangeStep p y w s) :
    ∃ past', ({ e with scheduler := s }.reactIf { p with watcher := w } y.isSome).Tracks control
      alone True past' := by
  by_cases hown : p.control = control ∧ p.reaction = .editability ∧ y ≠ none
  · obtain ⟨hcontrol, hreaction, hsome⟩ := hown
    obtain ⟨v, rfl⟩ := Option.ne_none_iff_exists'.1 hsome
    exact ⟨e.form, h.react fit published halone hstep hcontrol hreaction⟩
  · have hdoc := sameDocument_reactIf { e with scheduler := s } { p with watcher := w } y
    refine ⟨past, h.tree.trans hdoc.sameTree.symm, fun s' hs' => ?_,
      fun q hq hqcontrol hqreaction hheeds => ?_⟩
    · cases y with
      | none => exact h.judges s' hs'
      | some v =>
          rw [reactIf_some, state?_react] at hs'
          split at hs'
          · rename_i hcontrol
            obtain ⟨old, hold, rfl⟩ := Option.map_eq_some_iff.1 hs'
            cases hreaction : p.reaction with
            | validity => exact (h.judges old hold).validated _ _
            | editability => exact absurd ⟨hcontrol.symm, hreaction, by simp⟩ hown
          · exact h.judges s' hs'
    · refine ChangePipeline.Heard.document ?_ hdoc
      -- only the pipeline that has moved can know more or less than before
      rcases hstep.watches_cases ((watches_reactIf _ _ _ q).1 hq) with rfl | hq
      · obtain ⟨stream, hstream, hmove⟩ := hstep.move
        have hnone : y = none :=
          Classical.byContradiction fun hsome => hown ⟨hqcontrol, hqreaction, hsome⟩
        subst hnone
        have hheeds' : p.watcher.settings.Heeds alone := hmove.settings ▸ hheeds
        exact (h.heard p hstep.watches hqcontrol hqreaction hheeds').move
          (fit.sound.watches hstep.watches) published hstream hmove
      · exact h.heard q hq hqcontrol hqreaction hheeds

theorem step (h : e.Tracks control alone True past) (fit : e.Fit) (published : e.form.Published)
    (halone : alone → ∀ d, ¬ Scheduler.DependsOn e.form control d .editability)
    {r : PipelineRef} (hstep : e.step? r race = some e') :
    ∃ past', e'.Tracks control alone True past' := by
  cases r with
  | dependency i =>
      obtain ⟨p, y, w, s, hchange, rfl⟩ := changeStep_of_stepDependency? hstep
      exact h.changeStep fit published halone hchange
  | editability id =>
      obtain ⟨p, y, w, s, hchange, rfl⟩ := changeStep_of_stepEditability? hstep
      exact h.changeStep fit published halone hchange
  | inquiry id =>
      obtain ⟨p, stream, hp, -, hinquiry⟩ := inquiryStep_of_stepInquiry? hstep
      obtain ⟨rfl, -⟩ := fit.sound.inquiry hp
      have frame := hinquiry.frame hp
      refine ⟨past, h.document frame.document (fun s' hs' => ?_) fun q hq => ?_⟩
      · have hchecked := frame.checked control
        rw [hs'] at hchecked
        obtain ⟨s, hs, heq⟩ := Option.map_eq_some_iff.1 hchecked.symm
        have henabled := congrArg ControlState.enabled heq
        have hvisible := congrArg ControlState.visible heq
        exact ⟨s, hs, henabled.symm, hvisible.symm⟩
      · simpa only [Scheduler.Watches, frame.dependencies, frame.editability] using hq

/-- A new value leaves the pipelines behind that watch it. -/
theorem set (h : e.Tracks control alone False past) (fit : e.Fit) {id : ControlId} {v : Json}
    {f : Form} (hset : e.form.setValue id v = .ok f) :
    { e with form := f }.Tracks control alone False past where
  tree := h.tree.trans (Form.sameTree_setValue hset).symm
  judges s' hs' := by
    rw [Form.state?_of_setValue hset] at hs'
    split at hs'
    · obtain ⟨s, hs, rfl⟩ := Option.map_eq_some_iff.1 hs'
      exact (h.judges s hs).validated _ _
    · exact h.judges s' hs'
  heard q hq hcontrol hreaction hheeds :=
    (h.heard q hq hcontrol hreaction hheeds).set fit.tree (fit.sound.watches hq) hset

theorem external (h : e.Tracks control alone mid past) (id : ControlId)
    (change : List (String × String) → List (String × String)) :
    { e with
      form := e.form.modifyState id fun s =>
        { s with externalErrors := change s.externalErrors } }.Tracks control alone mid past := by
  have hdoc := Form.sameDocument_modifyState e.form id fun s =>
    { s with externalErrors := change s.externalErrors }
  refine h.document hdoc (fun s' hs' => ?_) fun q hq => hq
  rw [Form.state?_modifyState] at hs'
  split at hs'
  · obtain ⟨s, hs, rfl⟩ := Option.map_eq_some_iff.1 hs'
    exact ⟨s, hs, rfl, rfl⟩
  · exact ⟨s', hs', rfl, rfl⟩

theorem force (h : e.Tracks control alone mid past) (id : ControlId) :
    (e.force id).Tracks control alone mid past where
  tree := h.tree.trans (sameDocument_force e id).sameTree.symm
  judges s' hs' := by
    have hstate : (e.force id).form.state? control = _ :=
      Form.state?_refreshValidity e.form id control
    rw [hstate] at hs'
    split at hs'
    · obtain ⟨s, hs, rfl⟩ := Option.map_eq_some_iff.1 hs'
      exact (h.judges s hs).validated _ _
    · exact h.judges s' hs'
  heard q hq hcontrol hreaction hheeds :=
    (h.heard q ((watches_force e id q).1 hq) hcontrol hreaction hheeds).document
      (sameDocument_force e id)

theorem tick (h : e.Tracks control alone mid past) (now : Nat) :
    (e.tick now).Tracks control alone mid past where
  tree := h.tree
  judges := h.judges
  heard q hq := h.heard q ((watches_tick e now q).1 hq)

/-- Where no step is next, all pipelines without a debounce have caught up. -/
theorem settle (h : e.Tracks control alone True past) (fit : e.Fit) (published : e.form.Published)
    (hnext : e.next? none = none) : e.Tracks control alone False past where
  tree := h.tree
  judges := h.judges
  heard q hq hcontrol hreaction hheeds := by
    have hsound := fit.sound.watches hq
    refine (h.heard q hq hcontrol hreaction hheeds).settle hsound published fun hzero => ?_
    refine not_behind_of_next? hnext fit.sound hq ?_
    obtain ⟨stream, -, -, -, hw⟩ := hsound
    -- without a debounce there is no burst whose end could still be to come
    unfold Watcher.deadline?
    cases hphase : q.watcher.phase with
    | gathering v t => exact absurd hphase (hw.at_once hzero v t)
    | _ => rfl

/-- In the middle of a series of steps there may be more missing. -/
theorem midway (h : e.Tracks control alone False past) : e.Tracks control alone True past where
  tree := h.tree
  judges := h.judges
  heard q hq hcontrol hreaction hheeds :=
    have hheard := h.heard q hq hcontrol hreaction hheeds
    ⟨hheard.behind_or, fun hdistinct v hv =>
      (hheard.last hdistinct v hv).imp_right fun h => h.1.elim⟩

end Tracks

/-- What is shown of a control are the verdicts on some earlier form, and nothing in the engine is
in the way of following it. -/
structure Tracked (e : Engine) (control : Nat) (alone mid : Prop) : Prop where
  fit : e.Fit
  published : e.form.Published
  lone : alone → ∀ d, ¬ Scheduler.DependsOn e.form control d .editability
  tracks : ∃ past, e.Tracks control alone mid past

namespace Tracked

private theorem lone_congr (h : e.Tracked control alone mid) (t : Form.SameTree e'.form e.form) :
    alone → ∀ d, ¬ Scheduler.DependsOn e'.form control d .editability :=
  fun hlone d hdep => h.lone hlone d (hdep.congr t)

theorem step (h : e.Tracked control alone True) {r : PipelineRef}
    (hstep : e.step? r race = some e') : e'.Tracked control alone True where
  fit := (Event.step hstep).fit h.fit
  published := h.published.document (sameDocument_step h.fit.sound hstep)
  lone := h.lone_congr (sameDocument_step h.fit.sound hstep).sameTree
  tracks := by
    obtain ⟨past, htracks⟩ := h.tracks
    exact htracks.step h.fit h.published h.lone hstep

theorem tick (h : e.Tracked control alone mid) (now : Nat) :
    (e.tick now).Tracked control alone mid where
  fit := (Event.tick now).fit h.fit
  published := h.published
  lone := h.lone
  tracks := h.tracks.imp fun _ htracks => htracks.tick now

/-- Letting time pass leaves nothing missing. -/
theorem advance (h : e.Tracked control alone False) (ms : Nat) :
    (e.advance ms).Tracked control alone False := by
  have hmidway : e.Tracked control alone True :=
    { h with tracks := h.tracks.imp fun _ htracks => htracks.midway }
  obtain ⟨e', h', hnext, -, heq⟩ := advance_spec (I := fun e => e.Tracked control alone True)
    (fun h => h.fit.sound) (fun h => h.fit.nodup) (fun h hstep => h.step hstep)
    (fun now h _ _ => h.tick now) hmidway
  rw [heq]
  refine Tracked.tick { h' with tracks := ?_ } _
  exact h'.tracks.imp fun _ htracks => htracks.settle h'.fit h'.published hnext

theorem act (h : e.Tracked control alone False) (hact : Session.Act e e') :
    e'.Tracked control alone False := by
  cases hact with
  | none => exact h
  | set hset =>
      refine ⟨(Event.set hset).fit h.fit, h.published.setValue h.fit.tree hset,
        h.lone_congr (Form.sameTree_setValue hset), ?_⟩
      exact h.tracks.imp fun _ htracks => htracks.set h.fit hset
  | external id change =>
      have hdoc := Form.sameDocument_modifyState e.form id fun s =>
        { s with externalErrors := change s.externalErrors }
      refine ⟨(Event.external id change).fit h.fit, h.published.document hdoc,
        h.lone_congr hdoc.sameTree, ?_⟩
      exact h.tracks.imp fun _ htracks => htracks.external id change
  | force id =>
      refine ⟨(Event.force id).fit h.fit, h.published.document (sameDocument_force e id),
        h.lone_congr (sameDocument_force e id).sameTree, ?_⟩
      exact h.tracks.imp fun _ htracks => htracks.force id
  | advance ms => exact h.advance ms

/-- In a settled state the verdicts are about the present values of all that is heeded. -/
theorem of_isSettled (h : e.Tracked control alone False) (hsettled : e.isSettled = true) :
    ∃ past, Form.SameTree past e.form ∧
      (∀ s, e.form.state? control = some s → past.Judges control s) ∧
      ∀ q, e.scheduler.Watches q → q.control = control → q.reaction = .editability →
        q.watcher.settings.Heeds alone →
          q.watcher.settings.Equates (past.value q.watched) (e.form.value q.watched) := by
  obtain ⟨past, htracks⟩ := h.tracks
  refine ⟨past, htracks.tree, htracks.judges, fun q hq hcontrol hreaction hheeds => ?_⟩
  exact (htracks.heard q hq hcontrol hreaction hheeds).behind_or.resolve_left
    (not_behind_of_isSettled hsettled h.fit.sound hq)

end Tracked

end Engine

namespace Session

variable {m : Model} {data : Json} {c : Config} {control : Nat} {alone : Prop}

/-- The pipelines of a launched session have not yielded anything. -/
theorem last_of_watches_launched {q : ChangePipeline}
    (hq : (launched m data c).scheduler.Watches q) : q.watcher.last = none := by
  have hnew : ∃ reaction settings,
      Scheduler.watch? (.build m data c) q.control q.watched reaction settings = some q := by
    rcases hq with hq | ⟨id, hq⟩
    · exact ⟨_, _, (Scheduler.watch?_of_mem_rebuild hq).2⟩
    · have hown := (Scheduler.editability?_attach (Form.build m data c) id).symm.trans hq
      rw [Scheduler.ownOf?, Option.bind_map] at hown
      obtain ⟨p, -, hwatch⟩ := Option.bind_eq_some_iff.1 hown
      obtain ⟨-, hwatch⟩ := Option.ite_none_left_eq_some.1 hwatch
      obtain ⟨-, stream, -, rfl⟩ := Scheduler.watch?_eq_some hwatch
      exact ⟨_, _, hwatch⟩
  obtain ⟨reaction, settings, hwatch⟩ := hnew
  exact Scheduler.last_of_watch? hwatch

/-- At the start the verdicts are about the form itself. -/
theorem tracked_launched
    (halone : alone → ∀ d, ¬ Scheduler.DependsOn (.build m data c) control d .editability) :
    (launched m data c).Tracked control alone False where
  fit := fit_launched m data c
  published := Form.published_build m data c
  lone := halone
  tracks := by
    refine ⟨.build m data c, .refl _, fun s hs => ?_, fun q hq _ _ _ => ⟨.inr (.refl _ _), ?_⟩⟩
    · rw [Form.state?_build hs]
      refine Form.judges_edited fun hnone => Form.Judges.validated ?_ _ _
      exact (Form.judges_of_property?_eq_none hnone).2 ⟨rfl, rfl⟩
    · intro _ v hv
      rw [last_of_watches_launched hq] at hv
      cases hv

theorem tracked_run {s : Session} {e : Engine} {ops : List Op}
    (htimed : ∀ op ∈ ops, op.isTimed = true) (he : s.engine? = some e)
    (h : e.Tracked control alone False) :
    ∃ e', (s.run ops).engine? = some e' ∧ e'.Tracked control alone False := by
  induction ops generalizing s e with
  | nil => exact ⟨e, he, h⟩
  | cons op ops ih =>
      obtain ⟨e', he', hact⟩ := act_of_apply (htimed op List.mem_cons_self) he
      exact ih (fun op hop => htimed op (List.mem_cons_of_mem _ hop)) he' (h.act hact)

/-- A control with some test of editability or visibility has a pipeline for its own changes. -/
private theorem exists_watches_self {e : Engine} (fit : e.Fit)
    (htests : ¬ (e.form.testsOf control Property.editTests = [] ∧
      e.form.testsOf control Property.viewTests = [])) :
    ∃ q, e.scheduler.Watches q ∧ q.control = control ∧ q.reaction = .editability ∧
      q.watched = control ∧ q.watcher.settings = (e.form.policy control).selfEdit := by
  obtain ⟨p, hp⟩ : ∃ p, e.form.property? control = some p := by
    cases hp : e.form.property? control with
    | some p => exact ⟨p, rfl⟩
    | none => simp [Form.testsOf, hp] at htests
  have hsome : ¬ (p.editTests = [] ∧ p.viewTests = []) := by
    simpa [Form.testsOf, hp] using htests
  obtain ⟨q, hq⟩ := fit.own.exists_editability hp hsome
  obtain ⟨hcontrol, hwatched, hreaction, hsettings⟩ := fit.own.editability hq
  exact ⟨q, .inr ⟨control, hq⟩, hcontrol, hreaction, hwatched, hsettings⟩

/-- What a control depends on is watched by a pipeline of the control. -/
private theorem exists_watches_dependency {e : Engine} (fit : e.Fit) {d : ControlId}
    (hdep : Scheduler.DependsOn e.form control d .editability) :
    ∃ q, e.scheduler.Watches q ∧ q.control = control ∧ q.reaction = .editability ∧
      q.watched = d ∧ q.watcher.settings = (e.form.policy control).dependencyEdit := by
  obtain ⟨q, hmem, rfl, rfl, hreaction⟩ :=
    fit.dependencies.complete hdep (fit.contains_of_dependsOn hdep)
  refine ⟨q, .inl hmem, rfl, hreaction, rfl, ?_⟩
  rw [fit.dependencies.settings q hmem, hreaction]
  rfl

/-- What a control without any tests of editability and visibility shows is right for every value
and document. -/
private theorem judges_of_no_tests {f : Form} {past : Form} {s : ControlState}
    (t : Form.SameTree past f) (hjudges : past.Judges control s)
    (hedit : f.testsOf control Property.editTests = [])
    (hview : f.testsOf control Property.viewTests = []) : f.Judges control s := by
  unfold Form.Judges Form.verdict at hjudges ⊢
  rw [t.testsOf, t.testsOf, hedit, hview] at hjudges
  rw [hedit, hview]
  exact hjudges

/-- Whenever a session that was launched is settled, it is shown of a control whether it can be
edited and seen by its tests on some value and on some document that has this value at the control.
The value is the present one, and so are those of the document at all controls to which the paths of
the tests lead, as far as the settings make sure that a value that comes back is noticed. -/
theorem exists_verdicts_of_isSettled {ops : List Op} (htimed : ∀ op ∈ ops, op.isTimed = true)
    {s : Session} (hs : (launch m data c).run ops = s) (hsettled : s.isSettled = true)
    {state : ControlState} (hstate : s.form.state? control = some state) :
    ∃ value root, (∀ place, s.form.place? control = some place → root.place place = value) ∧
      ((s.form.policy control).selfEdit.Heeds
          (∀ d, ¬ Scheduler.DependsOn s.form control d .editability) →
        (s.form.policy control).selfEdit.Equates value (s.form.value control)) ∧
      ((s.form.policy control).dependencyEdit.Heeds False →
        ∀ d, Scheduler.DependsOn s.form control d .editability →
          ∀ place, s.form.place? d = some place →
            (s.form.policy control).dependencyEdit.Equates (root.place place)
              (s.form.rootValue.place place)) ∧
      state.enabled = (TestResults.runChecks value root
        (s.form.testsOf control Property.editTests)).results.passed ∧
      state.visible = (TestResults.runChecks value root
        (s.form.testsOf control Property.viewTests)).results.passed := by
  obtain ⟨e, he, hform, hevents, hsettled⟩ := exists_engine_of_isSettled
    (fun op hop => Op.isQuiet_of_isTimed (htimed op hop)) hs hsettled
  rw [← hform] at hstate ⊢
  have htree := hevents.sameTree (fit_launched m data c).sound
  have hstart : (launched m data c).Tracked control
      (∀ d, ¬ Scheduler.DependsOn e.form control d .editability) False :=
    tracked_launched fun hlone d hdep => hlone d (hdep.congr htree.symm)
  obtain ⟨e', he', h⟩ := tracked_run (s := launch m data c) htimed rfl hstart
  obtain rfl : e' = e := by
    rw [hs, he] at he'
    exact (Option.some.inj he').symm
  -- the value and the document are those of the form that the verdicts are about
  obtain ⟨past, hpast, hjudges, hequates⟩ := h.of_isSettled hsettled
  have hsound := h.fit.tree
  by_cases htests : e'.form.testsOf control Property.editTests = [] ∧
      e'.form.testsOf control Property.viewTests = []
  · obtain ⟨henabled, hvisible⟩ :=
      judges_of_no_tests hpast (hjudges state hstate) htests.1 htests.2
    exact ⟨e'.form.value control, e'.form.rootValue, fun place => hsound.rootValue_place,
      fun _ => .refl _ _, fun _ d _ place _ => .refl _ _, henabled, hvisible⟩
  · obtain ⟨q, hq, hcontrol, hreaction, hwatched, hsettings⟩ := exists_watches_self h.fit htests
    obtain ⟨henabled, hvisible⟩ := hjudges state hstate
    have hsoundPast := hpast.symm.soundTree hsound
    refine ⟨past.value control, past.rootValue, fun place hplace =>
      hsoundPast.rootValue_place ((hpast.place? control).trans hplace), fun hheeds => ?_,
      fun hheeds d hdep place hplace => ?_, ?_, ?_⟩
    · have hown := hequates q hq hcontrol hreaction (hsettings ▸ hheeds)
      rw [hsettings, hwatched] at hown
      exact hown
    · obtain ⟨q, hq, hcontrol, hreaction, rfl, hsettings⟩ :=
        exists_watches_dependency h.fit hdep
      have hheard := hequates q hq hcontrol hreaction
        (hsettings ▸ hheeds.imp_right fun h => h.imp_right False.elim)
      rw [hsettings] at hheard
      rw [hsoundPast.rootValue_place ((hpast.place? q.watched).trans hplace),
        hsound.rootValue_place hplace]
      exact hheard
    · rw [henabled, Form.verdict, hpast.testsOf]
    · rw [hvisible, Form.verdict, hpast.testsOf]

/-- A field that can be edited under a condition, with a policy. -/
def editedPair (p : Predicate) (policy : ChangePolicy) : Model :=
  pairModel { Property.template with
    editTests := [pairTest (some p) none]
    policy := some policy }

/-- Both slots have a debounce and ask for every value. -/
def editedPairRun : Session :=
  (launch (editedPair otherIsOne
    { ChangePolicy.immediate with dependencyEdit := ⟨100, false⟩, selfEdit := ⟨50, false⟩ })
    pairData .standard).run [.setValue 2 (.natural 2), .setValue 1 (.natural 5), .advance 1000]

/-- The dependent field is settled as one that cannot be edited, for a document with the new value.
-/
theorem exists_verdicts_editedPair :
    editedPairRun.isSettled = true ∧
      ∃ state root, editedPairRun.form.state? 1 = some state ∧
        root.place [.key "a"] = editedPairRun.form.value 1 ∧
        root.place [.key "b"] = editedPairRun.form.rootValue.place [.key "b"] ∧
        state.enabled = (TestResults.runChecks (editedPairRun.form.value 1) root
          (editedPairRun.form.testsOf 1 Property.editTests)).results.passed := by
  obtain ⟨state, hstate⟩ := Option.isSome_iff_exists.1
    (by decide +kernel : (editedPairRun.form.state? 1).isSome = true)
  obtain ⟨p, hp, hpaths⟩ := (Option.any_eq_true _ _).1
    (by decide +kernel : (editedPairRun.form.property? 1).any (fun p =>
      Scheduler.editPaths p == ["b"]) = true)
  have hdep : Scheduler.DependsOn editedPairRun.form 1 2 .editability :=
    ⟨p, "b", hp, by simp [Scheduler.pathsFor, beq_iff_eq.1 hpaths], by decide +kernel⟩
  have hown : (editedPairRun.form.policy 1).selfEdit.distinct = false := by decide +kernel
  have hpolicy : (editedPairRun.form.policy 1).dependencyEdit.distinct = false := by decide +kernel
  obtain ⟨value, root, hplace, hvalue, hagree, henabled, -⟩ :=
    @exists_verdicts_of_isSettled _ pairData .standard 1
      [.setValue 2 (.natural 2), .setValue 1 (.natural 5), .advance 1000] (by decide) editedPairRun
      rfl (by decide +kernel) state hstate
  have hexact : ∀ {settings : ChangeSettings} {v u : Json}, settings.distinct = false →
      settings.Equates v u → v = u := fun hall h => h.resolve_right fun h => by simp [hall] at h
  cases hexact hown (hvalue (.inl hown))
  exact ⟨by decide +kernel, state, root, hstate, hplace [.key "a"] (by decide +kernel),
    hexact hpolicy (hagree (.inl hpolicy) 2 hdep [.key "b"] (by decide +kernel)), henabled⟩

/-! ## A value that comes back

With distinct values and a debounce a pipeline ignores a burst that returns to the value that was
yielded last. If another pipeline has run the tests in the middle of the burst, its verdict stays.
-/

/-- What is shown of a control is wrong for its present value and for every document that has the
present values at the control and at all controls to which the paths of the tests lead. -/
def IsStale (s : Session) (control : Nat) : Prop :=
  ∃ state, s.form.state? control = some state ∧ ∀ root, s.form.AgreesAt root control →
    (∀ d, Scheduler.DependsOn s.form control d .editability → s.form.AgreesAt root d) →
      state.enabled ≠ (TestResults.runChecks (s.form.value control) root
        (s.form.testsOf control Property.editTests)).results.passed

/-- The other field goes from one to two and back. The field itself gets a new value in between. -/
def otherAndBackRun : Session :=
  (launch (editedPair otherIsOne
    { ChangePolicy.immediate with dependencyEdit := ⟨100, true⟩ }) pairData .standard).run
    [.setValue 2 (.natural 1), .advance 1000, .setValue 2 (.natural 2), .setValue 1 (.natural 5),
      .advance 50, .setValue 2 (.natural 1), .advance 1000]

/-- The field goes from one to two and back. The other field gets a new value in between. -/
def selfAndBackRun : Session :=
  (launch (editedPair (.eq (.natural 1))
    { ChangePolicy.immediate with selfEdit := ⟨100, true⟩ }) pairData .standard).run
    [.setValue 1 (.natural 1), .advance 1000, .setValue 1 (.natural 2), .setValue 2 (.natural 5),
      .advance 50, .setValue 1 (.natural 1), .advance 1000]

/-- Both kinds of pipelines can leave a verdict in place that is about a value that is gone. -/
theorem stale_verdicts :
    (otherAndBackRun.isSettled = true ∧ otherAndBackRun.IsStale 1) ∧
      selfAndBackRun.isSettled = true ∧ selfAndBackRun.IsStale 1 := by
  refine ⟨⟨by decide +kernel, ?_⟩, by decide +kernel, ?_⟩
  · obtain ⟨state, hstate, hdisabled⟩ := (Option.any_eq_true _ _).1
      (by decide +kernel : (otherAndBackRun.form.state? 1).any (fun s => !s.enabled) = true)
    obtain ⟨p, hp, hpaths⟩ := (Option.any_eq_true _ _).1
      (by decide +kernel : (otherAndBackRun.form.property? 1).any (fun p =>
        Scheduler.editPaths p == ["b"]) = true)
    have hdep : Scheduler.DependsOn otherAndBackRun.form 1 2 .editability :=
      ⟨p, "b", hp, by simp [Scheduler.pathsFor, beq_iff_eq.1 hpaths], by decide +kernel⟩
    have htests : otherAndBackRun.form.testsOf 1 Property.editTests =
        [pairTest (some otherIsOne) none] := (sameTree_of_launch (by decide)).testsOf 1 _
    refine ⟨state, hstate, fun root _ hagree => ?_⟩
    have hother : (root.place [.key "b"] == .natural 1) = true := by
      rw [hagree 2 hdep [.key "b"] (by decide +kernel)]
      decide +kernel
    rw [htests, passed_pairTest, show otherIsOne.holds _ root = true from hother]
    simpa using hdisabled
  · obtain ⟨state, hstate, hdisabled⟩ := (Option.any_eq_true _ _).1
      (by decide +kernel : (selfAndBackRun.form.state? 1).any (fun s => !s.enabled) = true)
    have htests : selfAndBackRun.form.testsOf 1 Property.editTests =
        [pairTest (some (.eq (.natural 1))) none] := (sameTree_of_launch (by decide)).testsOf 1 _
    have hself : (selfAndBackRun.form.value 1 == .natural 1) = true := by decide +kernel
    refine ⟨state, hstate, fun root _ _ => ?_⟩
    rw [htests, passed_pairTest,
      show Predicate.holds _ root (.eq (.natural 1)) = true from hself]
    simpa using hdisabled

end Session

end ReactiveForm
