import ReactiveForm.Proofs.Recompute.Coverage
import ReactiveForm.Proofs.Session.Runs

/-!
# Validity by checks is up to date

What a control has recorded about its validity by checks is the verdict on an earlier form, in which
the control had its present value (`Recorded`). A new value of the control or of something below it
makes a new verdict at once. A new value of a dependency leaves a pipeline behind, which makes a new
verdict when it reacts. So the dependencies are covered in that form (`SyncCovered`).

In a settled state no pipeline is behind. So the verdict is about the present values of the control
and of all its dependencies (`SyncCovered.of_isSettled`). The rest of the document may have changed
since then.
-/

namespace ReactiveForm

namespace Form

variable {f : Form} {id : ControlId} {s : ControlState}

/-- A control without a property has nothing to be recorded about. -/
theorem errors?_verdict_of_property?_eq_none (hnone : f.property? id = none) :
    (f.verdict id Property.validTests).errors? = none := by
  rw [verdict_of_property?_eq_none _ hnone]
  rfl

/-- A run of the validity tests records the verdict. -/
theorem syncErrors_validated (hnone : f.property? id = none → s.syncErrors = none) :
    (f.validated id s).syncErrors = (f.verdict id Property.validTests).errors? := by
  cases hp : f.property? id with
  | none =>
      rw [errors?_verdict_of_property?_eq_none hp, validated, hp]
      exact hnone hp
  | some p => rw [validated, hp]

theorem syncErrors_edited : (f.edited id s).syncErrors = s.syncErrors := by
  unfold edited
  cases f.property? id <;> rfl

end Form

namespace Engine

variable {e e' : Engine} {control : Nat} {race : Race}

/-- What is recorded about the validity of a control by checks is the verdict on an earlier form, of
which something holds and in which the control had its present value. -/
def Recorded (e : Engine) (control : Nat) (X : Form → Prop) : Prop :=
  ∃ past, Form.SameTree past e.form ∧ past.value control = e.form.value control ∧
    (∀ s, e.form.state? control = some s →
      s.syncErrors = (past.verdict control Property.validTests).errors?) ∧ X past

namespace Recorded

variable {X X' : Form → Prop}

/-- A verdict on the present form. -/
theorem renew (hread : X e.form) (hrecorded : ∀ s, e.form.state? control = some s →
    s.syncErrors = (e.form.verdict control Property.validTests).errors?) : e.Recorded control X :=
  ⟨e.form, .refl e.form, rfl, hrecorded, hread⟩

/-- Nothing is recorded about a control without a property. -/
theorem syncErrors_eq_none (h : e.Recorded control X) {s : ControlState}
    (hs : e.form.state? control = some s) (hnone : e.form.property? control = none) :
    s.syncErrors = none := by
  obtain ⟨past, htree, -, hrecorded, -⟩ := h
  rw [hrecorded s hs,
    Form.errors?_verdict_of_property?_eq_none ((htree.property? control).trans hnone)]

/-- An event that leaves the document and what is recorded about the control. -/
theorem document (h : e.Recorded control X) (hdoc : Form.SameDocument e'.form e.form)
    (hkept : ∀ s', e'.form.state? control = some s' →
      ∃ s, e.form.state? control = some s ∧ s'.syncErrors = s.syncErrors)
    (hkeep : ∀ past, X past → X' past) : e'.Recorded control X' := by
  obtain ⟨past, htree, hvalue, hrecorded, hX⟩ := h
  refine ⟨past, htree.trans hdoc.sameTree.symm, hvalue.trans (hdoc.value control).symm, ?_,
    hkeep past hX⟩
  intro s' hs'
  obtain ⟨s, hs, heq⟩ := hkept s' hs'
  exact heq.trans (hrecorded s hs)

/-- A pipeline that runs checks makes a step. Its reaction may renew the verdict. -/
theorem changeStep (h : e.Recorded control X) {p : ChangePipeline} {y : Option Json} {w : Watcher}
    {s : Scheduler} (hstep : e.ChangeStep p y w s)
    (hkeep : ({ e with scheduler := s }.reactIf { p with watcher := w } y.isSome).passes control
      .validity = e.passes control .validity → ∀ past, X past → X' past)
    (hread : e.passes control .validity <
      ({ e with scheduler := s }.reactIf { p with watcher := w } y.isSome).passes control
        .validity → X' ({ e with scheduler := s }.reactIf { p with watcher := w } y.isSome).form) :
    ({ e with scheduler := s }.reactIf { p with watcher := w } y.isSome).Recorded control X' := by
  have hdoc := sameDocument_reactIf { e with scheduler := s } { p with watcher := w } y
  have hpasses := passes_changeStep hstep control .validity
  cases y with
  | none => exact h.document hdoc (fun s' hs' => ⟨s', hs', rfl⟩) (hkeep (by simpa using hpasses))
  | some v =>
      rw [reactIf_some] at hdoc hpasses hkeep hread ⊢
      -- the control has reacted itself, or something else has reacted and leaves its verdict
      by_cases hown : p.control = control ∧ p.reaction = .validity
      · obtain ⟨rfl, hreaction⟩ := hown
        rw [if_pos ⟨rfl, rfl, hreaction⟩] at hpasses
        refine renew (hread (by omega)) fun s' hs' => ?_
        rw [state?_react, if_pos rfl, hreaction] at hs'
        obtain ⟨s, hs, rfl⟩ := Option.map_eq_some_iff.1 hs'
        rw [hdoc.verdict]
        exact Form.syncErrors_validated (h.syncErrors_eq_none hs)
      · rw [if_neg fun hreacts => hown ⟨hreacts.2.1.symm, hreacts.2.2⟩] at hpasses
        refine h.document hdoc (fun s' hs' => ?_) (hkeep hpasses)
        rw [state?_react] at hs'
        split at hs'
        · rename_i hcontrol
          obtain ⟨s, hs, rfl⟩ := Option.map_eq_some_iff.1 hs'
          refine ⟨s, hs, ?_⟩
          cases hreaction : p.reaction with
          | validity => exact absurd ⟨hcontrol.symm, hreaction⟩ hown
          | editability => exact Form.syncErrors_edited
        · exact ⟨s', hs', rfl⟩

theorem step (h : e.Recorded control X) (sound : e.Sound) {r : PipelineRef}
    (hstep : e.step? r race = some e')
    (hkeep : e'.passes control .validity = e.passes control .validity →
      ∀ past, X past → X' past)
    (hread : e.passes control .validity < e'.passes control .validity → X' e'.form) :
    e'.Recorded control X' := by
  cases r with
  | dependency i =>
      obtain ⟨p, y, w, s, hchange, rfl⟩ := changeStep_of_stepDependency? hstep
      exact h.changeStep hchange hkeep hread
  | editability id =>
      obtain ⟨p, y, w, s, hchange, rfl⟩ := changeStep_of_stepEditability? hstep
      exact h.changeStep hchange hkeep hread
  | inquiry id =>
      obtain ⟨p, stream, hp, -, hinquiry⟩ := inquiryStep_of_stepInquiry? hstep
      obtain ⟨rfl, -⟩ := sound.inquiry hp
      have frame := hinquiry.frame hp
      refine h.document frame.document (fun s' hs' => ?_)
        (hkeep (passes_of_inquiryFrame frame control .validity))
      have hchecked := frame.checked control
      rw [hs'] at hchecked
      obtain ⟨s, hs, heq⟩ := Option.map_eq_some_iff.1 hchecked.symm
      have hsync := congrArg ControlState.syncErrors heq
      exact ⟨s, hs, hsync.symm⟩

/-- A new value makes a new verdict on the control, or leaves it as it was. -/
theorem set (h : e.Recorded control X) (tree : e.form.SoundTree) {id : ControlId} {v : Json}
    {f : Form} (hset : e.form.setValue id v = .ok f)
    (hkeep : control ∉ e.form.lineage id → ∀ past, X past → X' past)
    (hread : control ∈ e.form.lineage id → X' f) :
    { e with form := f }.Recorded control X' := by
  have htree := Form.sameTree_setValue hset
  -- the tests are run along the whole lineage; anything else keeps its value and its verdict
  by_cases hmem : control ∈ e.form.lineage id
  · refine renew (hread hmem) fun s' hs' => ?_
    rw [Form.state?_of_setValue hset, if_pos hmem] at hs'
    obtain ⟨s, hs, rfl⟩ := Option.map_eq_some_iff.1 hs'
    exact Form.syncErrors_validated fun hnone =>
      h.syncErrors_eq_none hs ((htree.property? control).symm.trans hnone)
  · obtain ⟨past, hpast, hvalue, hrecorded, hX⟩ := h
    refine ⟨past, hpast.trans htree.symm, ?_, fun s' hs' => ?_, hkeep hmem past hX⟩
    · exact hvalue.trans (Form.value_of_setValue hset tree hmem).symm
    · rw [Form.state?_of_setValue hset, if_neg hmem] at hs'
      exact hrecorded s' hs'

theorem external (h : e.Recorded control X) (id : ControlId)
    (change : List (String × String) → List (String × String))
    (hkeep : ∀ past, X past → X' past) :
    { e with
      form := e.form.modifyState id fun s =>
        { s with externalErrors := change s.externalErrors } }.Recorded control X' := by
  have hdoc := Form.sameDocument_modifyState e.form id fun s =>
    { s with externalErrors := change s.externalErrors }
  refine h.document hdoc (fun s' hs' => ?_) hkeep
  rw [Form.state?_modifyState] at hs'
  split at hs'
  · obtain ⟨s, hs, rfl⟩ := Option.map_eq_some_iff.1 hs'
    exact ⟨s, hs, rfl⟩
  · exact ⟨s', hs', rfl⟩

theorem force (h : e.Recorded control X) (id : ControlId)
    (hkeep : control ≠ id → ∀ past, X past → X' past)
    (hread : control = id → X' (e.force id).form) : (e.force id).Recorded control X' := by
  have hdoc := sameDocument_force e id
  have hstate : ∀ other, (e.force id).form.state? other =
      if other = id then (e.form.state? other).map (e.form.validated id)
      else e.form.state? other := Form.state?_refreshValidity e.form id
  by_cases hid : control = id
  · refine renew (hread hid) fun s' hs' => ?_
    rw [hstate, if_pos hid] at hs'
    subst hid
    obtain ⟨s, hs, rfl⟩ := Option.map_eq_some_iff.1 hs'
    rw [hdoc.verdict]
    exact Form.syncErrors_validated (h.syncErrors_eq_none hs)
  · refine h.document hdoc (fun s' hs' => ?_) (hkeep hid)
    rw [hstate, if_neg hid] at hs'
    exact ⟨s', hs', rfl⟩

end Recorded

/-- What is recorded about the validity of a control by checks is the verdict on an earlier form in
which the control had its present value and whose dependencies are covered. -/
def SyncCovered (e : Engine) (control : Nat) : Prop :=
  e.Recorded control fun past => e.Covers control .validity past False

namespace SyncCovered

theorem event (h : SyncCovered e control) (fit : e.Fit) (hall : e.AsksForAll control .validity)
    (hevent : Event e e') : SyncCovered e' control := by
  have hself : e'.Covers control .validity e'.form False := .self e' control .validity False
  cases hevent with
  | step hstep =>
      exact Recorded.step h fit.sound hstep
        (fun hquiet _ hcovered => hcovered.step fit hall hstep hquiet) fun _ => hself
  | tick now => exact h
  | set hset =>
      exact Recorded.set h fit.tree hset (fun _ _ hcovered => hcovered.set fit hset) fun _ => hself
  | external id change =>
      have hdoc := Form.sameDocument_modifyState e.form id fun s =>
        { s with externalErrors := change s.externalErrors }
      exact Recorded.external h id change fun _ hcovered => hcovered.document hdoc rfl
  | force id =>
      exact Recorded.force h id
        (fun _ _ hcovered => hcovered.document (sameDocument_force e id) rfl) fun _ => hself

/-- Whatever happens, the verdict stays covered. -/
theorem events (h : SyncCovered e control) (fit : e.Fit)
    (hpolicy : (e.form.policy control).dependencyValid.distinct = false)
    (hrun : Events e e') : SyncCovered e' control := by
  induction hrun with
  | refl => exact h
  | tail hrun hevent ih =>
      refine ih.event (hrun.fit fit) (asksForAll (hrun.fit fit).dependencies ?_) hevent
      rw [Scheduler.dependencySettings, (hrun.sameTree fit.sound).policy]
      exact hpolicy

/-- In a settled state the verdict is about the present values of the control and of its
dependencies. -/
theorem of_isSettled (h : SyncCovered e control) (fit : e.Fit) (hsettled : e.isSettled = true) :
    ∃ past, Form.SameTree past e.form ∧ past.value control = e.form.value control ∧
      (∀ s, e.form.state? control = some s →
        s.syncErrors = (past.verdict control Property.validTests).errors?) ∧
      ∀ d, Scheduler.DependsOn e.form control d .validity → past.value d = e.form.value d := by
  obtain ⟨past, htree, hvalue, hrecorded, hcovered⟩ := h
  exact ⟨past, htree, hvalue, hrecorded, fun d hdep => hcovered.of_isSettled fit hsettled hdep⟩

end SyncCovered

end Engine

namespace Session

variable {m : Model} {data : Json} {c : Config}

/-- At the start the verdict is about the form itself. -/
theorem recorded_launched {control : Nat} {X : Form → Prop} (hread : X (.build m data c)) :
    (launched m data c).Recorded control X := by
  refine .renew hread fun s hs => ?_
  rw [Form.state?_build hs, Form.syncErrors_edited]
  exact Form.syncErrors_validated fun _ => rfl

theorem syncCovered_launched (m : Model) (data : Json) (c : Config) (control : Nat) :
    (launched m data c).SyncCovered control :=
  recorded_launched (.self (launched m data c) control .validity False)

/-- Whenever a session that was launched is settled, the errors that are recorded about a control by
checks are those of its validity tests on its present value and on some document that has the
present values at the control itself and at all controls to which the paths of its validity tests
lead. -/
theorem exists_root_of_isSettled {ops : List Op} (hquiet : ∀ op ∈ ops, op.isQuiet = true)
    {s : Session} (hs : (launch m data c).run ops = s) (hsettled : s.isSettled = true)
    {control : Nat} {state : ControlState} (hstate : s.form.state? control = some state)
    (hpolicy : (s.form.policy control).dependencyValid.distinct = false) :
    ∃ root, s.form.AgreesAt root control ∧
      (∀ d, Scheduler.DependsOn s.form control d .validity → s.form.AgreesAt root d) ∧
      state.syncErrors = (TestResults.runChecks (s.form.value control) root
        (s.form.testsOf control Property.validTests)).results.errors? := by
  obtain ⟨e, -, hform, hevents, hsettled⟩ := exists_engine_of_isSettled hquiet hs hsettled
  rw [← hform] at hstate hpolicy ⊢
  have fit := fit_launched m data c
  rw [(hevents.sameTree fit.sound).policy] at hpolicy
  obtain ⟨past, htree, hvalue, hrecorded, hagree⟩ :=
    ((syncCovered_launched m data c control).events fit hpolicy hevents).of_isSettled
      (hevents.fit fit) hsettled
  have hsound := (hevents.fit fit).tree
  refine ⟨past.rootValue, htree.agreesAt hsound hvalue,
    fun d hdep => htree.agreesAt hsound (hagree d hdep), ?_⟩
  rw [hrecorded state hstate, Form.verdict, hvalue, htree.testsOf]

/-- The other field becomes two, and then there is time enough. -/
def checkedPairRun : Session :=
  (launch checkedPair pairData .standard).run [.setValue 2 (.natural 2), .advance 1000]

/-- The dependent field is settled with an error about a document that has the new value. -/
theorem exists_root_checkedPair :
    checkedPairRun.isSettled = true ∧
      ∃ state root, checkedPairRun.form.state? 1 = some state ∧ state.syncErrors.isSome = true ∧
        root.place [.key "b"] = .natural 2 ∧
        state.syncErrors = (TestResults.runChecks (.natural 1) root
          (checkedPairRun.form.testsOf 1 Property.validTests)).results.errors? := by
  obtain ⟨root, -, hagree, herrors⟩ :=
    @exists_root_of_isSettled checkedPair pairData .standard
      [.setValue 2 (.natural 2), .advance 1000] (by decide) checkedPairRun rfl (by decide) 1 _ rfl
      rfl
  exact ⟨by decide, _, root, rfl, rfl, hagree 2 ⟨_, "b", rfl, by decide, rfl⟩ _ rfl, herrors⟩

end Session

end ReactiveForm
