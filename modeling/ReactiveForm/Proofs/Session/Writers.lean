import ReactiveForm.Proofs.Session.Evaluations

/-!
# Who writes the state of a control

The state of a control is written by passes over its tests, by its inquiry pipeline and by callers,
and each of them has a part of its own. A pass over the validity tests writes their results, a pass
over the tests of editability and visibility writes these two, the inquiry pipeline writes what
inquiries say, and callers write their messages. Whatever an operation does to a control is of this
form (`writes_of_apply`), as long as no caller writes a state by hand.
-/

namespace ReactiveForm.Session

variable {s : Session} {e : Engine} {op : Op} {control x : ControlId} {st st' : ControlState}
  {race : Race}

/-! ## Passes over the validity tests -/

/-- How often a scheduler has run the validity tests of a control because of a dependency. -/
def dependencyRuns (s : Session) (control : ControlId) : Nat :=
  (s.engine?.map fun e => e.passes control .validity).getD 0

/-- Whether an operation runs the validity tests of a control by their checks. An edit does so for
the control that is edited, those above it and new ones; a caller can ask for it; and a pipeline for
a dependency does so when it yields. The root has no tests. -/
def Op.checks (s : Session) (control : ControlId) (op : Op) : Bool :=
  ((s.apply op).form.property? control).isSome &&
    match op with
    | .revalidate id => id == control
    | .force id => s.engine?.isSome && id == control
    | .turn _ _ => decide (s.dependencyRuns control < (s.apply op).dependencyRuns control)
    | op => op.succeeds s && op.target?.any fun x =>
        !s.form.contains control || ((s.apply op).form.lineage x).contains control

theorem checks_of_target? (htarget : op.target? = some x) :
    op.checks s control = (((s.apply op).form.property? control).isSome &&
      (op.succeeds s &&
        (!s.form.contains control || ((s.apply op).form.lineage x).contains control))) := by
  cases op <;> cases htarget <;> rfl

theorem checks_of_property?_eq_none (hnone : (s.apply op).form.property? control = none) :
    op.checks s control = false := by
  simp [Op.checks, hnone]

/-! ## Calls -/

/-- A call by which a caller writes the messages of a control. -/
inductive MessageCall where
  /-- A message is set under a key. -/
  | set (key message : String)
  /-- The message under a key is dropped. -/
  | clear (key : String)

/-- The messages of a control behind a call. -/
def MessageCall.write (messages : List (String × String)) :
    MessageCall → List (String × String)
  | .set key message => Keyed.insert key message messages
  | .clear key => messages.filter (·.1 != key)

/-- The call that an operation makes on a control, if it succeeds. -/
def messageCalls (s : Session) (control : ControlId) : Op → List MessageCall
  | .setExternal id key message =>
    if id = control ∧ (s.form.setExternal id key message).isOk = true then [.set key message]
    else []
  | .clearExternal id key =>
    if id = control ∧ (s.form.clearExternal id key).isOk = true then [.clear key] else []
  | _ => []

theorem messageCalls_of_target? (htarget : op.target? = some x) :
    s.messageCalls control op = [] := by
  cases op <;> first | rfl | cases htarget

/-! ## Writes -/

/-- What an operation makes of the state of a control. -/
structure Writes (s : Session) (control : ControlId) (op : Op) (st st' : ControlState) : Prop where
  /-- Only a pass over the validity tests writes their results. -/
  syncErrors : st'.syncErrors =
    if op.checks s control = true then
      ((s.apply op).form.verdict control Property.validTests).errors?
    else st.syncErrors
  /-- Only the inquiry pipeline of the control writes what inquiries say. -/
  inquired : op.AvoidsInquiry control →
    st'.pending = st.pending ∧ st'.asyncErrors = st.asyncErrors
  /-- An inquiry pipeline writes nothing else. -/
  checked : ∀ id race, op = .turn (.inquiry id) race →
    st'.syncErrors = st.syncErrors ∧ st'.enabled = st.enabled ∧ st'.visible = st.visible
  /-- Only callers write messages. -/
  externalErrors : st'.externalErrors =
    (s.messageCalls control op).foldl MessageCall.write st.externalErrors

namespace Writes

theorem same (hchecks : op.checks s control = false) (hcalls : s.messageCalls control op = []) :
    Writes s control op st st where
  syncErrors := by rw [hchecks, if_neg Bool.false_ne_true]
  inquired _ := ⟨rfl, rfl⟩
  checked _ _ _ := ⟨rfl, rfl, rfl⟩
  externalErrors := by rw [hcalls, List.foldl_nil]

/-- A pass over the validity tests. -/
theorem validated (hchecks : op.checks s control = ((s.apply op).form.property? control).isSome)
    (hcalls : s.messageCalls control op = []) (hturn : ∀ id, op.AvoidsInquiry id) :
    Writes s control op st ((s.apply op).form.validated control st) := by
  cases hp : (s.apply op).form.property? control with
  | none =>
      have hsame : (s.apply op).form.validated control st = st := by rw [Form.validated, hp]
      rw [hsame]
      exact .same (checks_of_property?_eq_none hp) hcalls
  | some p =>
      rw [hp, Option.isSome_some] at hchecks
      simp only [Form.validated, hp]
      refine ⟨by rw [hchecks, if_pos rfl], fun _ => ⟨rfl, rfl⟩,
        fun id race heq => absurd heq (hturn id race), by rw [hcalls, List.foldl_nil]⟩

/-- A pass over the tests of editability and visibility, behind whatever was written before. -/
theorem edited (h : Writes s control op st st') (hturn : ∀ id, op.AvoidsInquiry id) :
    Writes s control op st ((s.apply op).form.edited control st') := by
  unfold Form.edited
  cases (s.apply op).form.property? control with
  | none => exact h
  | some p =>
      exact ⟨h.syncErrors, h.inquired, fun id race heq => absurd heq (hturn id race),
        h.externalErrors⟩

/-- The inquiry pipeline of some control leaves what checks and callers write. -/
theorem of_checked {id : ControlId} (hop : op = .turn (.inquiry id) race)
    (hchecks : op.checks s control = false) (hchecked : st'.checked = st.checked)
    (hsame : id ≠ control → st' = st) : Writes s control op st st' := by
  subst hop
  have hsync := congrArg ControlState.syncErrors hchecked
  have henabled := congrArg ControlState.enabled hchecked
  have hvisible := congrArg ControlState.visible hchecked
  have hexternal := congrArg ControlState.externalErrors hchecked
  refine ⟨?_, fun hother => ?_, fun _ _ _ => ⟨hsync, henabled, hvisible⟩, hexternal⟩
  · rw [hchecks, if_neg Bool.false_ne_true]
    exact hsync
  · rw [hsame fun heq => hother race (by rw [heq])]
    exact ⟨rfl, rfl⟩

end Writes

/-! ## Edits -/

/-- An edit runs the validity tests of the controls above its target, and all tests of new ones. -/
theorem writes_of_target? (hparents : s.form.ParentsBefore) (htarget : op.target? = some x)
    (hst' : (s.apply op).form.state? control = some st') :
    Writes s control op ((s.form.state? control).getD .initial) st' := by
  have hcalls : s.messageCalls control op = [] := messageCalls_of_target? htarget
  have hturn : ∀ id, op.AvoidsInquiry id := by
    rintro id race rfl
    cases htarget
  have hchecks : op.checks s control = _ := checks_of_target? htarget
  rcases edited_of_target? (s := s) htarget with ⟨hfailed, heq⟩ | ⟨hok, hedited⟩
  · rw [hfailed, Bool.false_and, Bool.and_false] at hchecks
    rw [heq] at hst'
    rw [hst', Option.getD_some]
    exact .same hchecks hcalls
  · rw [hok, Bool.true_and] at hchecks
    rcases hedited.retests hparents control st' hst' with ⟨st, hst, rfl⟩ | ⟨hnew, rfl⟩
    · have hlive : s.form.contains control = true := by rw [← Form.isSome_state?, hst]; rfl
      rw [hlive, Bool.not_true, Bool.false_or] at hchecks
      rw [hst, Option.getD_some]
      by_cases hmem : control ∈ (s.apply op).form.lineage x
      · rw [List.contains_iff_mem.2 hmem, Bool.and_true] at hchecks
        rw [if_pos hmem]
        exact .validated hchecks hcalls hturn
      · rw [Bool.eq_false_iff.2 fun h => hmem (List.contains_iff_mem.1 h), Bool.and_false]
          at hchecks
        rw [if_neg hmem]
        exact .same hchecks hcalls
    · have hnone : s.form.contains control = false := by rw [← Form.isSome_state?, hnew]; rfl
      rw [hnone, Bool.not_false, Bool.true_or, Bool.and_true] at hchecks
      rw [hnew, Option.getD_none]
      exact (Writes.validated hchecks hcalls hturn).edited hturn

/-! ## Writes to a single control -/

private theorem writes_of_form_eq (hform : (s.apply op).form = s.form)
    (hchecks : op.checks s control = false) (hcalls : s.messageCalls control op = [])
    (hst' : (s.apply op).form.state? control = some st') :
    Writes s control op ((s.form.state? control).getD .initial) st' := by
  rw [hform] at hst'
  rw [hst', Option.getD_some]
  exact .same hchecks hcalls

private theorem writes_of_state? {change : ControlState → ControlState}
    (hstate : (s.apply op).form.state? control =
      if control = x then (s.form.state? control).map change else s.form.state? control)
    (hself : control = x → ∀ st, Writes s control op st (change st))
    (hother : control ≠ x → ∀ st, Writes s control op st st)
    (hst' : (s.apply op).form.state? control = some st') :
    Writes s control op ((s.form.state? control).getD .initial) st' := by
  rw [hstate] at hst'
  split at hst'
  · rename_i heq
    obtain ⟨st, hst, rfl⟩ := Option.map_eq_some_iff.1 hst'
    rw [hst, Option.getD_some]
    exact hself heq st
  · rename_i hne
    rw [hst', Option.getD_some]
    exact hother hne st'

/-- An operation that runs the validity tests of one control. -/
theorem writes_of_validated
    (hdoc : Form.SameDocument (s.apply op).form s.form)
    (hstate : (s.apply op).form.state? control =
      if control = x then (s.form.state? control).map (s.form.validated x)
      else s.form.state? control)
    (hchecks : op.checks s control =
      (((s.apply op).form.property? control).isSome && x == control))
    (hcalls : s.messageCalls control op = []) (hturn : ∀ id, op.AvoidsInquiry id)
    (hst' : (s.apply op).form.state? control = some st') :
    Writes s control op ((s.form.state? control).getD .initial) st' := by
  refine writes_of_state? hstate (fun heq st => ?_) (fun hne st => ?_) hst'
  · subst heq
    rw [beq_self_eq_true, Bool.and_true] at hchecks
    rw [← hdoc.validated]
    exact .validated hchecks hcalls hturn
  · rw [beq_eq_false_iff_ne.2 hne.symm, Bool.and_false] at hchecks
    exact .same hchecks hcalls

/-- An operation that runs the tests of editability and visibility of one control. -/
theorem writes_of_edited
    (hdoc : Form.SameDocument (s.apply op).form s.form)
    (hstate : (s.apply op).form.state? control =
      if control = x then (s.form.state? control).map (s.form.edited x)
      else s.form.state? control)
    (hchecks : op.checks s control = false)
    (hcalls : s.messageCalls control op = []) (hturn : ∀ id, op.AvoidsInquiry id)
    (hst' : (s.apply op).form.state? control = some st') :
    Writes s control op ((s.form.state? control).getD .initial) st' := by
  refine writes_of_state? hstate (fun heq st => ?_) (fun _ st => .same hchecks hcalls) hst'
  subst heq
  rw [← hdoc.edited]
  exact (Writes.same hchecks hcalls).edited hturn

/-- An operation that is a call on the messages of one control, if it succeeds. -/
theorem writes_of_call (call : MessageCall)
    (hform : (s.apply op).form = s.form.modifyState x fun st =>
      { st with externalErrors := MessageCall.write st.externalErrors call })
    (hchecks : op.checks s control = false)
    (hcalls : s.messageCalls control op = if x = control then [call] else [])
    (hturn : ∀ id, op.AvoidsInquiry id)
    (hst' : (s.apply op).form.state? control = some st') :
    Writes s control op ((s.form.state? control).getD .initial) st' := by
  refine writes_of_state? (hform ▸ Form.state?_modifyState s.form x _ control)
    (fun heq st => ?_) (fun hne st => ?_) hst'
  · rw [if_pos heq.symm] at hcalls
    refine ⟨by rw [hchecks, if_neg Bool.false_ne_true], fun _ => ⟨rfl, rfl⟩,
      fun id race heq => absurd heq (hturn id race), by rw [hcalls]; rfl⟩
  · rw [if_neg hne.symm] at hcalls
    exact .same hchecks hcalls

/-! ## Turns -/

theorem dependencyRuns_of_engine? (he : s.engine? = some e) (control : ControlId) :
    s.dependencyRuns control = e.passes control .validity := by
  rw [dependencyRuns, he]
  rfl

section Turn

variable {e' : Engine} {r : PipelineRef} {race : Race} (he : s.engine? = some e)
  (he' : (s.apply (.turn r race)).engine? = some e')

include he he'

theorem checks_turn : (Op.turn r race).checks s control =
    (((s.apply (.turn r race)).form.property? control).isSome &&
      decide (e.passes control .validity < e'.passes control .validity)) := by
  rw [Op.checks, dependencyRuns_of_engine? he, dependencyRuns_of_engine? he']

/-- A pipeline that runs checks writes what its reaction says, if it yields. -/
theorem writes_of_changeStep (hr : ∀ id, r ≠ .inquiry id) {p : ChangePipeline} {y : Option Json}
    {w : Watcher} {sched : Scheduler} (hchange : e.ChangeStep p y w sched)
    (heq : e' = { e with scheduler := sched }.reactIf { p with watcher := w } y.isSome)
    (hst' : (s.apply (.turn r race)).form.state? control = some st') :
    Writes s control (.turn r race) ((s.form.state? control).getD .initial) st' := by
  have hturn : ∀ id, (Op.turn r race).AvoidsInquiry id := fun id _ h => hr id (Op.turn.inj h).1
  have hchecks : (Op.turn r race).checks s control = _ := checks_turn he he'
  have hpasses := Engine.passes_changeStep hchange control .validity
  have hbefore := form_of_engine? he
  have hafter := form_of_engine? he'
  rw [heq] at hchecks hafter
  rw [hpasses] at hchecks
  cases y with
  | none =>
      rw [if_neg (by simp), decide_eq_false (Nat.lt_irrefl _), Bool.and_false] at hchecks
      exact writes_of_form_eq (hafter.symm.trans hbefore) hchecks rfl hst'
  | some v =>
      rw [Engine.reactIf_some] at hafter
      have hstate := Engine.state?_react { e with scheduler := sched } p.control p.reaction control
      have hdoc := Engine.sameDocument_react { e with scheduler := sched } p.control p.reaction
      rw [hafter] at hstate hdoc
      rw [show ({ e with scheduler := sched } : Engine).form = s.form from hbefore] at hstate hdoc
      cases hreaction : p.reaction with
      | validity =>
          rw [hreaction] at hstate
          refine writes_of_validated hdoc hstate ?_ rfl hturn hst'
          rw [hchecks]
          by_cases hcontrol : p.control = control
          · simp [hcontrol, hreaction]
          · simp [hcontrol, Ne.symm hcontrol]
      | editability =>
          rw [hreaction] at hstate
          rw [if_neg (by simp [hreaction]), decide_eq_false (Nat.lt_irrefl _), Bool.and_false]
            at hchecks
          exact writes_of_edited hdoc hstate hchecks rfl hturn hst'

end Turn

theorem writes_of_turn (hsound : s.Sound) (r : PipelineRef)
    (hst' : (s.apply (.turn r race)).form.state? control = some st') :
    Writes s control (.turn r race) ((s.form.state? control).getD .initial) st' := by
  have hidle : s.apply (.turn r race) = s →
      Writes s control (.turn r race) ((s.form.state? control).getD .initial) st' := fun hsame => by
    refine writes_of_form_eq (by rw [hsame]) ?_ rfl hst'
    rw [Op.checks, hsame, decide_eq_false (Nat.lt_irrefl _), Bool.and_false]
  cases he : s.engine? with
  | none => exact hidle (by simp [apply, he])
  | some e =>
      rcases turn_cases he r with hsame | ⟨e', hstep, he'⟩
      · exact hidle hsame
      · cases r with
        | dependency i =>
            obtain ⟨p, y, w, sched, hchange, heq⟩ := Engine.changeStep_of_stepDependency? hstep
            exact writes_of_changeStep he he' (by simp) hchange heq hst'
        | editability id =>
            obtain ⟨p, y, w, sched, hchange, heq⟩ := Engine.changeStep_of_stepEditability? hstep
            exact writes_of_changeStep he he' (by simp) hchange heq hst'
        | inquiry id =>
            obtain ⟨p, stream, hp, -, hinquiry⟩ := Engine.inquiryStep_of_stepInquiry? hstep
            obtain ⟨rfl, -⟩ := ((hsound.serves he).sound).inquiry hp
            have frame := hinquiry.frame hp
            have hchecks : (Op.turn _ _).checks s control = _ := checks_turn he he'
            rw [Engine.passes_of_inquiryFrame frame, decide_eq_false (Nat.lt_irrefl _),
              Bool.and_false] at hchecks
            rw [← form_of_engine? he'] at hst'
            have hchecked := frame.checked control
            rw [hst', Option.map_some] at hchecked
            obtain ⟨st, hst, hsame⟩ := Option.map_eq_some_iff.1 hchecked.symm
            rw [← form_of_engine? he, hst, Option.getD_some]
            refine .of_checked rfl hchecks hsame.symm fun hne => ?_
            have hother := frame.state control hne.symm
            rw [hst', hst] at hother
            exact Option.some.inj hother

/-! ## All operations -/

/-- Whether a caller writes a state by hand. -/
def Op.writesState : Op → Bool
  | .writeState .. => true
  | _ => false

theorem writes_of_setExternal (id : ControlId) (key message : String)
    (hst' : (s.apply (.setExternal id key message)).form.state? control = some st') :
    Writes s control (.setExternal id key message) ((s.form.state? control).getD .initial) st' := by
  have hchecks : (Op.setExternal id key message).checks s control = false := by
    simp [Op.checks, Op.target?]
  cases hid : s.form.contains id with
  | false =>
      have herr : s.form.setExternal id key message = .error (.unknownControl id) := by
        simp [Form.setExternal, hid]
      have hform : (s.apply (.setExternal id key message)).form = s.form := by
        simp only [apply_setExternal, setExternal_eq, herr]
        rfl
      refine writes_of_form_eq hform hchecks ?_ hst'
      simp [messageCalls, herr, Except.isOk, Except.toBool]
  | true =>
      have hok : s.form.setExternal id key message =
          .ok (s.form.modifyState id (·.setExternal key message)) := by
        simp [Form.setExternal, hid]
      have hform : (s.apply (.setExternal id key message)).form =
          s.form.modifyState id (·.setExternal key message) := by
        simp only [apply_setExternal, setExternal_eq, hok]
        rfl
      refine writes_of_call (.set key message) hform hchecks ?_ (by simp [Op.AvoidsInquiry]) hst'
      simp [messageCalls, hok, Except.isOk, Except.toBool]

theorem writes_of_clearExternal (id : ControlId) (key : String)
    (hst' : (s.apply (.clearExternal id key)).form.state? control = some st') :
    Writes s control (.clearExternal id key) ((s.form.state? control).getD .initial) st' := by
  have hchecks : (Op.clearExternal id key).checks s control = false := by
    simp [Op.checks, Op.target?]
  cases hst : s.form.state? id with
  | none =>
      have herr : s.form.clearExternal id key = .error (.unknownControl id) := by
        simp [Form.clearExternal, hst]
      have hform : (s.apply (.clearExternal id key)).form = s.form := by
        simp only [apply_clearExternal, clearExternal_eq, herr]
        rfl
      refine writes_of_form_eq hform hchecks ?_ hst'
      simp [messageCalls, herr, Except.isOk, Except.toBool]
  | some st =>
      have hok : s.form.clearExternal id key =
          .ok (st.hasExternal key, s.form.modifyState id (·.clearExternal key)) := by
        simp [Form.clearExternal, hst]
      have hform : (s.apply (.clearExternal id key)).form =
          s.form.modifyState id (·.clearExternal key) := by
        simp only [apply_clearExternal, clearExternal_eq, hok]
        rfl
      refine writes_of_call (.clear key) hform hchecks ?_ (by simp [Op.AvoidsInquiry]) hst'
      simp [messageCalls, hok, Except.isOk, Except.toBool]

theorem writes_of_force (id : ControlId)
    (hst' : (s.apply (.force id)).form.state? control = some st') :
    Writes s control (.force id) ((s.form.state? control).getD .initial) st' := by
  cases he : s.engine? with
  | none =>
      refine writes_of_form_eq (by simp only [apply, force, he]) ?_ rfl hst'
      simp [Op.checks, he]
  | some e =>
      have hform : (s.apply (.force id)).form = (s.form.refreshValidity id).2 := by
        simp only [apply, force, he, ← form_of_engine? he]
        rfl
      refine writes_of_validated (hform ▸ Form.sameDocument_refreshValidity s.form id)
        (hform ▸ Form.state?_refreshValidity s.form id control) ?_ rfl (by simp [Op.AvoidsInquiry])
        hst'
      simp [Op.checks, he]

/-- Every operation but one by hand writes to each part of a state what belongs there. A control
that is new starts from the initial state. -/
theorem writes_of_apply (hsound : s.Sound) (hparents : s.form.ParentsBefore)
    (hmoment : ∀ ms, op ≠ .advance ms) (hwrites : op.writesState = false)
    (hst' : (s.apply op).form.state? control = some st') :
    Writes s control op ((s.form.state? control).getD .initial) st' := by
  have hunchecked : (∀ id, op ≠ .revalidate id) → (∀ id, op ≠ .force id) →
      (∀ r race, op ≠ .turn r race) → op.target? = none → op.checks s control = false := by
    intro _ _ _ hnone
    cases op <;> simp_all [Op.checks]
  cases op with
  | setValue | insert | push | remove => exact writes_of_target? hparents rfl hst'
  | setExternal id key message => exact writes_of_setExternal id key message hst'
  | clearExternal id key => exact writes_of_clearExternal id key hst'
  | writeState => cases hwrites
  | revalidate id =>
      exact writes_of_validated (Form.sameDocument_refreshValidity s.form id)
        (Form.state?_refreshValidity s.form id control) rfl rfl (by simp [Op.AvoidsInquiry])
        hst'
  | reassess id =>
      exact writes_of_edited (Form.sameDocument_refreshEditability s.form id)
        (Form.state?_refreshEditability s.form id control)
        (hunchecked (by simp) (by simp) (by simp) rfl) rfl (by simp [Op.AvoidsInquiry]) hst'
  | force id => exact writes_of_force id hst'
  | turn r race => exact writes_of_turn hsound r hst'
  | advance ms => exact absurd rfl (hmoment ms)
  | wait ms =>
      refine writes_of_form_eq ?_ (hunchecked (by simp) (by simp) (by simp) rfl) rfl hst'
      cases he : s.engine? with
      | none => simp only [apply, he]
      | some e =>
          simp only [apply, he, ← form_of_engine? he]
          rfl
  | observe | unobserve | rebuild | attach | detach =>
      exact writes_of_form_eq rfl (hunchecked (by simp) (by simp) (by simp) rfl) rfl hst'

end ReactiveForm.Session
