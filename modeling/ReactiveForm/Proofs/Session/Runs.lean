import ReactiveForm.Proofs.Recompute.Events
import ReactiveForm.Proofs.Session.Outcomes

/-!
# Runs of a session

A run is a list of operations, carried out one after the other. One that fails is followed by the
next one, on the session that it leaves. Time passes by `advance`, which lets the pipelines do all
that they can up to a moment, or in smaller portions: `turn` is one step of one pipeline, whose
races end in a given way, and `wait` moves the clock alone. So the operations of callers can come in
between any two steps.

A session that was launched has had a scheduler from the beginning. As long as its operations keep
the structure and the scheduler (`Op.isQuiet`), what happens to it are events (`events_of_run`). Of
an operation that takes no time, or moves the clock alone, more is said: it is one of a few kinds of
moments (`moment_of_apply`).
-/

namespace ReactiveForm.Session

/-- Something that can be done with a session. -/
inductive Op where
  /-- Give a field a new value. -/
  | setValue (id : ControlId) (value : Json)
  /-- Put an item into an array. -/
  | insert (array : ControlId) (index : Nat) (value : Json)
  /-- Put an item at the end of an array. -/
  | push (array : ControlId) (value : Json)
  /-- Take an item out of an array. -/
  | remove (array : ControlId) (index : Nat)
  /-- Set a message of a caller. -/
  | setExternal (id : ControlId) (key message : String)
  /-- Drop a message of a caller. -/
  | clearExternal (id : ControlId) (key : String)
  /-- Write the state of a control, as callers do who apply outcomes of their own. -/
  | writeState (id : ControlId) (change : ControlState → ControlState)
  /-- Run the validity tests of a control. -/
  | revalidate (id : ControlId)
  /-- Run the tests of editability and visibility of a control. -/
  | reassess (id : ControlId)
  /-- Run the validity tests of a control and force an inquiry. -/
  | force (id : ControlId)
  /-- Register an observer of the structure. -/
  | observe
  /-- Let go of an observer. -/
  | unobserve (number : Nat)
  /-- Make the pipelines for dependencies anew. -/
  | rebuild
  /-- Attach a scheduler. -/
  | attach
  /-- Drop the scheduler. -/
  | detach
  /-- Let time pass. -/
  | advance (ms : Nat)
  /-- Let one pipeline make one step, if it can. Its races end as they are said to. -/
  | turn (pipeline : PipelineRef) (race : Race)
  /-- Let time pass without any step of a pipeline. -/
  | wait (ms : Nat)
deriving Inhabited

/-- Carry out an operation. -/
def apply (s : Session) : Op → Session
  | .setValue id value => (Editing.setValue id value).after s
  | .insert array index value => (Editing.insert array index value).after s
  | .push array value => (Editing.push array value).after s
  | .remove array index => (Editing.remove array index).after s
  | .setExternal id key message => (Editing.setExternal id key message).after s
  | .clearExternal id key => (Editing.clearExternal id key).after s
  | .writeState id change => s.withForm (s.form.modifyState id change)
  | .revalidate id => s.withForm (s.form.refreshValidity id).2
  | .reassess id => s.withForm (s.form.refreshEditability id).2
  | .force id => s.force id
  | .observe => s.observe.2
  | .unobserve number => s.unobserve number
  | .rebuild => s.rebuild
  | .attach => s.attach
  | .detach => s.detach
  | .advance ms => s.advance ms
  | .turn pipeline race => ((s.engine?.bind (·.step? pipeline race)).map s.withEngine).getD s
  | .wait ms =>
    match s.engine? with
    | some e => s.withEngine (e.tick (e.clock + ms))
    | none => { s with clock := s.clock + ms }

theorem apply_setValue (s : Session) (id : ControlId) (value : Json) :
    s.apply (.setValue id value) = (s.setValue id value).toOption.getD s := by
  rw [apply, (Editing.yields_setValue id value).after, setValue]
  cases (Editing.setValue id value).outcome s <;> rfl

theorem apply_setExternal (s : Session) (id : ControlId) (key message : String) :
    s.apply (.setExternal id key message) = (s.setExternal id key message).toOption.getD s := by
  rw [apply, (Editing.yields_setExternal id key message).after, setExternal]
  cases (Editing.setExternal id key message).outcome s <;> rfl

theorem apply_clearExternal (s : Session) (id : ControlId) (key : String) :
    s.apply (.clearExternal id key) =
      ((s.clearExternal id key).toOption.map Prod.snd).getD s :=
  (Editing.yields_clearExternal id key).after s

theorem apply_insert (s : Session) (array : ControlId) (index : Nat) (value : Json) :
    s.apply (.insert array index value) =
      ((s.insert array index value).toOption.map Prod.snd).getD s :=
  (Editing.yields_insert array index value).after s

theorem apply_push (s : Session) (array : ControlId) (value : Json) :
    s.apply (.push array value) = ((s.push array value).toOption.map Prod.snd).getD s :=
  (Editing.yields_push array value).after s

theorem apply_remove (s : Session) (array : ControlId) (index : Nat) :
    s.apply (.remove array index) = ((s.remove array index).toOption.map Prod.snd).getD s :=
  (Editing.yields_remove array index).after s

/-- Carry out operations, one after the other. -/
def run (s : Session) (ops : List Op) : Session := ops.foldl apply s

theorem run_append (s : Session) (ops more : List Op) :
    s.run (ops ++ more) = (s.run ops).run more :=
  List.foldl_append

/-- Whether an operation keeps the structure of the form and its scheduler. -/
def Op.isQuiet : Op → Bool
  | .setValue .. | .setExternal .. | .clearExternal .. | .force _ | .advance _ | .turn _ _
  | .wait _ => true
  | .insert .. | .push .. | .remove .. | .writeState .. | .revalidate _ | .reassess _ | .observe
  | .unobserve _ | .rebuild | .attach | .detach => false

/-- Whether an operation keeps the structure of the form and its scheduler, and lets the pipelines
do all that they can in the time that passes. -/
def Op.isTimed : Op → Bool
  | .setValue .. | .setExternal .. | .clearExternal .. | .force _ | .advance _ => true
  | .insert .. | .push .. | .remove .. | .writeState .. | .revalidate _ | .reassess _ | .observe
  | .unobserve _ | .rebuild | .attach | .detach | .turn _ _ | .wait _ => false

theorem Op.isQuiet_of_isTimed {op : Op} (htimed : op.isTimed = true) : op.isQuiet = true := by
  cases op <;> first | rfl | cases htimed

/-- The operation is no turn of a control's inquiry pipeline, however its races end. -/
def Op.AvoidsInquiry (op : Op) (control : ControlId) : Prop :=
  ∀ race, op ≠ .turn (.inquiry control) race

theorem Op.turn_or_avoidsInquiry (op : Op) (control : ControlId) :
    (∃ race, op = .turn (.inquiry control) race) ∨ op.AvoidsInquiry control :=
  (Classical.em _).imp_right not_exists.1

/-- A session with a new form and a scheduler from the beginning. -/
def launch (m : Model) (data : Json) (c : Config) : Session := (start (.build m data c)).attach

/-- Whether a scheduler is attached and nothing is left for it to do. -/
def isSettled (s : Session) : Bool := s.engine?.any Engine.isSettled

variable {s : Session} {e : Engine} {op : Op} {race : Race}

/-! ## Operations as events -/

theorem form_of_engine? (he : s.engine? = some e) : e.form = s.form := by
  obtain ⟨sched, -, rfl⟩ := Option.map_eq_some_iff.1 he
  rfl

theorem clock_of_engine? (he : s.engine? = some e) : e.clock = s.clock := by
  obtain ⟨sched, -, rfl⟩ := Option.map_eq_some_iff.1 he
  rfl

theorem engine?_withEngine (s : Session) (e : Engine) : (s.withEngine e).engine? = some e := rfl

theorem engine?_withForm (he : s.engine? = some e) (f : Form) :
    (s.withForm f).engine? = some { e with form := f } := by
  obtain ⟨sched, hsched, rfl⟩ := Option.map_eq_some_iff.1 he
  simp [engine?, withForm, hsched]

/-- An operation gives no field a new value, forces no inquiry, and is no turn in which a pipeline
can make a step. -/
def Op.Rests (e : Engine) : Op → Prop
  | .setValue id v => (e.form.setValue id v).isOk = false
  | .force _ => False
  | .turn r race => e.step? r race = none
  | _ => True

/-- What an operation that takes no time and keeps the structure, or moves the clock alone, makes of
a form with a scheduler. -/
inductive Moment (e : Engine) : Op → Engine → Prop where
  /-- The operation does nothing, or nothing that the scheduler takes notice of. -/
  | none {op : Op} (hrests : op.Rests e) : Moment e op e
  /-- A field gets a new value. -/
  | set {id : ControlId} {v : Json} {f : Form} (hset : e.form.setValue id v = .ok f) :
      Moment e (.setValue id v) { e with form := f }
  /-- The messages of callers change. -/
  | external {op : Op} (hrests : op.Rests e) (id : ControlId)
      (change : List (String × String) → List (String × String)) :
      Moment e op { e with
        form := e.form.modifyState id fun s =>
          { s with externalErrors := change s.externalErrors } }
  /-- A caller forces an inquiry. -/
  | force (id : ControlId) : Moment e (.force id) (e.force id)
  /-- A pipeline makes a step. -/
  | step {r : PipelineRef} {race : Race} {e' : Engine} (hstep : e.step? r race = some e') :
      Moment e (.turn r race) e'
  /-- Time passes. -/
  | tick (ms now : Nat) : Moment e (.wait ms) (e.tick now)

theorem moment_of_apply (hquiet : op.isQuiet = true) (hmoment : ∀ ms, op ≠ .advance ms)
    (he : s.engine? = some e) : ∃ e', (s.apply op).engine? = some e' ∧ Moment e op e' := by
  have hform := form_of_engine? he
  cases op with
  | setValue id v =>
      simp only [apply_setValue, setValue_eq]
      cases hset : s.form.setValue id v with
      | error err =>
          have hrests : (Op.setValue id v).Rests e := by rw [Op.Rests, hform, hset]; rfl
          exact ⟨e, he, .none hrests⟩
      | ok f => exact ⟨_, engine?_withForm he f, .set (hform ▸ hset)⟩
  | setExternal id key message =>
      have hrests : (Op.setExternal id key message).Rests e := trivial
      simp only [apply_setExternal, setExternal_eq, Form.setExternal]
      split
      · exact ⟨_, engine?_withForm he _, hform ▸ .external hrests id (Keyed.insert key message)⟩
      · exact ⟨e, he, .none hrests⟩
  | clearExternal id key =>
      have hrests : (Op.clearExternal id key).Rests e := trivial
      simp only [apply_clearExternal, clearExternal_eq, Form.clearExternal]
      split
      · exact ⟨_, engine?_withForm he _,
          hform ▸ .external hrests id (List.filter fun m => m.1 != key)⟩
      · exact ⟨e, he, .none hrests⟩
  | force id =>
      simp only [apply, force, he]
      exact ⟨_, engine?_withEngine s _, .force id⟩
  | turn r race =>
      simp only [apply, he, Option.bind_some]
      cases hstep : e.step? r race with
      | none => exact ⟨e, he, .none hstep⟩
      | some e' => exact ⟨e', engine?_withEngine s e', .step hstep⟩
  | wait ms =>
      simp only [apply, he]
      exact ⟨_, engine?_withEngine s _, .tick ms _⟩
  | advance ms => exact absurd rfl (hmoment ms)
  | _ => cases hquiet

theorem engine?_apply_advance (he : s.engine? = some e) (ms : Nat) :
    (s.apply (.advance ms)).engine? = some (e.advance ms) := by
  simp only [apply, advance, he]
  exact engine?_withEngine s _

/-- What a caller does at once, or lets happen in some time, while the structure stays. -/
inductive Act (e : Engine) : Engine → Prop where
  /-- Nothing: the operation has failed. -/
  | none : Act e e
  /-- A field gets a new value. -/
  | set {id : ControlId} {v : Json} {f : Form} (hset : e.form.setValue id v = .ok f) :
      Act e { e with form := f }
  /-- The messages of callers change. -/
  | external (id : ControlId) (change : List (String × String) → List (String × String)) :
      Act e { e with
        form := e.form.modifyState id fun s =>
          { s with externalErrors := change s.externalErrors } }
  /-- A caller forces an inquiry. -/
  | force (id : ControlId) : Act e (e.force id)
  /-- Time passes. -/
  | advance (ms : Nat) : Act e (e.advance ms)

/-- An operation that keeps the structure and does not break up the time that passes is an act. -/
theorem act_of_apply (htimed : op.isTimed = true) (he : s.engine? = some e) :
    ∃ e', (s.apply op).engine? = some e' ∧ Act e e' := by
  by_cases hadvance : ∃ ms, op = .advance ms
  · obtain ⟨ms, rfl⟩ := hadvance
    exact ⟨_, engine?_apply_advance he ms, .advance ms⟩
  · obtain ⟨e', he', hmoment⟩ := moment_of_apply (Op.isQuiet_of_isTimed htimed)
      (fun ms heq => hadvance ⟨ms, heq⟩) he
    refine ⟨e', he', ?_⟩
    cases hmoment with
    | none => exact .none
    | set hset => exact .set hset
    | external _ id change => exact .external id change
    | force id => exact .force id
    | step => cases htimed
    | tick => cases htimed

open Engine in
theorem Moment.events {e' : Engine} (h : Moment e op e') : Events e e' := by
  cases h with
  | none => exact .refl
  | set hset => exact .tail .refl (.set hset)
  | external _ id change => exact .tail .refl (.external id change)
  | force id => exact .tail .refl (.force id)
  | step hstep => exact .tail .refl (.step hstep)
  | tick _ now => exact .tail .refl (.tick now)

open Engine in
/-- A quiet operation is a series of events. -/
theorem events_of_apply (hquiet : op.isQuiet = true) (he : s.engine? = some e) :
    ∃ e', (s.apply op).engine? = some e' ∧ Events e e' := by
  by_cases hadvance : ∃ ms, op = .advance ms
  · obtain ⟨ms, rfl⟩ := hadvance
    exact ⟨_, engine?_apply_advance he ms, events_advance e ms⟩
  · obtain ⟨e', he', hmoment⟩ := moment_of_apply hquiet (fun ms heq => hadvance ⟨ms, heq⟩) he
    exact ⟨e', he', hmoment.events⟩

open Engine in
/-- A run of quiet operations is a series of events. -/
theorem events_of_run {ops : List Op} (hquiet : ∀ op ∈ ops, op.isQuiet = true)
    (he : s.engine? = some e) : ∃ e', (s.run ops).engine? = some e' ∧ Events e e' := by
  induction ops generalizing s e with
  | nil => exact ⟨e, he, .refl⟩
  | cons op ops ih =>
      obtain ⟨e', he', hevents⟩ := events_of_apply (hquiet op List.mem_cons_self) he
      obtain ⟨e'', he'', hrest⟩ := ih (fun op hop => hquiet op (List.mem_cons_of_mem _ hop)) he'
      exact ⟨e'', he'', hevents.trans hrest⟩

/-! ## Launched sessions -/

/-- The form and the scheduler with which a session starts. -/
def launched (m : Model) (data : Json) (c : Config) : Engine :=
  ⟨.build m data c, .attach (.build m data c), 0, []⟩

theorem fit_launched (m : Model) (data : Json) (c : Config) : (launched m data c).Fit :=
  .attach (Form.soundTree_build m data c) (Form.soundStreams_build m data c) 0 []

/-- What happens in a launched session are events from the start on. -/
theorem events_of_launch {m : Model} {data : Json} {c : Config} {ops : List Op}
    (hquiet : ∀ op ∈ ops, op.isQuiet = true) :
    ∃ e, ((launch m data c).run ops).engine? = some e ∧ (launched m data c).Events e :=
  events_of_run hquiet rfl

/-- A settled session has an engine, which has come from the launched one. -/
theorem exists_engine_of_isSettled {m : Model} {data : Json} {c : Config} {ops : List Op}
    (hquiet : ∀ op ∈ ops, op.isQuiet = true) (hs : (launch m data c).run ops = s)
    (hsettled : s.isSettled = true) :
    ∃ e, s.engine? = some e ∧ e.form = s.form ∧ (launched m data c).Events e ∧
      e.isSettled = true := by
  subst hs
  obtain ⟨e, he, hevents⟩ := events_of_launch hquiet
  refine ⟨e, he, form_of_engine? he, hevents, ?_⟩
  simpa [isSettled, he] using hsettled

/-- A run that keeps the structure keeps the tree. -/
theorem sameTree_of_launch {m : Model} {data : Json} {c : Config} {ops : List Op}
    (hquiet : ∀ op ∈ ops, op.isQuiet = true) :
    Form.SameTree ((launch m data c).run ops).form (.build m data c) := by
  obtain ⟨e, he, hevents⟩ := events_of_launch hquiet
  rw [← form_of_engine? he]
  exact hevents.sameTree (fit_launched m data c).sound

/-! ## A form with two fields

What is shown about settled sessions is seen at work on a form in which one field depends on another
one. The root has number `0`, the dependent field number `1`, and the other one number `2`.
-/

/-- A test by a check and an inquiry, which depends on the other field. -/
def pairTest (check inquiry : Option Predicate) : Test :=
  .ofRules (.rule (.ofPredicates none check inquiry 10 ["b"]))

/-- A model with a field that has the given tests and policy, and another field. -/
def pairModel (dependent : Property) : Model :=
  ⟨"pair", [{ dependent with name := some "a" }, { Property.template with name := some "b" }], none⟩

/-- Both fields are one at the start. -/
def pairData : Json := .object [("a", .natural 1), ("b", .natural 1)]

/-- A condition that the other field is one. -/
def otherIsOne : Predicate := .inRoot [.key "b"] (.eq (.natural 1))

/-- A field that is checked some time after the other one has changed. -/
def checkedPair : Model :=
  pairModel { Property.template with
    validTests := [pairTest (some otherIsOne) none]
    policy := some { ChangePolicy.immediate with dependencyValid := ⟨100, false⟩ } }

theorem passed_pairTest (p : Predicate) (value root : Json) :
    (TestResults.runChecks value root [pairTest (some p) none]).results.passed =
      p.holds value root := by
  have hcheck : (TestResults.runChecks value root [pairTest (some p) none]).results =
      ⟨[.ofOutcome (pairTest (some p) none) (.ofBool (p.holds value root))]⟩ := rfl
  rw [hcheck]
  cases p.holds value root <;> rfl

end ReactiveForm.Session
