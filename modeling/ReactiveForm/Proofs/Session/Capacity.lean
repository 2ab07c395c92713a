import ReactiveForm.Proofs.Session.Unison

/-!
# Streams of different capacities

How many values the streams of a form keep decides which of them its pipelines receive: if a stream
keeps few of them, a pipeline that falls behind goes on with later values and runs the checks less
often. What the checks have recorded in the end is the same (`verdicts_of_capacity`). For the
sessions of two forms that differ in the capacity only are in unison at the start, and stay so.

This needs every pipeline to ask for all values. One that ignores repeated values may have received
an older value in between, or may have missed it.
-/

namespace ReactiveForm

/-- What checks have recorded about a control. -/
def ControlState.verdicts (s : ControlState) : Option TestResults × Bool × Bool :=
  (s.syncErrors, s.enabled, s.visible)

namespace Session

variable {m : Model} {data : Json} {c : Config} {ops : List Op} {s t : Session} {k k' : Nat}

/-- The capacity of the streams is not seen in a new form. -/
theorem agrees_build (sight : Sight) (m : Model) (data : Json) (c : Config) (k k' : Nat) :
    Form.Agrees sight (.build m data { c with channelCapacity := k })
      (.build m data { c with channelCapacity := k' }) := by
  have hsprout : Form.Agrees sight (.sprout m data { c with channelCapacity := k })
      (.sprout m data { c with channelCapacity := k' }) := by
    refine Form.Agrees.append ?_ _
    exact ⟨rfl, rfl, fun _ => rfl, fun _ => rfl⟩
  rw [Form.build_eq, Form.build_eq, Form.idsFrom, Form.idsFrom, hsprout.size]
  exact hsprout.refreshNew _

/-- If no policy lets checks ignore repeated values, the capacity of the streams changes nothing
about values and verdicts, whatever the operations are and whenever they come, settled or not. What
callers write of the verdicts must not depend on what inquiries show at that time. -/
theorem verdicts_of_capacity (hm : m.hearsAll c = true) (hwhole : ∀ op ∈ ops, op.isWhole = true)
    (hwrites : ∀ op ∈ ops, op.Respects .checks)
    (hs : (start (.build m data { c with channelCapacity := k })).run ops = s)
    (ht : (start (.build m data { c with channelCapacity := k' })).run ops = t) (id : ControlId) :
    s.form.value id = t.form.value id ∧
      (s.form.state? id).map ControlState.verdicts =
        (t.form.state? id).map ControlState.verdicts := by
  have hstart : Unison (start (.build m data { c with channelCapacity := k }))
      (start (.build m data { c with channelCapacity := k' })) :=
    .of_none (agrees_build .checks m data c k k') rfl rfl rfl
  have hunison : Unison s t := by
    rw [← hs, ← ht]
    exact unison_run hstart (.start m data _) (.start m data _) hm hm hwhole hwrites
  refine ⟨hunison.form.value id, ?_⟩
  have hstate := congrArg (Option.map ControlState.verdicts) (hunison.form.state? id)
  rw [Option.map_map, Option.map_map] at hstate
  exact hstate

/-! ## A value that is missed -/

/-- A field with a test that depends on another field, where every policy asks for all values. -/
def attentivePair : Model :=
  { pairModel { Property.template with validTests := [pairTest (some otherIsOne) none] } with
    defaultPolicy := some .immediate }

/-- The other field gets two values in a row. -/
def twoValues : List Op :=
  [.attach, .setValue 2 (.natural 2), .setValue 2 (.natural 3), .advance 10]

/-- The session in which this has happened, with streams that keep at least as many values. -/
def afterTwoValues (k : Nat) : Session :=
  (start (.build attentivePair pairData { Config.standard with channelCapacity := k })).run
    twoValues

/-- How often the validity tests of the field were run by its pipelines. -/
def validityRuns (s : Session) : Option Nat :=
  s.scheduler.bind fun sched => (sched.stats? 1).map ScheduleStats.dependencyValidityRuns

/-- Streams that keep one value lose the first of the two, and the tests are run once. Otherwise
they are run twice. The error is the same. -/
theorem verdicts_afterTwoValues :
    (afterTwoValues 1).isSettled = true ∧ (afterTwoValues 2).isSettled = true ∧
      validityRuns (afterTwoValues 1) = some 1 ∧ validityRuns (afterTwoValues 2) = some 2 ∧
      ((afterTwoValues 1).form.state? 1).any (fun st => st.syncErrors.isSome) = true ∧
      (afterTwoValues 1).form.value 2 = (afterTwoValues 2).form.value 2 ∧
      ((afterTwoValues 1).form.state? 1).map ControlState.verdicts =
        ((afterTwoValues 2).form.state? 1).map ControlState.verdicts := by
  have hsame := @verdicts_of_capacity attentivePair pairData .standard twoValues (afterTwoValues 1)
    (afterTwoValues 2) 1 2 (by decide +kernel) (by simp [twoValues, Op.isWhole])
    (fun op hop id change heq => by simp [twoValues, heq] at hop) rfl rfl
  exact ⟨by decide +kernel, by decide +kernel, by decide +kernel, by decide +kernel,
    by decide +kernel, (hsame 2).1, (hsame 1).2⟩

end Session

end ReactiveForm
