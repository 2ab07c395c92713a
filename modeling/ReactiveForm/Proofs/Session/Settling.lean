import ReactiveForm.Proofs.Recompute.Settling
import ReactiveForm.Proofs.Session.Edits
import ReactiveForm.Proofs.Session.Runs

/-!
# A session that is left alone settles

After any operations on a form, and whatever its controls depend on: when nothing else is done, only
so many steps of pipelines and ends of timers can follow as there is work left. They publish
nothing, they make no more passes and evaluations than there are values and triggers to be used up,
and they end with a state in which there is nothing left to do (`settles_of_run`).
-/

namespace ReactiveForm.Session

variable {s : Session} {e : Engine} {race : Race}

/-- A form that is left alone settles. Whatever steps and timers follow each other, and for however
long, each step uses up some of the work that is left, and each timer that runs out was running
already or was set by a step. No stream of changes gets a value. A pass uses up a queued value or a
debounce, and an evaluation uses up a queued trigger or a debounce, or a trigger that a pass has
made since. As long as the state is not settled there is a further step or a timer, and time alone
leads to a settled state. -/
theorem settles_of_run {m : Model} {data : Json} {c : Config} {ops : List Op}
    (hs : (start (.build m data c)).run ops = s) (he : s.engine? = some e) :
    (∀ ms, ∃ n k, e.Elapses n k (e.advance ms)) ∧
      ∀ {n k e'}, e.Elapses n k e' →
        n ≤ e.work ∧ k ≤ n + e.timers ∧
        (∀ id, e'.form.changes? id = e.form.changes? id) ∧
        (∀ reaction, e'.allPasses reaction ≤ e.allPasses reaction + e.openPasses reaction) ∧
        e'.allEvaluations + e.allPasses .validity ≤
          e.allEvaluations + e.openEvaluations + e'.allPasses .validity ∧
        (e'.isSettled = false → (∃ r, ∀ race, ∃ e'', e'.step? r race = some e'') ∨ 0 < e'.timers) ∧
        ∃ enough, ∀ ms, enough ≤ ms → (e'.advance ms).isSettled = true := by
  have hstart := sound_start m data c
  have hsound : s.Sound := hs ▸ sound_run hstart ops
  have hsubscribed : s.Subscribed := hs ▸ subscribed_run hstart (.of_none rfl) ops
  have hattached : e.Attached := ⟨(hsound.serves he).sound, hsubscribed e he⟩
  refine ⟨Engine.exists_elapses_advance hattached, fun {n k e'} hrun => ?_⟩
  obtain ⟨hattached', hspends⟩ := hrun.spends hattached
  refine ⟨?_, ?_, hspends.document.changes, fun reaction => ?_, ?_, hattached'.goes_on,
    hattached'.exists_isSettled⟩
  · exact Nat.le_trans (Nat.le_add_right n e'.work) hspends.steps
  · exact Nat.le_trans (Nat.le_add_right k e'.timers) hspends.timers
  · exact Nat.le_trans (Nat.le_add_right _ _) (hspends.passes reaction)
  · have hevaluations := hspends.evaluations
    omega

/-- Two fields that depend on each other, on themselves and on the root, in their tests of validity
and of editability. -/
def tangledPair : Model :=
  let test := .ofRules (.rule
    (.ofPredicates none (some otherIsOne) (some otherIsOne) 10 ["", "a", "b"]))
  let field := { Property.template with
    validTests := [test]
    editTests := [test]
    policy := some { ChangePolicy.immediate with
      dependencyValid := ⟨100, false⟩
      selfAsyncValid := ⟨50, true⟩ } }
  ⟨"tangled", [{ field with name := some "a" }, { field with name := some "b" }], none⟩

/-- One field has changed, and in the middle of all debounces the other one does. -/
def editedTangle : List Op :=
  [.attach, .advance 1000, .setValue 2 (.natural 2), .advance 60, .setValue 1 (.natural 2)]

/-- Eight passes that run validity tests are left at most, of which time makes six. They make the
triggers for six evaluations. -/
theorem settles_editedTangle :
    ∃ e, ((start (.build tangledPair pairData .standard)).run editedTangle).engine? = some e ∧
      e.allPasses .validity = 0 ∧ (e.advance 1000).allPasses .validity = 6 ∧
      e.allEvaluations = 3 ∧ (e.advance 1000).allEvaluations = 9 ∧
      (e.advance 1000).isSettled = true ∧
      ∀ {n k e'}, e.Elapses n k e' → n ≤ 80 ∧ k ≤ n + 4 ∧ e'.allPasses .validity ≤ 8 ∧
        e'.allPasses .editability ≤ 10 ∧ e'.allEvaluations ≤ 4 + e'.allPasses .validity := by
  have hcounts : ((start (.build tangledPair pairData .standard)).run editedTangle).engine?.map
      (fun e => (e.allPasses .validity, (e.advance 1000).allPasses .validity,
        e.allEvaluations, (e.advance 1000).allEvaluations, (e.advance 1000).isSettled)) =
      some (0, 6, 3, 9, true) := by decide +kernel
  have hopen : ((start (.build tangledPair pairData .standard)).run editedTangle).engine?.map
      (fun e => (e.work, e.timers, e.openPasses .validity, e.allPasses .editability,
        e.openPasses .editability, e.openEvaluations)) = some (80, 4, 8, 5, 5, 1) := by
    decide +kernel
  obtain ⟨e, he, hcounts⟩ := Option.map_eq_some_iff.1 hcounts
  rw [he, Option.map_some, Option.some.injEq] at hopen
  simp only [Prod.mk.injEq] at hcounts hopen
  obtain ⟨hpasses, hpasses', hevaluations, hevaluations', hsettled⟩ := hcounts
  obtain ⟨hwork, htimers, hvalidity, hjudged, heditability, hasked⟩ := hopen
  refine ⟨e, he, hpasses, hpasses', hevaluations, hevaluations', hsettled, fun {n k e'} hrun => ?_⟩
  obtain ⟨hsteps, hexpired, -, hmade, hstarted, -⟩ :=
    (@settles_of_run _ e tangledPair pairData .standard editedTangle rfl he).2 hrun
  have hmadeValid := hmade .validity
  have hmadeEdit := hmade .editability
  exact ⟨by omega, by omega, by omega, by omega, by omega⟩

end ReactiveForm.Session
