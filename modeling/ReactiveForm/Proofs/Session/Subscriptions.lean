import ReactiveForm.Proofs.Recompute.UpToDate
import ReactiveForm.Proofs.Session.Effects

/-!
# Subscriptions in a session

When an array gains or loses an item, or a caller asks for it, the pipelines for dependencies are
made anew, and the own pipelines only for controls that are new. After every operation the scheduler
is as up to date with the form as one that is attached at that moment, and the own pipelines of the
controls that were there before are the same ones: operations that let no pipeline work leave them
exactly as they are, and with all others they go on (`upToDate_of_run`).
-/

namespace ReactiveForm.Session

variable {s : Session} {e e' : Engine} {op : Op} {control : ControlId}

/-- An operation that makes no pipeline work leaves the own pipelines of a control that stays. -/
theorem Effect.own? (h : Effect e op e') (hdrives : op.drives = false) {o : OwnPipelines}
    (ho : e.scheduler.own? control = some o) (hid : e'.form.contains control = true) :
    e'.scheduler.own? control = some o := by
  cases h with
  | moment h =>
      cases h with
      | none => exact ho
      | set => exact ho
      | external => exact ho
      | force => cases hdrives
      | step => cases hdrives
      | tick => cases hdrives
  | write => exact ho
  | revalidate => exact ho
  | reassess => exact ho
  | rebuild => exact Engine.GoesOn.own?_rebuild e ho hid
  | @perform op x edit =>
      exact Engine.GoesOn.own?_rebuild e ho ((Form.sameTree_edit_publish edit).contains _ ▸ hid)

/-- The own pipelines of a control that stays go on. -/
theorem Effect.goesOn (h : Effect e op e') (hsound : e.Sound)
    (hid : e'.form.contains control = true) : Engine.GoesOn control e e' := by
  cases hdrives : op.drives with
  | false =>
      refine ⟨fun {q} hq => ?_, fun {p} hp => ?_⟩
      · obtain ⟨o, ho, hedit⟩ := Option.bind_eq_some_iff.1 hq
        have ho' := h.own? hdrives ho hid
        exact ⟨q, by rw [Scheduler.editability?, ho', Option.bind_some, hedit], .refl⟩
      · obtain ⟨o, ho, hinquiry⟩ := Option.bind_eq_some_iff.1 hp
        have ho' := h.own? hdrives ho hid
        exact ⟨p, by rw [Scheduler.inquiry?_eq, ho', Option.bind_some, hinquiry], .refl⟩
  | true =>
      cases h with
      | moment h =>
          cases h with
          | none => exact .of_own? rfl
          | set => cases hdrives
          | external => exact .of_own? rfl
          | force id => exact .force e control id
          | step hstep => exact .step hsound hstep control
          | tick _ now => exact .tick e control now
      | @perform op x edit hedits =>
          cases op with
          | force | advance | turn | wait => cases hedits
          | _ => cases hdrives
      | _ => cases hdrives

/-- Making subscriptions anew step by step is as good as attaching a scheduler anew. After any
operations on a form, a scheduler that is attached has the subscriptions that one would have that is
attached now. Any further operation leaves the own pipelines of the controls that stay: they are the
same ones, and they have changed only by what pipelines do. -/
theorem upToDate_of_run {m : Model} {data : Json} {c : Config} {ops : List Op}
    (hs : (start (.build m data c)).run ops = s) (he : s.engine? = some e) :
    Scheduler.UpToDate e.form e.scheduler ∧
      ∀ op, op.keepsScheduler = true → ∃ e', (s.apply op).engine? = some e' ∧
        ∀ control, e'.form.contains control = true → Engine.GoesOn control e e' ∧
          (op.drives = false → ∀ o, e.scheduler.own? control = some o →
            e'.scheduler.own? control = some o) := by
  have hstart := sound_start m data c
  have hsound : s.Sound := hs ▸ sound_run hstart ops
  have hsubscribed : s.Subscribed := hs ▸ subscribed_run hstart (.of_none rfl) ops
  refine ⟨(hsubscribed e he).upToDate, fun op hop => ?_⟩
  by_cases hadvance : ∃ ms, op = .advance ms
  · obtain ⟨ms, rfl⟩ := hadvance
    exact ⟨_, engine?_apply_advance he ms, fun control _ =>
      ⟨.advance (hsound.serves he).sound control ms, fun hdrives => by cases hdrives⟩⟩
  · obtain ⟨e', he', heffect⟩ := effect_of_apply hop (fun ms heq => hadvance ⟨ms, heq⟩) he
    exact ⟨e', he', fun control hid => ⟨heffect.goesOn (hsound.serves he).sound hid,
      fun hdrives o ho => heffect.own? hdrives ho hid⟩⟩

/-- A field whose tests of validity and editability depend on the first two items of an array, which
has one item at first. Two items were added, and then the first one was taken out. -/
def shiftedList : Session :=
  let test := .ofRules (.rule (.ofPredicates none (some otherIsOne) none 10 ["list.0", "list.1"]))
  let field :=
    { Property.template with name := some "a", validTests := [test], editTests := [test] }
  let list := { Property.template with name := some "list", shape := .array .template }
  let data : Json := .object [("a", .natural 1), ("list", .array [.natural 1])]
  (start (.build ⟨"shifted", [field, list], none⟩ data .standard)).run
    [.attach, .push 2 (.natural 2), .push 2 (.natural 3), .advance 5, .remove 2 0]

/-- The paths lead to the items that have moved up. When the first one of these is taken out as
well, one path leads nowhere, and the field keeps its own pipeline. -/
theorem upToDate_shiftedList :
    ∃ e, shiftedList.engine? = some e ∧
      e.scheduler.dependencies.map (fun q => (q.control, q.watched)) =
        [(1, 4), (1, 5), (1, 4), (1, 5)] ∧
      Scheduler.UpToDate e.form e.scheduler ∧
      ∃ e', (shiftedList.apply (.remove 2 0)).engine? = some e' ∧
        e'.scheduler.dependencies.map (fun q => (q.control, q.watched)) = [(1, 5), (1, 5)] ∧
        (e.scheduler.own? 1).isSome = true ∧
        ∀ o, e.scheduler.own? 1 = some o → e'.scheduler.own? 1 = some o := by
  have hbefore : shiftedList.engine?.map (fun e =>
      (e.scheduler.dependencies.map fun q => (q.control, q.watched),
        (e.scheduler.own? 1).isSome)) =
      some ([(1, 4), (1, 5), (1, 4), (1, 5)], true) := by decide +kernel
  have hafter : (shiftedList.apply (.remove 2 0)).engine?.map (fun e =>
      (e.scheduler.dependencies.map fun q => (q.control, q.watched), e.form.contains 1)) =
      some ([(1, 5), (1, 5)], true) := by decide +kernel
  obtain ⟨e, he, heq⟩ := Option.map_eq_some_iff.1 hbefore
  obtain ⟨hwatched, hown⟩ := Prod.mk.inj heq
  obtain ⟨hcurrent, hnext⟩ := upToDate_of_run (s := shiftedList) rfl he
  obtain ⟨e', he', hkeeps⟩ := hnext (.remove 2 0) rfl
  rw [he', Option.map_some, Option.some.injEq] at hafter
  obtain ⟨hwatched', hid⟩ := Prod.mk.inj hafter
  exact ⟨e, he, hwatched, hcurrent, e', he', hwatched', hown, (hkeeps 1 hid).2 rfl⟩

end ReactiveForm.Session
