import ReactiveForm.Proofs.Recompute.Drops
import ReactiveForm.Proofs.Session.Current
import ReactiveForm.Proofs.Session.Evaluations
import ReactiveForm.Proofs.Session.Resubscription
import ReactiveForm.Proofs.Session.Turns

/-!
# Runs that drop only what was read

What a control has recorded about its validity was found on two forms: by checks on the form on
which its tests were run last, and by inquiries on the form on which the evaluation was started
whose results were applied last (`ReadsLast`). Both may have a value of a dependency that the
pipeline for it has not come to yet. A pipeline that asks for distinct values may then drop a value
because it equals the one yielded before that value. A run drops only what was read if each
value that is dropped, from such a reading on, equals the one that was read (`DropsOnlyRead`). A
burst in which the value that was read is replaced by another one does no harm as long as it is not
dropped in the end.

In the course of such a run the pipelines of the control guard what it has recorded (`Attends`). In
a settled session the record of the control is current then, just as if its pipelines asked for
every value (`current_of_dropsOnlyRead`).

Whether a run drops only what was read can be computed for a given session.
-/

namespace ReactiveForm

/-- Whether an evaluation is completed. -/
def EvaluationEvent.isCompleted : EvaluationEvent → Bool
  | .completed _ => true
  | .started _ | .abandoned _ => false

namespace Session

variable {s : Session} {e : Engine} {op : Op} {ops : List Op} {control : Nat} {race : Race}

/-! ## Readings -/

/-- In the course of an operation the validity tests of a control are run by checks. -/
def Checks (s : Session) (control : Nat) : Op → Prop
  | .setValue id v => (s.form.setValue id v).isOk = true ∧ control ∈ s.form.lineage id
  | .force id => id = control
  | .turn r race =>
    s.passes control .validity < (s.apply (.turn r race)).passes control .validity
  | _ => False

/-- In the course of some operations the validity tests of a control are run by checks. -/
def ChecksWithin (control : Nat) : Session → List Op → Prop
  | _, [] => False
  | s, op :: ops => s.Checks control op ∨ ChecksWithin control (s.apply op) ops

/-- How many evaluations by inquiries have been started for a control. -/
def asyncRuns (s : Session) (control : Nat) : Nat :=
  (s.engine?.map fun e => e.asyncRuns control).getD 0

/-- Of what is going to happen to the evaluations of a control, the one under way is completed, and
no later one is. -/
def endsCompleted : List EvaluationEvent → Bool
  | .completed _ :: later => !later.any EvaluationEvent.isCompleted
  | _ => false

/-- In the course of an operation, with some more to come, the validity tests of a control are run
by checks for the last time, or the evaluation by inquiries is started whose results are applied
last. -/
def ReadsLast (s : Session) (control : Nat) (op : Op) (ops : List Op) : Prop :=
  (s.Checks control op ∧ ¬ ChecksWithin control (s.apply op) ops) ∨
    (s.asyncRuns control < (s.apply op).asyncRuns control ∧
      endsCompleted ((s.apply op).evaluationLog control ops) = true)

/-! ## Drops -/

/-- The pipelines for the dependencies of all controls. -/
def dependencies (s : Session) : List ChangePipeline :=
  (s.engine?.map fun e => e.scheduler.dependencies).getD []

/-- The value that the pipeline at a place drops in an operation, with no other value before it. -/
def dropped? (s : Session) (place : Nat) : Op → Option Json
  | .turn (.dependency i) _ => if i = place then s.engine?.bind fun e => e.dropped? i else none
  | _ => none

/-- In the course of some operations the pipeline at a place drops only values that equal a given
one. -/
def DropsOnly (place : Nat) (v : Json) : Session → List Op → Prop
  | _, [] => True
  | s, op :: ops =>
    (∀ u ∈ s.dropped? place op, (v == u) = true) ∧ DropsOnly place v (s.apply op) ops

/-- In the course of some operations the pipelines for the dependencies of a control's validity drop
only values that equal the present ones. -/
def DropsOnlyPresent (s : Session) (control : Nat) (ops : List Op) : Prop :=
  ∀ place < s.dependencies.length, ∀ q ∈ s.dependencies[place]?,
    q.control = control → q.reaction = .validity →
      DropsOnly place (s.form.value q.watched) s ops

/-- Once the validity tests of a control have been run for the last time, no value of a dependency
is dropped that differs from the one that was read. -/
def DropsOnlyRead (control : Nat) : Session → List Op → Prop
  | _, [] => True
  | s, op :: ops =>
    (s.ReadsLast control op ops → (s.apply op).DropsOnlyPresent control ops) ∧
      DropsOnlyRead control (s.apply op) ops

section Decidable

instance (s : Session) (control : Nat) : ∀ op, Decidable (s.Checks control op)
  | .setValue .. => inferInstanceAs (Decidable (_ ∧ _))
  | .force id => inferInstanceAs (Decidable (id = control))
  | .turn .. => inferInstanceAs (Decidable (_ < _))
  | .insert .. | .push .. | .remove .. | .setExternal .. | .clearExternal .. | .writeState ..
  | .revalidate _ | .reassess _ | .observe | .unobserve _ | .rebuild | .attach | .detach
  | .advance _ | .wait _ => inferInstanceAs (Decidable False)

instance decidableChecksWithin (control : Nat) :
    ∀ (s : Session) (ops : List Op), Decidable (ChecksWithin control s ops)
  | _, [] => inferInstanceAs (Decidable False)
  | s, op :: ops =>
    have := decidableChecksWithin control (s.apply op) ops
    inferInstanceAs (Decidable (s.Checks control op ∨ ChecksWithin control (s.apply op) ops))

instance (s : Session) (control : Nat) (op : Op) (ops : List Op) :
    Decidable (s.ReadsLast control op ops) :=
  inferInstanceAs (Decidable (_ ∨ _))

instance decidableDropsOnly (place : Nat) (v : Json) :
    ∀ (s : Session) (ops : List Op), Decidable (DropsOnly place v s ops)
  | _, [] => inferInstanceAs (Decidable True)
  | s, op :: ops =>
    have := decidableDropsOnly place v (s.apply op) ops
    inferInstanceAs (Decidable ((∀ u ∈ s.dropped? place op, (v == u) = true) ∧
      DropsOnly place v (s.apply op) ops))

instance (s : Session) (control : Nat) (ops : List Op) :
    Decidable (s.DropsOnlyPresent control ops) :=
  inferInstanceAs (Decidable (∀ place < s.dependencies.length, ∀ q ∈ s.dependencies[place]?,
    q.control = control → q.reaction = .validity →
      DropsOnly place (s.form.value q.watched) s ops))

instance decidableDropsOnlyRead (control : Nat) :
    ∀ (s : Session) (ops : List Op), Decidable (DropsOnlyRead control s ops)
  | _, [] => inferInstanceAs (Decidable True)
  | s, op :: ops =>
    have := decidableDropsOnlyRead control (s.apply op) ops
    inferInstanceAs (Decidable ((s.ReadsLast control op ops →
      (s.apply op).DropsOnlyPresent control ops) ∧ DropsOnlyRead control (s.apply op) ops))

end Decidable

theorem asyncRuns_of_engine? (he : s.engine? = some e) :
    s.asyncRuns control = e.asyncRuns control := by
  rw [asyncRuns, he]
  rfl

theorem dependencies_of_engine? (he : s.engine? = some e) :
    s.dependencies = e.scheduler.dependencies := by
  rw [dependencies, he]
  rfl

theorem not_checks_of_rests (he : s.engine? = some e) (hrests : op.Rests e) :
    ¬ s.Checks control op := by
  cases op with
  | setValue id v =>
      rintro ⟨hok, -⟩
      rw [Op.Rests, form_of_engine? he, hok] at hrests
      cases hrests
  | force id => exact hrests.elim
  | turn r race =>
      have hnone : e.step? r race = none := hrests
      have hsame : s.apply (.turn r race) = s := by
        simp only [apply, he, Option.bind_some, hnone]
        rfl
      exact fun hmore : s.passes control .validity < _ => absurd (hsame ▸ hmore) (Nat.lt_irrefl _)
  | _ => exact id

/-! ## Steps -/

/-- With operations to come, the pipelines of a control guard what was found on an earlier form.
-/
def Guards (s : Session) (control : Nat) (ops : List Op) (e : Engine) (past : Form) : Prop :=
  e.Guards control past fun place v => DropsOnly place v s ops

/-- The form on which the kept results of a control were found is guarded, unless there is an excuse
or other results are going to be applied. -/
def KeepsGuarded (s : Session) (control : Nat) (ops : List Op) (e : Engine) (past : Form)
    (excuse : Prop) : Prop :=
  excuse ∨ (s.evaluationLog control ops).any EvaluationEvent.isCompleted = true ∨
    s.Guards control ops e past

/-- The form on which the evaluation under way was started is guarded, unless there is an excuse or
its results are not those that are applied last. -/
def AwaitsGuarded (s : Session) (control : Nat) (ops : List Op) (e : Engine) (past : Form)
    (excuse : Prop) : Prop :=
  excuse ∨ endsCompleted (s.evaluationLog control ops) = false ∨ s.Guards control ops e past

/-- What a session with some operations to come has recorded about a control is guarded, unless it
is going to be replaced. -/
structure Attends (s : Session) (control : Nat) (ops : List Op) (e : Engine) : Prop where
  engine : s.engine? = some e
  fit : e.Fit
  published : e.form.Published
  recorded : e.Recorded control fun past =>
    ChecksWithin control s ops ∨ s.Guards control ops e past
  answered : ∀ p, e.form.property? control = some p → p.validTests.any Test.hasInquiry = true →
    e.Answered control (s.KeepsGuarded control ops e) (s.AwaitsGuarded control ops e)

theorem excusable_or (P : Form → Prop) : Engine.Excusable fun past excuse => excuse ∨ P past where
  imp h himp := h.imp_left himp
  excused h := .inl h

/-- The present form is guarded if nothing but its values is going to be dropped. -/
theorem DropsOnlyPresent.guards (h : s.DropsOnlyPresent control ops) (he : s.engine? = some e) :
    s.Guards control ops e e.form :=
  .read fun place q hq hcontrol hreaction => by
    rw [← dependencies_of_engine? he] at hq
    rw [form_of_engine? he]
    exact h place (List.getElem?_eq_some_iff.1 hq).1 q hq hcontrol hreaction

/-- What is guarded with an operation to come is guarded behind it, if the operation leaves the
document and the pipelines. -/
theorem Guards.document {past : Form} {e' : Engine} (h : s.Guards control (op :: ops) e past)
    (hdoc : Form.SameDocument e'.form e.form)
    (hdeps : e'.scheduler.dependencies = e.scheduler.dependencies) :
    (s.apply op).Guards control ops e' past :=
  (Engine.Guards.document h hdoc hdeps).imp fun _ _ hdrops => hdrops.2

theorem Guards.set {past : Form} (h : s.Guards control (op :: ops) e past) (fit : e.Fit)
    {id : ControlId} {v : Json} {f : Form} (hset : e.form.setValue id v = .ok f) :
    (s.apply op).Guards control ops { e with form := f } past :=
  (Engine.Guards.set h fit hset).imp fun _ _ hdrops => hdrops.2

/-- In an operation in which nothing happens to the evaluations of a control, what holds of their
forms goes on to hold. -/
theorem keeps_of_silent {e' : Engine} (hsilent : s.evaluationEvents control op = [])
    (hguards : ∀ past, s.Guards control (op :: ops) e past →
      (s.apply op).Guards control ops e' past) :
    (∀ past excuse, s.KeepsGuarded control (op :: ops) e past excuse →
        (s.apply op).KeepsGuarded control ops e' past excuse) ∧
      ∀ past excuse, s.AwaitsGuarded control (op :: ops) e past excuse →
        (s.apply op).AwaitsGuarded control ops e' past excuse := by
  have hlog : s.evaluationLog control (op :: ops) = (s.apply op).evaluationLog control ops := by
    rw [evaluationLog, hsilent, List.nil_append]
  refine ⟨fun past excuse => ?_, fun past excuse => ?_⟩
  · rw [KeepsGuarded, KeepsGuarded, hlog]
    exact Or.imp_right (Or.imp_right (hguards past))
  · rw [AwaitsGuarded, AwaitsGuarded, hlog]
    exact Or.imp_right (Or.imp_right (hguards past))

theorem evaluationEvents_of_rests (he : s.engine? = some e) (hrests : op.Rests e) :
    s.evaluationEvents control op = [] := by
  rcases op.turn_or_avoidsInquiry control with ⟨race, rfl⟩ | hother
  · have hnone : e.stepInquiry? control race = none := hrests
    rw [evaluationEvents, if_pos rfl, he, Option.bind_some, hnone]
    rfl
  · exact s.evaluationEvents_of_ne hother

namespace Attends

section Apply

variable {e' : Engine} (h : s.Attends control (op :: ops) e)
  (hreads : s.ReadsLast control op ops → (s.apply op).DropsOnlyPresent control ops)
  (he' : (s.apply op).engine? = some e')

include hreads he'

/-- Checks that are run for the last time are guarded. -/
theorem checked (hchecks : s.Checks control op) :
    ChecksWithin control (s.apply op) ops ∨ (s.apply op).Guards control ops e' e'.form :=
  (Classical.em _).imp_right fun hlast => (hreads (.inl ⟨hchecks, hlast⟩)).guards he'

include h

/-- An evaluation that is started is guarded if it is completed and no later one is. -/
theorem awaited (hstarted : e.asyncRuns control < e'.asyncRuns control) (excuse : Prop) :
    (s.apply op).AwaitsGuarded control ops e' e'.form excuse := by
  refine .inr ?_
  cases hends : endsCompleted ((s.apply op).evaluationLog control ops) with
  | false => exact .inl rfl
  | true =>
      refine .inr ((hreads (.inr ⟨?_, hends⟩)).guards he')
      rwa [asyncRuns_of_engine? h.engine, asyncRuns_of_engine? he']

end Apply

/-- An operation that rests leaves everything as it is. -/
theorem rest (h : s.Attends control (op :: ops) e) (hrests : op.Rests e)
    (he' : (s.apply op).engine? = some e) : (s.apply op).Attends control ops e where
  engine := he'
  fit := h.fit
  published := h.published
  recorded := h.recorded.document (.refl e.form) (fun s hs => ⟨s, hs, rfl⟩) fun _ =>
    Or.imp (·.resolve_left (not_checks_of_rests h.engine hrests)) (·.document (.refl _) rfl)
  answered p hp hinquiry :=
    have hkeeps := keeps_of_silent (evaluationEvents_of_rests h.engine hrests) fun _ hguards =>
      hguards.document (.refl e.form) rfl
    (h.answered p hp hinquiry).imp hkeeps.1 hkeeps.2

/-- A new value makes the tests run along the lineage of the field. -/
theorem set {id : ControlId} {v : Json} {f : Form}
    (h : s.Attends control (.setValue id v :: ops) e) (hset : e.form.setValue id v = .ok f)
    (hreads : s.ReadsLast control (.setValue id v) ops →
      (s.apply (.setValue id v)).DropsOnlyPresent control ops)
    (he' : (s.apply (.setValue id v)).engine? = some { e with form := f }) :
    (s.apply (.setValue id v)).Attends control ops { e with form := f } where
  engine := he'
  fit := (Engine.Event.set hset).fit h.fit
  published := (Engine.Event.set hset).published h.fit h.published
  recorded := by
    have hok : (s.form.setValue id v).isOk = true := by
      rw [← form_of_engine? h.engine, hset]
      rfl
    refine h.recorded.set h.fit.tree hset (fun hmem past => ?_) fun hmem =>
      checked hreads he' ⟨hok, form_of_engine? h.engine ▸ hmem⟩
    refine Or.imp (fun hwithin => hwithin.resolve_left fun hchecks => ?_)
      fun hguards => hguards.set h.fit hset
    exact hmem (form_of_engine? h.engine ▸ hchecks.2)
  answered p hp hinquiry :=
    have hkeeps := keeps_of_silent rfl fun _ hguards => hguards.set h.fit hset
    (h.answered p ((Form.sameTree_setValue hset).property? control ▸ hp) hinquiry).set h.fit hset
      hkeeps.1 hkeeps.2

theorem external (h : s.Attends control (op :: ops) e) (hrests : op.Rests e) (id : ControlId)
    (change : List (String × String) → List (String × String))
    (he' : (s.apply op).engine? = some { e with
      form := e.form.modifyState id fun st =>
        { st with externalErrors := change st.externalErrors } }) :
    (s.apply op).Attends control ops { e with
      form := e.form.modifyState id fun st =>
        { st with externalErrors := change st.externalErrors } } := by
  have hdoc := Form.sameDocument_modifyState e.form id fun st =>
    { st with externalErrors := change st.externalErrors }
  have hguards : ∀ past, s.Guards control (op :: ops) e past →
      (s.apply op).Guards control ops { e with
        form := e.form.modifyState id fun st =>
          { st with externalErrors := change st.externalErrors } } past :=
    fun _ hguards => hguards.document hdoc rfl
  have hkeeps := keeps_of_silent (evaluationEvents_of_rests h.engine hrests) hguards
  refine ⟨he', (Engine.Event.external id change).fit h.fit,
    (Engine.Event.external id change).published h.fit h.published, ?_, fun p hp hinquiry => ?_⟩
  · exact h.recorded.external id change fun past =>
      Or.imp (·.resolve_left (not_checks_of_rests h.engine hrests)) (hguards past)
  · exact (h.answered p (hdoc.sameTree.property? control ▸ hp) hinquiry).external id change
      hkeeps.1 hkeeps.2

/-- An inquiry is forced together with a check. -/
theorem force {id : ControlId} (h : s.Attends control (.force id :: ops) e)
    (hreads : s.ReadsLast control (.force id) ops →
      (s.apply (.force id)).DropsOnlyPresent control ops)
    (he' : (s.apply (.force id)).engine? = some (e.force id)) :
    (s.apply (.force id)).Attends control ops (e.force id) := by
  have hdoc := Engine.sameDocument_force e id
  have hguards : ∀ past, s.Guards control (.force id :: ops) e past →
      (s.apply (.force id)).Guards control ops (e.force id) past := fun _ hguards =>
    hguards.document hdoc rfl
  have hkeeps := keeps_of_silent rfl hguards
  refine ⟨he', (Engine.Event.force id).fit h.fit,
    (Engine.Event.force id).published h.fit h.published, ?_, fun p hp hinquiry => ?_⟩
  · exact h.recorded.force id
      (fun hne past => Or.imp (·.resolve_left fun heq => hne heq.symm) (hguards past))
      fun heq => checked hreads he' heq.symm
  · exact (h.answered p (hdoc.sameTree.property? control ▸ hp) hinquiry).force h.fit.sound
      (excusable_or _) (excusable_or _) id (fun _ => hkeeps.1) fun _ => hkeeps.2

theorem tick {ms : Nat} (h : s.Attends control (.wait ms :: ops) e) (now : Nat)
    (he' : (s.apply (.wait ms)).engine? = some (e.tick now)) :
    (s.apply (.wait ms)).Attends control ops (e.tick now) := by
  have hguards : ∀ past, s.Guards control (.wait ms :: ops) e past →
      (s.apply (.wait ms)).Guards control ops (e.tick now) past := fun _ hguards =>
    hguards.document (.refl e.form) rfl
  have hkeeps := keeps_of_silent rfl hguards
  refine ⟨he', (Engine.Event.tick now).fit h.fit, h.published, ?_, fun p hp hinquiry => ?_⟩
  · exact h.recorded.document (.refl e.form) (fun s hs => ⟨s, hs, rfl⟩) fun past =>
      Or.imp (·.resolve_left id) (hguards past)
  · exact ((h.answered p hp hinquiry).tick (excusable_or _) now).imp hkeeps.1 hkeeps.2

/-- In a turn of the inquiry pipeline an evaluation that is given up leaves the kept results, and an
evaluation that is completed takes their place. -/
private theorem keeps_of_turn {e' : Engine} (he : s.engine? = some e) (sound : e.Sound)
    (hstep : e.stepInquiry? control race = some e') {p : InquiryPipeline}
    (hp : e.scheduler.inquiry? control = some p)
    (hguards : ∀ past, s.Guards control (.turn (.inquiry control) race :: ops) e past →
      (s.apply (.turn (.inquiry control) race)).Guards control ops e' past) :
    (e.GivesUp p race → ∀ past excuse,
      s.KeepsGuarded control (.turn (.inquiry control) race :: ops) e past excuse →
        (s.apply (.turn (.inquiry control) race)).KeepsGuarded control ops e' past excuse) ∧
    (¬ e.GivesUp p race → ∀ past excuse,
      s.AwaitsGuarded control (.turn (.inquiry control) race :: ops) e past excuse →
        (s.apply (.turn (.inquiry control) race)).KeepsGuarded control ops e' past excuse) := by
  obtain ⟨rfl, -⟩ := sound.inquiry hp
  have hevents : s.evaluationEvents p.control (.turn (.inquiry p.control) race) =
      e.evaluationEvents p.control race e' := by
    rw [evaluationEvents, if_pos rfl, he, Option.bind_some, hstep]
    rfl
  refine ⟨fun hgivesUp past excuse => ?_, fun happlies past excuse => ?_⟩
  · rw [KeepsGuarded, KeepsGuarded, evaluationLog, hevents, List.any_append]
    refine Or.imp_right (Or.imp (fun hlater => ?_) (hguards past))
    refine (Bool.or_eq_true_iff.1 hlater).resolve_left fun hnow => ?_
    obtain ⟨event, hmem, hcompleted⟩ := List.any_eq_true.1 hnow
    cases event with
    | completed v => exact hgivesUp.not_completed hp v hmem
    | started v => cases hcompleted
    | abandoned v => cases hcompleted
  · obtain ⟨p', hp', -, ⟨v, hphase, hdue, hfirst, rfl⟩ | ⟨hgivesUp, -⟩⟩ :=
      Engine.own_step_cases sound hstep
    · rw [hp] at hp'
      cases hp'
      rw [AwaitsGuarded, KeepsGuarded, evaluationLog, hevents,
        Engine.evaluationEvents_complete hp hphase hdue hfirst]
      refine Or.imp_right (Or.imp (fun hnotLast => ?_) (hguards past))
      simpa [endsCompleted] using hnotLast
    · rw [hp] at hp'
      cases hp'
      exact absurd hgivesUp happlies

/-- By a step the control may make a pass of its validity, or start or complete an evaluation. -/
theorem step {e' : Engine} {r : PipelineRef} (h : s.Attends control (.turn r race :: ops) e)
    (hstep : e.step? r race = some e')
    (hreads : s.ReadsLast control (.turn r race) ops →
      (s.apply (.turn r race)).DropsOnlyPresent control ops)
    (he' : (s.apply (.turn r race)).engine? = some e') :
    (s.apply (.turn r race)).Attends control ops e' := by
  have hdoc := Engine.sameDocument_step h.fit.sound hstep
  have hpasses : s.Checks control (.turn r race) ↔
      e.passes control .validity < e'.passes control .validity := by
    rw [Checks, passes_of_engine? h.engine, passes_of_engine? he']
  have hguards : e'.passes control .validity = e.passes control .validity →
      ∀ past, s.Guards control (.turn r race :: ops) e past →
        (s.apply (.turn r race)).Guards control ops e' past := by
    intro hquiet past hguards
    refine (Engine.Guards.step hguards h.fit h.published hstep hquiet ?_).imp
      fun _ _ hdrops => hdrops.2
    rintro i rfl v u hdrops hdropped
    refine hdrops.1 u ?_
    rw [dropped?, if_pos rfl, h.engine, Option.bind_some]
    exact hdropped
  refine ⟨he', (Engine.Event.step hstep).fit h.fit,
    (Engine.Event.step hstep).published h.fit h.published, ?_, fun p hp hinquiry => ?_⟩
  · refine h.recorded.step h.fit.sound hstep (fun hquiet past => ?_)
      fun hmore => checked hreads he' (hpasses.2 hmore)
    refine Or.imp (·.resolve_left fun hchecks => ?_) (hguards hquiet past)
    exact absurd (hpasses.1 hchecks) (by omega)
  · have hown : r = .inquiry control → ∀ past, s.Guards control (.turn r race :: ops) e past →
        (s.apply (.turn r race)).Guards control ops e' past := fun heq => hguards <| by
      rw [heq] at hstep
      exact Engine.passes_of_stepInquiry? h.fit.sound hstep control .validity
    refine (h.answered p (hdoc.sameTree.property? control ▸ hp) hinquiry).step h.fit.sound
      (excusable_or _) (excusable_or _) (excusable_or _) (excusable_or _) hstep
      (fun hother hquiet => keeps_of_silent ?_ (hguards hquiet)) ?_ ?_
      (h.awaited hreads he')
    · exact s.evaluationEvents_of_ne fun race heq => hother (by injection heq)
    · rintro rfl q hq
      exact (keeps_of_turn h.engine h.fit.sound hstep hq (hown rfl)).1
    · rintro rfl q hq
      exact (keeps_of_turn h.engine h.fit.sound hstep hq (hown rfl)).2

/-- An operation that keeps the structure and takes no time, or moves the clock alone. -/
theorem apply (h : s.Attends control (op :: ops) e) (hquiet : op.isQuiet = true)
    (hmoment : ∀ ms, op ≠ .advance ms)
    (hreads : s.ReadsLast control op ops → (s.apply op).DropsOnlyPresent control ops) :
    ∃ e', (s.apply op).Attends control ops e' := by
  obtain ⟨e', he', hchange⟩ := moment_of_apply hquiet hmoment h.engine
  refine ⟨e', ?_⟩
  cases hchange with
  | none hrests => exact h.rest hrests he'
  | set hset => exact h.set hset hreads he'
  | external hrests id change => exact h.external hrests id change he'
  | force id => exact h.force hreads he'
  | step hstep => exact h.step hstep hreads he'
  | tick ms now => exact h.tick now he'

theorem run (h : s.Attends control ops e) (hquiet : ∀ op ∈ ops, op.isQuiet = true)
    (hmoments : ∀ op ∈ ops, ∀ ms, op ≠ .advance ms) (hdrops : DropsOnlyRead control s ops) :
    ∃ e', (s.run ops).Attends control [] e' := by
  induction ops generalizing s e with
  | nil => exact ⟨e, h⟩
  | cons op ops ih =>
      obtain ⟨e', h'⟩ := h.apply (hquiet op List.mem_cons_self) (hmoments op List.mem_cons_self)
        hdrops.1
      exact ih h' (fun o ho => hquiet o (List.mem_cons_of_mem _ ho))
        (fun o ho => hmoments o (List.mem_cons_of_mem _ ho)) hdrops.2

/-- A session that was launched has read the values of its first form. -/
theorem launch (m : Model) (data : Json) (c : Config) (control : Nat) (ops : List Op) :
    (Session.launch m data c).Attends control ops (launched m data c) where
  engine := rfl
  fit := fit_launched m data c
  published := Form.published_build m data c
  recorded := recorded_launched (.inr (.attach _ _ _))
  answered _ hp hinquiry := answered_launched hp hinquiry

end Attends

/-- The record of a control is current in a settled session if the run has dropped only what was
read. -/
theorem current_of_dropsOnlyRead {m : Model} {data : Json} {c : Config}
    (hquiet : ∀ op ∈ ops, op.isQuiet = true) (hs : (launch m data c).run ops = s)
    (hsettled : s.isSettled = true)
    (hdrops : DropsOnlyRead control (launch m data c) ((launch m data c).turns ops)) :
    s.form.Current control := by
  obtain ⟨e, he, hform, hevents, hsettled⟩ := exists_engine_of_isSettled hquiet hs hsettled
  have hsound := sound_start m data c
  have hturns : (launch m data c).run ((launch m data c).turns ops) = s :=
    (run_turns (sound_apply hsound .attach)
      (subscribed_apply hsound (.of_none rfl) .attach) ops).trans hs
  obtain ⟨e', hattends⟩ := (Attends.launch m data c control _).run
    (fun _ hop => isQuiet_of_mem_turns hquiet hop)
    (fun op hop ms heq => advance_not_mem_turns _ ops ms (heq ▸ hop)) hdrops
  rw [hturns] at hattends
  obtain rfl : e = e' := Option.some.inj (he.symm.trans hattends.engine)
  have hdependencies : ∀ past, s.Guards control [] e past →
      ∀ d, Scheduler.DependsOn e.form control d .validity →
        (past.value d == e.form.value d) = true := fun _ hguards _ hdep =>
    (Engine.Guards.of_isSettled hguards hattends.fit hsettled hdep).beq
  rw [← hform]
  -- with no operation to come, nothing that was recorded is going to be replaced
  refine current_of_events hevents hsettled hattends.recorded (excusable_or _) hattends.answered
    (fun past hpast => hdependencies past (hpast.resolve_left id)) fun past hpast => ?_
  rcases hpast with hfalse | hlater | hguards
  · exact hfalse.elim
  · cases hlater
  · exact hdependencies past hguards

end Session

end ReactiveForm
