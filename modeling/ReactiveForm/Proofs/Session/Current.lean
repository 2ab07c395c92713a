import ReactiveForm.Proofs.Form.Twin
import ReactiveForm.Proofs.Json.Equality
import ReactiveForm.Proofs.Rule.Agreement
import ReactiveForm.Proofs.Rule.Skipping
import ReactiveForm.Proofs.Session.AsyncValidity
import ReactiveForm.Proofs.Session.SyncValidity

/-!
# Current records

What is recorded about the validity of a control is current if it was found on earlier forms in
which the control and its dependencies had the values that they have now, up to the signs of zeros
(`Form.Current`). In a settled session the record of a control is current if its pipelines ask for
every value of its dependencies (`current_of_distinct_eq_false`).

If the rules of a control are confined to the control and its dependencies (`Form.Confined`), that
determines the record: twins with current records have recorded the same errors
(`Form.Twin.errors?_eq`).
-/

namespace ReactiveForm

theorem Json.beq_of_eq {v w : Json} (h : v = w) : (v == w) = true :=
  Json.beq_iff_plainZeros.2 (congrArg _ h)

theorem ChangeSettings.Equates.beq {settings : ChangeSettings} {v w : Json}
    (h : settings.Equates v w) : (v == w) = true := by
  rcases h with heq | ⟨-, heq⟩
  · exact Json.beq_of_eq heq
  · exact heq

namespace Form

variable {f g past past' : Form} {control : ControlId}

/-- In an earlier form a control and what its validity depends on had values that are equal to the
present ones. -/
structure Resembles (past f : Form) (control : ControlId) : Prop where
  tree : SameTree past f
  own : (past.value control == f.value control) = true
  dependencies : ∀ d, Scheduler.DependsOn f control d .validity →
    (past.value d == f.value d) = true

/-- What is recorded about the validity of a control was found on forms that resemble the present
one: by checks on one of them, and by inquiries on another one. -/
structure Current (f : Form) (control : ControlId) : Prop where
  checks : ∃ past, Resembles past f control ∧ ∀ s, f.state? control = some s →
    s.syncErrors = (past.verdict control Property.validTests).errors?
  inquiries : ∃ past, Resembles past f control ∧ ∀ s, f.state? control = some s →
    s.asyncErrors = (past.reply control (f.testsOf control Property.validTests)).errors?

/-- The rules of the validity tests of a control look at the value and at the places that the
control and its dependencies have in the document, and nowhere else. There they cannot tell apart
what is the same. -/
def Confined (f : Form) (same : Json → Json → Prop) (control : ControlId) : Prop :=
  ∀ v w root root', same v w →
    (∀ d, d = control ∨ Scheduler.DependsOn f control d .validity →
      ∀ place, f.place? d = some place → same (root.place place) (root'.place place)) →
    ∀ t ∈ f.testsOf control Property.validTests, ∀ r ∈ t.ruleList, r.Agrees v root w root'

theorem Confined.congr {same : Json → Json → Prop} (h : f.Confined same control)
    (t : SameTests f g) : g.Confined same control := by
  intro v w root root' hown hplaces test htest
  refine h v w root root' hown (fun d hd place hplace => ?_) test (t.testsOf control ▸ htest)
  exact hplaces d (hd.imp_right t.dependsOn) place ((t.shape.place? d).symm.trans hplace)

theorem Resembles.value (h : Resembles past f control) {d : ControlId}
    (hd : d = control ∨ Scheduler.DependsOn f control d .validity) :
    (past.value d == f.value d) = true := by
  rcases hd with rfl | hdep
  · exact h.own
  · exact h.dependencies d hdep

theorem Resembles.refl (f : Form) (control : ControlId) : Resembles f f control :=
  ⟨.refl f, Json.beq_of_eq rfl, fun _ _ => Json.beq_of_eq rfl⟩

/-- Confined rules say the same about forms that resemble twins. -/
theorem Confined.agrees (h : f.Confined (· == ·) control) (sound : f.SoundTree) (t : Twin f g)
    (hpast : Resembles past f control) (hpast' : Resembles past' g control) :
    ∀ test ∈ f.testsOf control Property.validTests, ∀ r ∈ test.ruleList,
      r.Agrees (past.value control) past.rootValue (past'.value control) past'.rootValue := by
  have sound' : past'.SoundTree := (t.tests.shape.trans hpast'.tree.symm.shape).soundTree sound
  have hvalue : ∀ d, d = control ∨ Scheduler.DependsOn f control d .validity →
      (past.value d == past'.value d) = true := by
    intro d hd
    have hnow : (past.value d == f.value d) = true := hpast.value hd
    have hnow' : (past'.value d == g.value d) = true :=
      hpast'.value (hd.imp_right t.tests.dependsOn)
    exact Json.beq_trans hnow (t.value d ▸ Json.beq_symm hnow')
  refine h _ _ _ _ (hvalue control (.inl rfl)) fun d hd place hplace => ?_
  have hplace' : g.place? d = some place := (t.tests.shape.place? d).symm.trans hplace
  rw [(hpast.tree.symm.soundTree sound).rootValue_place ((hpast.tree.place? d).trans hplace),
    sound'.rootValue_place ((hpast'.tree.place? d).trans hplace')]
  exact hvalue d hd

/-- The errors that are recorded about the validity of a control, by checks and by inquiries. -/
def errors? (f : Form) (control : ControlId) : Option (Option TestResults × Option TestResults) :=
  (f.state? control).map fun s => (s.syncErrors, s.asyncErrors)

/-- Twins with current records of a control with confined rules have recorded the same errors. -/
theorem Twin.errors?_eq (t : Twin f g) (sound : f.SoundTree)
    (hconfined : f.Confined (· == ·) control) (hf : f.Current control) (hg : g.Current control) :
    f.errors? control = g.errors? control := by
  obtain ⟨past, hpast, hchecks⟩ := hf.checks
  obtain ⟨past', hpast', hchecks'⟩ := hg.checks
  obtain ⟨snapshot, hsnapshot, hinquiries⟩ := hf.inquiries
  obtain ⟨snapshot', hsnapshot', hinquiries'⟩ := hg.inquiries
  have hverdict : past.verdict control Property.validTests =
      past'.verdict control Property.validTests := by
    rw [verdict, verdict, hpast.tree.testsOf, hpast'.tree.testsOf, ← t.tests.testsOf]
    exact TestResults.results_runChecks_congr (hconfined.agrees sound t hpast hpast')
  have hreply : snapshot.reply control (f.testsOf control Property.validTests) =
      snapshot'.reply control (g.testsOf control Property.validTests) := by
    rw [reply, reply, ← t.tests.testsOf]
    exact TestResults.results_runInquiries_congr
      (hconfined.agrees sound t hsnapshot hsnapshot')
  have hstates : (f.state? control).isSome = (g.state? control).isSome := by
    rw [state?, state?, Option.isSome_map, Option.isSome_map]
    exact t.tests.shape.contains control
  cases hs : f.state? control with
  | none =>
      rw [hs] at hstates
      have hnone : g.state? control = none := by simpa using hstates.symm
      rw [errors?, errors?, hs, hnone]
  | some s =>
      rw [hs] at hstates
      obtain ⟨s', hs'⟩ := Option.isSome_iff_exists.1 hstates.symm
      rw [errors?, errors?, hs, hs', Option.map_some, Option.map_some, hchecks s hs,
        hchecks' s' hs', hinquiries s hs, hinquiries' s' hs', hverdict, hreply]

end Form

/-! ## Settled sessions -/

namespace Engine

variable {e : Engine} {control : Nat}

theorem Recorded.checks {X : Form → Prop} (h : e.Recorded control X)
    (hdependencies : ∀ past, X past → ∀ d, Scheduler.DependsOn e.form control d .validity →
      (past.value d == e.form.value d) = true) :
    ∃ past, Form.Resembles past e.form control ∧ ∀ s, e.form.state? control = some s →
      s.syncErrors = (past.verdict control Property.validTests).errors? := by
  obtain ⟨past, htree, hvalue, hrecorded, hX⟩ := h
  exact ⟨past, ⟨htree, Json.beq_of_eq hvalue, hdependencies past hX⟩, hrecorded⟩

theorem Answered.inquiries {K A : Form → Prop → Prop} (h : e.Answered control K A)
    (hK : Excusable K) (fit : e.Fit) (hsettled : e.isSettled = true)
    (hdependencies : ∀ past, K past False → ∀ d, Scheduler.DependsOn e.form control d .validity →
      (past.value d == e.form.value d) = true) :
    ∃ past, Form.Resembles past e.form control ∧ ∀ s, e.form.state? control = some s →
      s.asyncErrors =
        (past.reply control (e.form.testsOf control Property.validTests)).errors? := by
  obtain ⟨q, past, hq, htree, hshows, hequates, hpast⟩ := h.of_isSettled hK fit.sound hsettled
  obtain ⟨p, hp, -, htests, -⟩ := fit.own.inquiry hq
  have htests : e.form.testsOf control Property.validTests = q.tests := by
    rw [Form.testsOf, hp, htests]
    rfl
  exact ⟨past, ⟨htree, hequates.beq, hdependencies past hpast⟩,
    fun s hs => htests ▸ (hshows s hs).2⟩

end Engine

namespace Session

variable {m : Model} {data : Json} {c : Config} {e : Engine} {control : Nat}

/-- A control whose tests make no inquiries has no pipeline for them. -/
theorem inquiry?_launched
    (hnone : ((Form.build m data c).testsOf control Property.validTests).any Test.hasInquiry = false) :
    (launched m data c).scheduler.inquiry? control = none := by
  refine (Scheduler.inquiry?_attach (Form.build m data c) control).trans ?_
  rw [Form.testsOf] at hnone
  cases hp : (Form.build m data c).property? control with
  | none => rfl
  | some p =>
      rw [hp, Option.map_some, Option.getD_some] at hnone
      simp [Scheduler.inquiryOf?, hnone]

/-- Without inquiries there are no errors by inquiries, as the tests would find on any form. -/
private theorem inquiries_of_no_inquiry (hevents : (launched m data c).Events e)
    (hnone : (e.form.testsOf control Property.validTests).any Test.hasInquiry = false) :
    ∀ s, e.form.state? control = some s → s.asyncErrors =
      (e.form.reply control (e.form.testsOf control Property.validTests)).errors? := by
  have fit := fit_launched m data c
  have hpipeline : (launched m data c).scheduler.inquiry? control = none :=
    inquiry?_launched ((hevents.sameTree fit.sound).testsOf control _ ▸ hnone)
  intro s hs
  rw [hevents.asyncErrors_eq_none fit.sound hpipeline (fun s hs => (Form.inquired_build hs).2) s hs,
    Form.reply, TestResults.errors?_runInquiries (by simpa using hnone)]

/-- The record of a control is current in a settled session that was launched, if the forms on which
it was found had values of the dependencies that equal the present ones. -/
theorem current_of_events (hevents : (launched m data c).Events e)
    (hsettled : e.isSettled = true) {X : Form → Prop} {K A : Form → Prop → Prop}
    (hrecorded : e.Recorded control X) (hK : Engine.Excusable K)
    (hanswered : ∀ p, e.form.property? control = some p →
      p.validTests.any Test.hasInquiry = true → e.Answered control K A)
    (hchecks : ∀ past, X past → ∀ d, Scheduler.DependsOn e.form control d .validity →
      (past.value d == e.form.value d) = true)
    (hinquiries : ∀ past, K past False → ∀ d, Scheduler.DependsOn e.form control d .validity →
      (past.value d == e.form.value d) = true) :
    e.form.Current control where
  checks := hrecorded.checks hchecks
  inquiries := by
    cases hany : (e.form.testsOf control Property.validTests).any Test.hasInquiry with
    | false => exact ⟨e.form, .refl _ _, inquiries_of_no_inquiry hevents hany⟩
    | true =>
        cases hp : e.form.property? control with
        | none => simp [Form.testsOf, hp] at hany
        | some p =>
            rw [Form.testsOf, hp, Option.map_some, Option.getD_some] at hany
            exact (hanswered p hp hany).inquiries hK (hevents.fit (fit_launched m data c)) hsettled
              hinquiries

/-- The record of a control is current in a settled session if the pipelines of the control ask for
every value of its dependencies. -/
theorem current_of_distinct_eq_false {ops : List Op} (hquiet : ∀ op ∈ ops, op.isQuiet = true)
    {s : Session} (hs : (launch m data c).run ops = s) (hsettled : s.isSettled = true)
    (hpolicy : (s.form.policy control).dependencyValid.distinct = false) :
    s.form.Current control := by
  obtain ⟨e, -, hform, hevents, hsettled⟩ := exists_engine_of_isSettled hquiet hs hsettled
  rw [← hform] at hpolicy ⊢
  have fit := fit_launched m data c
  have fit' := hevents.fit fit
  have htree := hevents.sameTree fit.sound
  have hpolicy := htree.policy control ▸ hpolicy
  have hdependencies : ∀ past, e.Covers control .validity past False →
      ∀ d, Scheduler.DependsOn e.form control d .validity →
        (past.value d == e.form.value d) = true := fun past hcovers d hdep =>
    Json.beq_of_eq (hcovers.of_isSettled fit' hsettled hdep)
  have hanswered : ∀ p, e.form.property? control = some p →
      p.validTests.any Test.hasInquiry = true → e.AsyncCovered control := by
    intro p hp hinquiry
    have hstart : (launched m data c).AsyncCovered control :=
      answered_launched ((htree.property? control).symm.trans hp) hinquiry
    exact hstart.events fit hpolicy hevents
  exact current_of_events hevents hsettled
    ((syncCovered_launched m data c control).events fit hpolicy hevents)
    (Engine.excusable_covers e control .validity) hanswered hdependencies hdependencies

end Session

end ReactiveForm
