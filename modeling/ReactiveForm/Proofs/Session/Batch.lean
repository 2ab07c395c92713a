import ReactiveForm.Proofs.Recompute.Deadlines
import ReactiveForm.Proofs.Session.Attachment
import ReactiveForm.Proofs.Session.Current
import ReactiveForm.Proofs.Session.Editability

/-!
# Edits in a batch

Edits that are made one after the other before any pipeline has run find pipelines that have not
yielded anything. Such a pipeline ignores nothing, with whatever settings: once it is behind, it is
going to yield. So a control either shows the verdicts of its tests on the present document, or one
of its pipelines promises to renew them (`Engine.KeepsUp`). An edit keeps this up if the tests of
the control read nothing but its own value and what they declare (`Form.DeclaresAll`), and so do the
steps of pipelines and the clock.

After a wait as long as the longest debounce no promise is left, and all controls are up to date
(`Session.upToDate_of_setAll`).
-/

namespace ReactiveForm

/-- The tests that a reaction runs. -/
def Property.testsFor (p : Property) : Reaction → List Test
  | .validity => p.validTests
  | .editability => p.editTests ++ p.viewTests

namespace Form

variable {f g : Form} {control other : ControlId} {reaction : Reaction} {s s' : ControlState}

/-! ## Verdicts that are shown -/

/-- The state shows the verdicts of the tests that a reaction runs. -/
def ShowsVerdicts (f : Form) (control : ControlId) (s : ControlState) : Reaction → Prop
  | .validity => s.syncErrors = (f.verdict control Property.validTests).errors?
  | .editability => f.Judges control s

theorem ShowsVerdicts.congr (h : f.ShowsVerdicts control s reaction)
    (hchecked : s'.checked = s.checked) : f.ShowsVerdicts control s' reaction := by
  have hsync : s'.syncErrors = s.syncErrors := by injection hchecked
  have henabled : s'.enabled = s.enabled := by injection hchecked
  have hvisible : s'.visible = s.visible := by injection hchecked
  cases reaction with
  | validity => exact hsync.trans h
  | editability => exact Judges.congr h henabled hvisible

/-- Verdicts are shown again where they are the same. -/
theorem ShowsVerdicts.carry (h : f.ShowsVerdicts control s reaction)
    (hverdict : ∀ tests : Property → List Test, (∀ p, tests p ⊆ p.testsFor reaction) →
      g.verdict control tests = f.verdict control tests) : g.ShowsVerdicts control s reaction := by
  cases reaction with
  | validity => exact h.trans (congrArg _ (hverdict _ fun _ => List.Subset.refl _).symm)
  | editability =>
      have hedit := hverdict Property.editTests fun _ => List.subset_append_left ..
      have hview := hverdict Property.viewTests fun _ => List.subset_append_right ..
      exact ⟨h.1.trans (congrArg _ hedit.symm), h.2.trans (congrArg _ hview.symm)⟩

theorem ShowsVerdicts.document (h : f.ShowsVerdicts control s reaction) (d : SameDocument g f) :
    g.ShowsVerdicts control s reaction := h.carry fun tests _ => d.verdict control tests

/-- A reaction shows the verdicts of the tests that it runs. -/
theorem showsVerdicts_judged (hp : f.property? control ≠ none) (s : ControlState) :
    f.ShowsVerdicts control (f.judged control reaction s) reaction := by
  cases reaction with
  | validity => exact syncErrors_validated fun hnone => absurd hnone hp
  | editability => exact judges_edited fun hnone => absurd hnone hp

/-- The other reaction leaves the verdicts. -/
theorem ShowsVerdicts.judged (h : f.ShowsVerdicts control s reaction) {reaction' : Reaction}
    (hne : reaction' ≠ reaction) (g : Form) (other : ControlId) :
    f.ShowsVerdicts control (g.judged other reaction' s) reaction := by
  cases reaction with
  | validity =>
      cases reaction' with
      | validity => exact absurd rfl hne
      | editability => exact syncErrors_edited.trans h
  | editability =>
      cases reaction' with
      | validity => exact Judges.validated h g other
      | editability => exact absurd rfl hne

/-- The control shows the verdicts of the tests that a reaction runs. -/
def Shown (f : Form) (control : ControlId) (reaction : Reaction) : Prop :=
  ∀ s, f.state? control = some s → f.ShowsVerdicts control s reaction

theorem upToDate_iff : f.UpToDate control ↔ ∀ reaction, f.Shown control reaction := by
  refine ⟨fun h reaction s hs => ?_, fun h s hs => ⟨h .validity s hs, h .editability s hs⟩⟩
  cases reaction with
  | validity => exact (h s hs).1
  | editability => exact (h s hs).2

/-! ## Tests that read what they declare -/

/-- The rules of the tests that a reaction runs look at the value of the control and, in the
document, at the places of the control and of the dependencies that are declared for the
reaction. -/
def DeclaresAll (f : Form) (control : ControlId) (reaction : Reaction) : Prop :=
  ∀ v root root', (∀ d, d = control ∨ Scheduler.DependsOn f control d reaction →
      ∀ place, f.place? d = some place → root.place place = root'.place place) →
    ∀ t ∈ f.testsOf control (·.testsFor reaction), ∀ r ∈ t.ruleList, r.Agrees v root v root'

theorem DeclaresAll.congr (h : f.DeclaresAll control reaction) (t : SameTree f g) :
    g.DeclaresAll control reaction := by
  intro v root root' hplaces test htest
  refine h v root root' (fun d hd place hplace => ?_) test (t.testsOf control _ ▸ htest)
  exact hplaces d (hd.imp_right (·.congr t)) place ((t.place? d).symm.trans hplace)

/-- Where the control and what it declares have the same values, the verdicts are the same. -/
theorem DeclaresAll.verdict_eq (h : f.DeclaresAll control reaction) (sound : f.SoundTree)
    (t : SameTree g f) (hvalue : ∀ d, d = control ∨ Scheduler.DependsOn f control d reaction →
      g.value d = f.value d) {tests : Property → List Test}
    (htests : ∀ p, tests p ⊆ p.testsFor reaction) :
    g.verdict control tests = f.verdict control tests := by
  have sound' := t.symm.soundTree sound
  have hsubset : f.testsOf control tests ⊆ f.testsOf control (·.testsFor reaction) := by
    rw [testsOf, testsOf]
    cases f.property? control with
    | none => exact List.Subset.refl _
    | some p => exact htests p
  rw [verdict, verdict, hvalue control (.inl rfl), t.testsOf]
  refine TestResults.results_runChecks_congr fun test htest => ?_
  refine h _ _ _ (fun d hd place hplace => ?_) test (hsubset htest)
  rw [sound'.rootValue_place ((t.place? d).trans hplace), sound.rootValue_place hplace,
    hvalue d hd]

/-! ## Several edits -/

/-- Give fields new values, one after the other. -/
def setAll (f : Form) (values : List (ControlId × Json)) : Except FormError Form :=
  values.foldlM (fun f v => f.setValue v.1 v.2) f

theorem setAll_cons_eq_ok {first : ControlId × Json} {values : List (ControlId × Json)}
    (hset : f.setAll (first :: values) = .ok g) :
    ∃ h, f.setValue first.1 first.2 = .ok h ∧ h.setAll values = .ok g := by
  rw [setAll, List.foldlM_cons] at hset
  cases hfirst : f.setValue first.1 first.2 with
  | error err =>
      rw [hfirst] at hset
      cases hset
  | ok h =>
      rw [hfirst] at hset
      exact ⟨h, rfl, hset⟩

theorem sameTree_setAll {values : List (ControlId × Json)} (hset : f.setAll values = .ok g) :
    SameTree g f := by
  induction values generalizing f with
  | nil =>
      cases hset
      exact .refl _
  | cons first values ih =>
      obtain ⟨h, hfirst, hrest⟩ := setAll_cons_eq_ok hset
      exact (ih hrest).trans (sameTree_setValue hfirst)

end Form

namespace Engine

variable {e e' : Engine} {control : ControlId} {reaction : Reaction} {r : PipelineRef} {race : Race}

/-- Several edits are events. -/
theorem events_setAll {values : List (ControlId × Json)} {f : Form}
    (hset : e.form.setAll values = .ok f) : Events e { e with form := f } := by
  induction values generalizing e with
  | nil =>
      cases hset
      exact .refl
  | cons first values ih =>
      obtain ⟨g, hfirst, hrest⟩ := Form.setAll_cons_eq_ok hset
      exact (Events.tail .refl (.set hfirst)).trans (ih hrest)

/-! ## Promises -/

/-- A pipeline that has not yielded anything so far is going to renew the verdicts. -/
def Promises (e : Engine) (control : ControlId) (reaction : Reaction) : Prop :=
  ∃ r q, e.scheduler.change? r = some q ∧ q.control = control ∧ q.reaction = reaction ∧
    q.watcher.last = none ∧ q.Behind e.form

/-- A control that is described by a property shows the verdicts on the present document, or there
is a promise that it will. -/
structure KeepsUp (e : Engine) (control : ControlId) (reaction : Reaction) : Prop where
  described : e.form.property? control ≠ none
  shown_or : e.form.Shown control reaction ∨ e.Promises control reaction

/-- Where nothing is left to do, the promises are kept. -/
theorem KeepsUp.of_isSettled (h : e.KeepsUp control reaction) (sound : e.Sound)
    (hsettled : e.isSettled = true) : e.form.Shown control reaction := by
  rcases h.shown_or with hshown | ⟨r, q, hq, -, -, -, hbehind⟩
  · exact hshown
  · exact absurd hbehind
      (not_behind_of_isSettled hsettled sound (Scheduler.watches_of_change? hq))

section Step

variable (hp : e.form.property? control ≠ none) (sound : e.Sound) (hstep : e.step? r race = some e')

include hp sound hstep

/-- A step writes verdicts on the present document, or none. -/
theorem shown_step (h : e.form.Shown control reaction) : e'.form.Shown control reaction := by
  have hdoc := sameDocument_step sound hstep
  intro s' hs'
  cases checkStep_of_step? sound hstep with
  | rests _ hchecked =>
      have hsame := hchecked control
      rw [hs'] at hsame
      obtain ⟨s, hs, heq⟩ := Option.map_eq_some_iff.1 hsame.symm
      exact ((h s hs).congr heq.symm).document hdoc
  | @moves moved p stream y w _ _ _ _ _ _ hstate =>
      rw [hstate] at hs'
      split at hs'
      · rename_i hyields
        obtain ⟨-, rfl⟩ := hyields
        obtain ⟨s, hs, rfl⟩ := Option.map_eq_some_iff.1 hs'
        by_cases heq : p.reaction = reaction
        · exact heq ▸ (Form.showsVerdicts_judged hp s).document hdoc
        · exact ((h s hs).judged heq _ _).document hdoc
      · exact (h s' hs').document hdoc

/-- A promise is kept by a step, or it stands. -/
theorem Promises.step (h : e.Promises control reaction) :
    e'.form.Shown control reaction ∨ e'.Promises control reaction := by
  have hdoc := sameDocument_step sound hstep
  obtain ⟨promiser, q, hq, rfl, rfl, hlast, hbehind⟩ := h
  cases checkStep_of_step? sound hstep with
  | rests hpipelines _ =>
      exact .inr ⟨promiser, q, (hpipelines promiser).trans hq, rfl, rfl, hlast,
        hbehind.congr (hdoc.changes _)⟩
  | @moves moved p stream y w hmoved hstream hs hopen hmove hpipelines hstate =>
      by_cases heq : promiser = moved
      · subst heq
        cases hmoved.symm.trans hq
        cases y with
        | some v =>
            -- the tests have just been run
            refine .inl fun s' hs' => ?_
            rw [hstate, if_pos ⟨rfl, rfl⟩] at hs'
            obtain ⟨s, -, rfl⟩ := Option.map_eq_some_iff.1 hs'
            exact (Form.showsVerdicts_judged hp s).document hdoc
        | none =>
            exact .inr ⟨promiser, _, (hpipelines promiser).trans (if_pos rfl), rfl, rfl,
              hmove.last_of_none.trans hlast, stream, (hdoc.changes _).trans hstream,
              hmove.behind_of_last hopen hlast⟩
      · exact .inr ⟨promiser, q, (hpipelines promiser).trans ((if_neg heq).trans hq), rfl, rfl,
          hlast, hbehind.congr (hdoc.changes _)⟩

end Step

theorem KeepsUp.step (h : e.KeepsUp control reaction) (sound : e.Sound)
    (hstep : e.step? r race = some e') : e'.KeepsUp control reaction where
  described := (sameDocument_step sound hstep).sameTree.property? control ▸ h.described
  shown_or := h.shown_or.elim (fun hshown => .inl (shown_step h.described sound hstep hshown))
    (Promises.step h.described sound hstep)

theorem KeepsUp.tick (h : e.KeepsUp control reaction) (now : Nat) :
    (e.tick now).KeepsUp control reaction where
  described := h.described
  shown_or := h.shown_or.imp_right fun ⟨r, q, hq, hrest⟩ =>
    ⟨r, q, (change?_tick e now r).trans hq, hrest⟩

/-- No pipeline that runs checks has yielded anything so far. -/
def Silent (e : Engine) : Prop := ∀ r q, e.scheduler.change? r = some q → q.watcher.last = none

/-! ## Edits -/

section Edit

variable {id : ControlId} {v : Json} {f : Form} (hset : e.form.setValue id v = .ok f)

include hset

/-- What was promised before an edit is promised still. -/
theorem Promises.set (h : e.Promises control reaction) (sound : e.Sound) :
    ({ e with form := f } : Engine).Promises control reaction := by
  obtain ⟨r, q, hq, hcontrol, hreaction, hlast, hbehind⟩ := h
  refine ⟨r, q, hq, hcontrol, hreaction, hlast, ?_⟩
  by_cases hmem : q.watched ∈ e.form.lineage id
  · exact (sound.watches (Scheduler.watches_of_change? hq)).behind_of_sendTimes
      (List.count_pos_iff.2 hmem) (Form.changes?_of_setValue hset q.watched)
  · exact hbehind.congr (Form.changes?_of_notMem_lineage hset hmem)

/-- A pipeline that watches what an edit changes promises new verdicts. -/
theorem Silent.promises_of_mem_lineage (h : e.Silent) (sound : e.Sound) {q : ChangePipeline}
    (hq : e.scheduler.Watches q) (hmem : q.watched ∈ e.form.lineage id) :
    ({ e with form := f } : Engine).Promises q.control q.reaction := by
  obtain ⟨r, hr⟩ := Scheduler.exists_change? hq
  exact ⟨r, q, hr, rfl, rfl, h r q hr, (sound.watches hq).behind_of_sendTimes
    (List.count_pos_iff.2 hmem) (Form.changes?_of_setValue hset q.watched)⟩

/-- An edit of the control or of something below it runs the validity tests at once. For the other
tests there is a pipeline that watches the control. -/
theorem Silent.shown_or_promises (h : e.Silent) (fit : e.Fit) {p : Property}
    (hp : e.form.property? control = some p) (hmem : control ∈ e.form.lineage id)
    (hshown : e.form.Shown control reaction) :
    f.Shown control reaction ∨ ({ e with form := f } : Engine).Promises control reaction := by
  have htree := Form.sameTree_setValue hset
  have hp' : f.property? control = some p := (htree.property? control).trans hp
  cases reaction with
  | validity =>
      refine .inl fun s' hs' => ?_
      rw [Form.state?_of_setValue hset, if_pos hmem] at hs'
      obtain ⟨s, -, rfl⟩ := Option.map_eq_some_iff.1 hs'
      exact @Form.showsVerdicts_judged f control .validity (by simp [hp']) s
  | editability =>
      by_cases htests : p.editTests = [] ∧ p.viewTests = []
      · -- without any tests the verdicts are always the same
        refine .inl fun s' hs' => ?_
        rw [Form.state?_of_setValue hset, if_pos hmem] at hs'
        obtain ⟨s, hs, rfl⟩ := Option.map_eq_some_iff.1 hs'
        have hjudged : e.form.ShowsVerdicts control (f.validated control s) .editability :=
          Form.Judges.validated (hshown s hs) f control
        refine hjudged.carry fun tests hsubset => ?_
        have hnone : e.form.testsOf control tests = [] := by
          have hnil : p.testsFor .editability = [] := by
            rw [Property.testsFor, htests.1, htests.2, List.append_nil]
          rw [Form.testsOf, hp, Option.map_some, Option.getD_some]
          exact List.subset_nil.1 (hnil ▸ hsubset p)
        rw [Form.verdict, Form.verdict, htree.testsOf, hnone]
        rfl
      · obtain ⟨q, hq⟩ := fit.own.exists_editability hp htests
        obtain ⟨rfl, hwatched, hreaction, -⟩ := fit.own.editability hq
        exact .inr (hreaction ▸ h.promises_of_mem_lineage hset fit.sound
          (.inr ⟨q.control, hq⟩) (hwatched.symm ▸ hmem))

/-- An edit elsewhere leaves the verdicts of a control that declares nothing there. -/
theorem shown_set_of_notMem (fit : e.Fit) (hdeclares : e.form.DeclaresAll control reaction)
    (hmem : control ∉ e.form.lineage id)
    (hdep : ∀ d, Scheduler.DependsOn e.form control d reaction → d ∉ e.form.lineage id)
    (hshown : e.form.Shown control reaction) : f.Shown control reaction := by
  intro s' hs'
  rw [Form.state?_of_setValue hset, if_neg hmem] at hs'
  refine (hshown s' hs').carry fun tests hsubset =>
    hdeclares.verdict_eq fit.tree (Form.sameTree_setValue hset) (fun d hd => ?_) hsubset
  refine Form.value_of_setValue hset fit.tree ?_
  rcases hd with rfl | hd
  · exact hmem
  · exact hdep d hd

/-- An edit touches a control by its value, by what it declares, or not at all. -/
theorem KeepsUp.set (h : e.KeepsUp control reaction) (fit : e.Fit) (hsilent : e.Silent)
    (hdeclares : e.form.DeclaresAll control reaction) :
    ({ e with form := f } : Engine).KeepsUp control reaction := by
  refine ⟨((Form.sameTree_setValue hset).property? control).symm ▸ h.described, ?_⟩
  rcases h.shown_or with hshown | hpromises
  · by_cases hdep : ∃ d, Scheduler.DependsOn e.form control d reaction ∧ d ∈ e.form.lineage id
    · obtain ⟨d, hdep, hmem⟩ := hdep
      obtain ⟨q, hq, rfl, rfl, rfl⟩ :=
        fit.dependencies.complete hdep (fit.contains_of_dependsOn hdep)
      exact .inr (hsilent.promises_of_mem_lineage hset fit.sound (.inl hq) hmem)
    · by_cases hmem : control ∈ e.form.lineage id
      · obtain ⟨p, hp⟩ := Option.ne_none_iff_exists'.1 h.described
        exact hsilent.shown_or_promises hset fit hp hmem hshown
      · exact .inl (shown_set_of_notMem hset fit hdeclares hmem
          (fun d hd hd' => hdep ⟨d, hd, hd'⟩) hshown)
  · exact .inr (hpromises.set hset fit.sound)

theorem Attached.set (h : e.Attached) : ({ e with form := f } : Engine).Attached where
  sound := h.sound.set hset
  subscribed := h.subscribed.congr (Form.sameTree_setValue hset).symm (.refl _)

end Edit

/-! ## Before the pipelines run -/

/-- The pipelines that run checks wait as long as the policies of their controls say. -/
theorem Fit.debounce_le (fit : e.Fit) {last : Nat}
    (hdebounce : ∀ control, (e.form.policy control).dependencyValid.debounce ≤ last ∧
      (e.form.policy control).dependencyEdit.debounce ≤ last ∧
      (e.form.policy control).selfEdit.debounce ≤ last)
    {q : ChangePipeline} (hq : e.scheduler.Watches q) : q.watcher.settings.debounce ≤ last := by
  obtain ⟨hvalid, hedit, hself⟩ := hdebounce q.control
  rcases hq with hq | ⟨id, hq⟩
  · rw [fit.dependencies.settings q hq]
    cases q.reaction with
    | validity => exact hvalid
    | editability => exact hedit
  · obtain ⟨hcontrol, -, -, hsettings⟩ := fit.own.editability hq
    rw [hsettings, ← hcontrol]
    exact hself

/-- A scheduler has been attached and its pipelines have not run. They are going to be through by a
moment, and the controls keep up with the document. -/
structure Poised (e : Engine) (last : Nat) : Prop where
  attached : e.Attached
  fit : e.Fit
  silent : e.Silent
  makesNone : e.MakesNone
  dueBy : e.DueBy last
  keepsUp : ∀ control reaction, e.form.property? control ≠ none → e.KeepsUp control reaction

namespace Poised

variable {last : Nat} {f : Form}

/-- Edits leave it so, if no debounce is longer than the moment is away. -/
theorem set (h : e.Poised last) {id : ControlId} {v : Json}
    (hset : e.form.setValue id v = .ok f)
    (hdeclares : ∀ control reaction, e.form.DeclaresAll control reaction)
    (hdebounce : ∀ q, e.scheduler.Watches q → e.clock + q.watcher.settings.debounce ≤ last) :
    ({ e with form := f } : Engine).Poised last where
  attached := h.attached.set hset
  fit := (Event.set hset).fit h.fit
  silent := h.silent
  makesNone := h.makesNone
  dueBy := h.dueBy.set h.attached.sound hset hdebounce
  keepsUp control reaction hp :=
    (h.keepsUp control reaction ((Form.sameTree_setValue hset).property? control ▸ hp)).set hset
      h.fit h.silent (hdeclares control reaction)

theorem setAll (h : e.Poised last) {values : List (ControlId × Json)}
    (hset : e.form.setAll values = .ok f)
    (hdeclares : ∀ control reaction, e.form.DeclaresAll control reaction)
    (hdebounce : ∀ q, e.scheduler.Watches q → e.clock + q.watcher.settings.debounce ≤ last) :
    ({ e with form := f } : Engine).Poised last := by
  induction values generalizing e with
  | nil =>
      cases hset
      exact h
  | cons first values ih =>
      obtain ⟨g, hfirst, hrest⟩ := Form.setAll_cons_eq_ok hset
      have htree := Form.sameTree_setValue hfirst
      exact @ih { e with form := g } (h.set hfirst hdeclares hdebounce) hrest
        (fun control reaction => (hdeclares control reaction).congr htree.symm) hdebounce

/-- When the moment has come there is nothing left to do, and the controls are up to date. -/
theorem advance (h : e.Poised last) {ms : Nat} (hlast : last ≤ e.clock + ms) :
    (e.advance ms).isSettled = true ∧ ∀ control, e.form.property? control ≠ none →
      (e.advance ms).form.UpToDate control := by
  obtain ⟨e', hattached, hkeeps, hsettled, hadvance⟩ := h.attached.advance_spec_of_dueBy
    (I := fun e' => ∀ control reaction, e.form.property? control ≠ none →
      e'.KeepsUp control reaction) h.makesNone h.dueBy hlast
    (fun hattached hkeeps hstep control reaction hp =>
      (hkeeps control reaction hp).step hattached.sound hstep)
    (fun now hkeeps control reaction hp => (hkeeps control reaction hp).tick now) h.keepsUp
  rw [hadvance]
  refine ⟨hattached.isSettled_tick hsettled _, fun control hp => Form.upToDate_iff.2 ?_⟩
  exact fun reaction => (hkeeps control reaction hp).of_isSettled hattached.sound hsettled

/-- Edits and a wait that is as long as any debounce leave nothing to do. The controls are up to
date, and they show of inquiries what they have shown before. -/
theorem advance_setAll {ms : Nat} (h : e.Poised (e.clock + ms)) {values : List (ControlId × Json)}
    (hset : e.form.setAll values = .ok f)
    (hdeclares : ∀ control reaction, e.form.DeclaresAll control reaction)
    (hdebounce : ∀ q, e.scheduler.Watches q → q.watcher.settings.debounce ≤ ms)
    {e' : Engine} (he' : ({ e with form := f } : Engine).advance ms = e') :
    e'.isSettled = true ∧ Form.SameDocument e'.form f ∧
      (∀ control, f.property? control ≠ none → e'.form.UpToDate control) ∧
        ∀ control, KeepsShowing e e' control := by
  subst he'
  have hpoised := h.setAll hset hdeclares fun q hq => Nat.add_le_add_left (hdebounce q hq) _
  obtain ⟨hsettled, hupToDate⟩ := hpoised.advance (Nat.le_refl _)
  exact ⟨hsettled, sameDocument_advance hpoised.attached.sound ms, hupToDate, fun control =>
    ((events_setAll hset).trans (events_advance _ ms)).keepsShowing h.attached.sound
      (h.makesNone control)⟩

end Poised

end Engine

namespace Session

variable {m : Model} {data : Json} {c : Config}

theorem engine?_advance {s : Session} {e : Engine} (he : s.engine? = some e) (ms : Nat) :
    (s.advance ms).engine? = some (e.advance ms) := engine?_apply_advance he ms

theorem poised_launched
    (hnone : ∀ control, ((Form.build m data c).testsOf control Property.validTests).any
      Test.hasInquiry = false) (last : Nat) : (launched m data c).Poised last where
  attached := ⟨(fit_launched m data c).sound, .attach _⟩
  fit := fit_launched m data c
  silent _ _ hq := last_of_watches_launched (Scheduler.watches_of_change? hq)
  makesNone control := inquiry?_launched (hnone control)
  dueBy := .attach _ _ _ last
  keepsUp control reaction hp := by
    obtain ⟨p, hp'⟩ := Option.ne_none_iff_exists'.1 hp
    exact ⟨hp, .inl (Form.upToDate_iff.1 (upToDate_launch hp') reaction)⟩

/-- Fields of a form that was just made get new values, and then nothing is done for at least as
long as the longest debounce. If the tests make no inquiries and read nothing but what they declare,
all pipelines are through by then. The values are those of the edits, every control that is
described by a property shows the verdicts on them, and no inquiry is pending. -/
theorem upToDate_of_setAll {values : List (ControlId × Json)} {f : Form} {ms : Nat}
    (hset : (Form.build m data c).setAll values = .ok f)
    (hnone : ∀ control, ((Form.build m data c).testsOf control Property.validTests).any
      Test.hasInquiry = false)
    (hdeclares : ∀ control reaction, (Form.build m data c).DeclaresAll control reaction)
    (hdebounce : ∀ control,
      ((Form.build m data c).policy control).dependencyValid.debounce ≤ ms ∧
        ((Form.build m data c).policy control).dependencyEdit.debounce ≤ ms ∧
        ((Form.build m data c).policy control).selfEdit.debounce ≤ ms)
    {s : Session} (hs : ((launch m data c).withForm f).advance ms = s) :
    s.isSettled = true ∧ Form.SameDocument s.form f ∧ ∀ control,
      f.property? control ≠ none → s.form.UpToDate control ∧ ∀ state,
        s.form.state? control = some state → state.pending = false ∧ state.asyncErrors = none := by
  have hlaunch : (launch m data c).engine? = some (launched m data c) := rfl
  have hform : (launched m data c).form = .build m data c := rfl
  rw [← hform] at hset hdeclares hdebounce
  obtain ⟨e, he⟩ : ∃ e, ({ launched m data c with form := f } : Engine).advance ms = e := ⟨_, rfl⟩
  obtain ⟨hsettled, hdoc, hupToDate, hshows⟩ := (poised_launched hnone _).advance_setAll hset
    hdeclares (fun _ hq => (fit_launched m data c).debounce_le hdebounce hq) he
  have hengine : s.engine? = some e := by
    rw [← hs, ← he]
    exact engine?_advance (engine?_withForm hlaunch f) ms
  rw [isSettled, hengine, ← form_of_engine? hengine]
  refine ⟨hsettled, hdoc, fun control hp => ⟨hupToDate control hp, fun state hstate => ?_⟩⟩
  obtain ⟨before, hbefore, hpending, herrors⟩ := hshows control state hstate
  obtain ⟨hpending₀, herrors₀⟩ := Form.inquired_build hbefore
  exact ⟨hpending.trans hpending₀, herrors.trans herrors₀⟩

end Session

end ReactiveForm
