import ReactiveForm.Proofs.Form.Properties
import ReactiveForm.Proofs.Recompute.Foresight
import ReactiveForm.Proofs.Session.Agreement
import ReactiveForm.Proofs.Session.ControlTree

/-!
# Sessions in unison

Two sessions are in unison if their forms look the same, up to what inquiries show, and their
pipelines are going to run checks at the same moments (`Session.Unison`). They may have received
different numbers of values up to now, and they may go on to do so. If no policy ignores repeated
values, every operation that does not break up the time keeps them in unison (`unison_apply`):

* what is edited in both of them is sent to the same pipelines, and they wait for the same time;
* pipelines that are made anew are not going to yield in either of them;
* while time passes the same reactions come about, since these are the ones that can be foreseen.
-/

namespace ReactiveForm

/-- What inquiries show is not looked at, and neither are the rules that were called. -/
def Sight.checks : Sight := ⟨false, false⟩

namespace Engine

variable {e e' : Engine} {g g' : Form}

/-- The forms look the same, and the pipelines are going to yield at the same moments. -/
structure Unison (e e' : Engine) : Prop where
  form : Form.Agrees .checks e.form e'.form
  clock : e.clock = e'.clock
  due : ∀ r, e.due? r = e'.due? r

/-- The pipelines are those of the form, fit its streams, and ask for every value. -/
structure Attentive (e : Engine) : Prop where
  serves : e.Serves
  subscribed : Scheduler.Subscribed e.form e.scheduler
  hearsAll : e.scheduler.HearsAll

namespace Unison

/-- States are written. -/
theorem document (h : Unison e e') (hform : Form.Agrees .checks g g')
    (d : Form.SameDocument g e.form) (d' : Form.SameDocument g' e'.form) :
    Unison { e with form := g } { e' with form := g' } := by
  refine ⟨hform, h.clock, fun r => ?_⟩
  have hleft : ({ e with form := g } : Engine).due? r = e.due? r := due?_congr rfl d.changes rfl
  have hright : ({ e' with form := g' } : Engine).due? r = e'.due? r :=
    due?_congr rfl d'.changes rfl
  rw [hleft, hright, h.due]

/-- Values are sent, to each stream as often in both forms. -/
theorem sendTimes (h : Unison e e') (hs : e.Sound) (hs' : e'.Sound)
    (houtline : ∀ r, (e.scheduler.change? r).map ChangePipeline.outline =
      (e'.scheduler.change? r).map ChangePipeline.outline)
    (hform : Form.Agrees .checks g g') {v v' : ControlId → Json} {n n' : ControlId → Nat}
    (hsent : ∀ id, g.changes? id = (e.form.changes? id).map fun s => s.sendTimes (v id) (n id))
    (hsent' : ∀ id, g'.changes? id =
      (e'.form.changes? id).map fun s => s.sendTimes (v' id) (n' id)) (hcount : n = n') :
    Unison { e with form := g } { e' with form := g' } := by
  subst hcount
  refine ⟨hform, h.clock, fun r => ?_⟩
  rw [due?_sendTimes hs hsent, due?_sendTimes hs' hsent', houtline, h.due, h.clock]

/-- Pipelines are made anew. -/
theorem rebuild (h : Unison e e') (hs : e.Sound) (hs' : e'.Sound)
    (hform : Form.Agrees .checks g g')
    (hkept : ∀ {id s}, g.contains id = true → e.form.changes? id = some s →
      g.changes? id = some s)
    (hkept' : ∀ {id s}, g'.contains id = true → e'.form.changes? id = some s →
      g'.changes? id = some s) :
    Unison { e with form := g, scheduler := e.scheduler.rebuild g }
      { e' with form := g', scheduler := e'.scheduler.rebuild g' } := by
  refine ⟨hform, h.clock, fun r => ?_⟩
  rw [due?_rebuild hs hkept, due?_rebuild hs' hkept']
  simp only [h.due, hform.sameTree.contains]

theorem force (h : Unison e e') (id : ControlId) : Unison (e.force id) (e'.force id) := by
  have hdue : ∀ (e : Engine) r, (e.force id).due? r = e.due? r := fun e r => by
    refine due?_congr ?_ (sameDocument_force e id).changes rfl
    cases r with
    | dependency i => rfl
    | editability other => exact Scheduler.editability?_request _ id other
    | inquiry other => rfl
  exact ⟨h.form.refreshValidity id, h.clock, fun r => by rw [hdue, hdue, h.due]⟩

/-- What can be foreseen is the same. -/
theorem foreseen (h : Unison e e') (ha : e.Attentive) (ha' : e'.Attentive) (target : Nat)
    (id : ControlId) : e.foreseen target id = e'.foreseen target id :=
  foreseen_congr (fun _ => owes_congr fun r =>
      owesBy_congr (ha.subscribed.change? ha'.subscribed h.form.sameTree r) (h.due r))
    (h.form.sameTree.judged h.form.value id)

/-- While time passes all that can be foreseen comes about. -/
theorem advance (h : Unison e e') (ha : e.Attentive) (ha' : e'.Attentive) (ms : Nat) :
    Unison (e.advance ms) (e'.advance ms) := by
  have hleft := arrived_advance ha.serves.sound ha.subscribed.nodup ha.hearsAll ms
  have hright := arrived_advance ha'.serves.sound ha'.subscribed.nodup ha'.hearsAll ms
  rw [← h.clock] at hright
  refine ⟨h.form.of_sameDocument hleft.document hright.document (fun id => ?_) rfl,
    hleft.clock.trans hright.clock.symm, fun r => by rw [hleft.due, hright.due, h.due]⟩
  have hchecks : Sight.checks.state = ControlState.checked := rfl
  have hstate := congrArg (Option.map (e.foreseen (e.clock + ms) id)) (h.form.state? id)
  rw [hchecks, Option.map_map, Option.map_map] at hstate
  rw [hchecks, hleft.state, hright.state, ← h.foreseen ha ha']
  exact hstate

end Unison

end Engine

/-! ## Policies that ask for every value -/

/-- Whether the policy lets no kind of checks ignore repeated values. -/
def ChangePolicy.hearsAll (p : ChangePolicy) : Bool :=
  !p.dependencyValid.distinct && !p.dependencyEdit.distinct && !p.selfEdit.distinct

/-- Whether all policies in a model are like this, where the configuration counts for properties
without one. -/
def Model.hearsAll (m : Model) (c : Config) : Bool :=
  m.nodes.all fun p => (p.policyOr (m.defaultPolicy.getD (.ofConfig c))).hearsAll

theorem ChangePolicy.distinct_eq_false {p : ChangePolicy} (h : p.hearsAll = true) :
    p.dependencyValid.distinct = false ∧ p.dependencyEdit.distinct = false ∧
      p.selfEdit.distinct = false := by
  simpa [hearsAll, and_assoc] using h

/-- The pipelines of a form of such a model ask for every value. -/
theorem Engine.attentive_of_madeFrom {e : Engine} {m : Model} {c : Config}
    (hm : m.hearsAll c = true) (hform : Form.MadeFrom m c e.form) (hserves : e.Serves)
    (hsubscribed : Scheduler.Subscribed e.form e.scheduler) : e.Attentive := by
  refine ⟨hserves, hsubscribed, fun q hq => ?_⟩
  have hpolicy : ∀ {id p}, e.form.property? id = some p → (e.form.policy id).hearsAll = true :=
    hform.policy (P := fun policy => policy.hearsAll = true) (List.all_eq_true.1 hm)
  rcases hq with hq | ⟨id, hq⟩
  · obtain ⟨p, -, hp, -⟩ := hserves.dependencies.dependsOn q hq
    obtain ⟨hvalid, hedit, -⟩ := ChangePolicy.distinct_eq_false (hpolicy hp)
    rw [hserves.dependencies.settings q hq, Scheduler.dependencySettings.eq_def]
    cases q.reaction with
    | validity => exact hvalid
    | editability => exact hedit
  · obtain ⟨-, -, -, hsettings⟩ := hsubscribed.eq_of_editability? hq
    cases hp : e.form.property? id with
    | none =>
        obtain ⟨o, ho, -⟩ := Option.bind_eq_some_iff.1 hq
        rw [hsubscribed.own?_eq_none hp] at ho
        cases ho
    | some p =>
        rw [hsettings]
        exact (ChangePolicy.distinct_eq_false (hpolicy hp)).2.2

namespace Session

variable {s t : Session} {e e' : Engine} {op : Op} {ops : List Op} {m : Model} {c c' : Config}

/-! ## Sessions -/

/-- The forms look the same, and if schedulers are attached their pipelines are going to yield at
the same moments. -/
structure Unison (s t : Session) : Prop where
  form : Form.Agrees .checks s.form t.form
  clock : s.clock = t.clock
  due : s.engine?.map Engine.due? = t.engine?.map Engine.due?

/-- The session is one on a form of the model. -/
structure OnModel (m : Model) (c : Config) (s : Session) : Prop where
  sound : s.Sound
  subscribed : s.Subscribed
  form : Form.MadeFrom m c s.form

theorem OnModel.apply (h : OnModel m c s) (op : Op) : OnModel m c (s.apply op) where
  sound := sound_apply h.sound op
  subscribed := subscribed_apply h.sound h.subscribed op
  form := lasting_apply (Form.lasting_madeFrom m c) h.sound h.form op

theorem OnModel.start (m : Model) (data : Json) (c : Config) :
    OnModel m c (.start (.build m data c)) where
  sound := sound_start m data c
  subscribed := .of_none rfl
  form := .build m data c

theorem OnModel.attentive (h : OnModel m c s) (hm : m.hearsAll c = true) (he : s.engine? = some e) :
    e.Attentive :=
  Engine.attentive_of_madeFrom hm (form_of_engine? he ▸ h.form) (h.sound.serves he)
    (h.subscribed e he)

namespace Unison

theorem of_none (hform : Form.Agrees .checks s.form t.form) (hclock : s.clock = t.clock)
    (hs : s.engine? = none) (ht : t.engine? = none) : Unison s t :=
  ⟨hform, hclock, by rw [hs, ht]⟩

theorem of_engines (he : s.engine? = some e) (he' : t.engine? = some e') (h : e.Unison e') :
    Unison s t where
  form := by
    rw [← form_of_engine? he, ← form_of_engine? he']
    exact h.form
  clock := by
    rw [← clock_of_engine? he, ← clock_of_engine? he']
    exact h.clock
  due := by
    rw [he, he']
    exact congrArg some (funext h.due)

/-- Both sessions have a scheduler or neither has one. -/
theorem cases_engine? (h : Unison s t) :
    (s.engine? = none ∧ t.engine? = none) ∨
      ∃ e e', s.engine? = some e ∧ t.engine? = some e' ∧ e.Unison e' := by
  have hdue := h.due
  cases he : s.engine? with
  | none =>
      rw [he] at hdue
      exact .inl ⟨rfl, Option.map_eq_none_iff.1 hdue.symm⟩
  | some e =>
      rw [he] at hdue
      obtain ⟨e', he', heq⟩ := Option.map_eq_some_iff.1 hdue.symm
      refine .inr ⟨e, e', rfl, he', ?_, ?_, fun r => congrFun heq.symm r⟩
      · rw [form_of_engine? he, form_of_engine? he']
        exact h.form
      · rw [clock_of_engine? he, clock_of_engine? he']
        exact h.clock

/-- Forms are put in the place of the former ones. -/
theorem withForm (h : Unison s t) {f g : Form} (hform : Form.Agrees .checks f g)
    (hengines : ∀ {e e'}, s.engine? = some e → t.engine? = some e' → e.Unison e' →
      Engine.Unison { e with form := f } { e' with form := g }) :
    Unison (s.withForm f) (t.withForm g) := by
  rcases h.cases_engine? with ⟨hs, ht⟩ | ⟨e, e', he, he', hunison⟩
  · have hnone : ∀ {s : Session} {f : Form}, s.engine? = none → (s.withForm f).engine? = none :=
      fun hs => Option.map_eq_none_iff.2 (Option.map_eq_none_iff.1 hs)
    exact .of_none hform h.clock (hnone hs) (hnone ht)
  · exact .of_engines (engine?_withForm he f) (engine?_withForm he' g) (hengines he he' hunison)

/-- States are written. -/
theorem document (h : Unison s t) {f g : Form} (hform : Form.Agrees .checks f g)
    (d : Form.SameDocument f s.form) (d' : Form.SameDocument g t.form) :
    Unison (s.withForm f) (t.withForm g) :=
  h.withForm hform fun he he' hunison => hunison.document hform
    (form_of_engine? he ▸ d) (form_of_engine? he' ▸ d')

/-- A structure edit that was prepared for both of them is carried out. -/
theorem perform (h : Unison s t) (hs : OnModel m c s) (ht : OnModel m c' t)
    {array : ControlId} {edit edit' : Form.Edit} (hedit : s.form.Prepared array edit)
    (hedit' : t.form.Prepared array edit') (hagrees : edit.Agrees .checks edit') :
    Unison (s.perform edit) (t.perform edit') := by
  rcases h.cases_engine? with ⟨hnone, hnone'⟩ | ⟨e, e', he, he', hunison⟩
  · have hperform : ∀ {s : Session} {edit : Form.Edit}, s.engine? = none →
        (s.perform edit).engine? = none := fun {s edit} hnone => by
      have hscheduler : s.scheduler = none := Option.map_eq_none_iff.1 hnone
      simp [engine?, Session.perform, restructure, notify, Session.withForm, hscheduler]
    exact .of_none (agrees_perform hagrees) h.clock (hperform hnone) (hperform hnone')
  · rw [← form_of_engine? he] at hedit
    rw [← form_of_engine? he'] at hedit'
    have hserves := hs.sound.serves he
    have hserves' := ht.sound.serves he'
    have hrebuilt := hunison.rebuild hserves.sound hserves'.sound hagrees.form
      hedit.reshapes.changes? hedit'.reshapes.changes?
    have houtline := ((hs.subscribed e he).rebuild hedit.keepsProperties).change?
      ((ht.subscribed e' he').rebuild hedit'.keepsProperties) hagrees.form.sameTree
    refine .of_engines (engine?_perform he edit) (engine?_perform he' edit') ?_
    refine hrebuilt.sendTimes (hserves.rebuild hedit.reshapes).sound
      (hserves'.rebuild hedit'.reshapes).sound houtline (agrees_perform (s := s) (t := t) hagrees)
      (Form.changes?_edit_publish edit) (Form.changes?_edit_publish edit') (funext fun id => ?_)
    -- the values go to the controls of one lineage, which are there in both forms or in none
    refine congrArg (List.count id) ?_
    rw [hagrees.lineage]
    exact List.filter_congr fun id _ => hagrees.form.sameTree.contains id

theorem setValue (h : Unison s t) (hs : OnModel m c s) (ht : OnModel m c' t) {id : ControlId}
    {value : Json} {f g : Form} (hf : s.form.setValue id value = .ok f)
    (hg : t.form.setValue id value = .ok g) (hform : Form.Agrees .checks f g) :
    Unison (s.withForm f) (t.withForm g) := by
  refine h.withForm hform fun {e e'} he he' hunison => ?_
  rw [← form_of_engine? he] at hf
  rw [← form_of_engine? he'] at hg
  refine hunison.sendTimes (hs.sound.serves he).sound (ht.sound.serves he').sound
    ((hs.subscribed e he).change? (ht.subscribed e' he') hunison.form.sameTree) hform
    (Form.changes?_of_setValue hf) (Form.changes?_of_setValue hg) ?_
  rw [hunison.form.sameTree.lineage id]

/-! ## Operations -/

/-- The forms look the same, so a value can be set in both of them or in none. -/
theorem apply_setValue (h : Unison s t) (hs : OnModel m c s) (ht : OnModel m c' t)
    (id : ControlId) (value : Json) :
    Unison (s.apply (.setValue id value)) (t.apply (.setValue id value)) := by
  have hset := h.form.setValue id value
  simp only [Session.apply_setValue, setValue_eq]
  cases hf : s.form.setValue id value with
  | error err =>
      rw [hf] at hset
      generalize t.form.setValue id value = b at hset
      cases hset
      exact h
  | ok f =>
      cases hg : t.form.setValue id value with
      | error err =>
          rw [hf, hg] at hset
          cases hset
      | ok g =>
          rw [hf, hg] at hset
          cases hset with
          | ok hform => exact h.setValue hs ht hf hg hform

theorem apply_of_editsStructure (h : Unison s t) (hs : OnModel m c s) (ht : OnModel m c' t)
    (hedits : op.editsStructure = true) : Unison (s.apply op) (t.apply op) := by
  rcases edits_of_agrees h.form hedits with
    ⟨heq, heq'⟩ | ⟨array, edit, edit', hedit, hedit', hagrees, heq, heq'⟩
  · rw [heq, heq']
    exact h
  · rw [heq, heq']
    exact h.perform hs ht hedit hedit' hagrees

/-- The state of a control is written in a way that the checks do not notice. -/
theorem modifyState (h : Unison s t) (id : ControlId) {change : ControlState → ControlState}
    (hchange : Sight.checks.Admits change) :
    Unison (s.withForm (s.form.modifyState id change))
      (t.withForm (t.form.modifyState id change)) :=
  h.document (h.form.modifyState id hchange) (Form.sameDocument_modifyState s.form id change)
    (Form.sameDocument_modifyState t.form id change)

theorem apply_setExternal (h : Unison s t) (id : ControlId) (key message : String) :
    Unison (s.apply (.setExternal id key message)) (t.apply (.setExternal id key message)) := by
  simp only [Session.apply_setExternal, setExternal_eq, Form.setExternal,
    h.form.sameTree.contains id]
  split
  · exact h.modifyState id (Sight.admits_of_commutes fun _ => rfl)
  · exact h

theorem apply_clearExternal (h : Unison s t) (id : ControlId) (key : String) :
    Unison (s.apply (.clearExternal id key)) (t.apply (.clearExternal id key)) := by
  have hstate := h.form.state? id
  simp only [Session.apply_clearExternal, clearExternal_eq, Form.clearExternal]
  cases hs : s.form.state? id with
  | none =>
      rw [hs] at hstate
      rw [Option.map_eq_none_iff.1 hstate.symm]
      exact h
  | some st =>
      rw [hs] at hstate
      obtain ⟨st', ht, -⟩ := Option.map_eq_some_iff.1 hstate.symm
      rw [ht]
      have hcleared : Sight.checks.Admits (·.clearExternal key) :=
        Sight.admits_of_commutes fun _ => rfl
      exact h.modifyState id hcleared

theorem force (h : Unison s t) (id : ControlId) : Unison (s.force id) (t.force id) := by
  rw [Session.force, Session.force]
  rcases h.cases_engine? with ⟨hnone, hnone'⟩ | ⟨e, e', he, he', hunison⟩
  · rw [hnone, hnone']
    exact h
  · rw [he, he']
    exact .of_engines (engine?_withEngine s _) (engine?_withEngine t _) (hunison.force id)

theorem rebuild (h : Unison s t) (hs : s.Sound) (ht : t.Sound) : Unison s.rebuild t.rebuild := by
  rcases h.cases_engine? with ⟨hnone, hnone'⟩ | ⟨e, e', he, he', hunison⟩
  · have hrebuild : ∀ {s : Session}, s.engine? = none → s.rebuild.engine? = none := fun hnone =>
      engine?_of_scheduler_none (by simp [Session.rebuild, Option.map_eq_none_iff.1 hnone])
    exact .of_none h.form h.clock (hrebuild hnone) (hrebuild hnone')
  · exact .of_engines (engine?_rebuild he) (engine?_rebuild he')
      (hunison.rebuild (hs.serves he).sound (ht.serves he').sound hunison.form
        (fun _ hs => hs) fun _ hs => hs)

theorem attach (h : Unison s t) : Unison s.attach t.attach := by
  have he : s.attach.engine? = some ⟨s.form, .attach s.form, s.clock, s.asked⟩ := rfl
  have he' : t.attach.engine? = some ⟨t.form, .attach t.form, t.clock, t.asked⟩ := rfl
  exact .of_engines he he' ⟨h.form, h.clock, fun r => by
    rw [Engine.due?_attach, Engine.due?_attach]⟩

/-- In the time that passes the pipelines of both make the same passes. -/
theorem advance (h : Unison s t) (hs : OnModel m c s) (ht : OnModel m c' t)
    (hm : m.hearsAll c = true) (hm' : m.hearsAll c' = true) (ms : Nat) :
    Unison (s.apply (.advance ms)) (t.apply (.advance ms)) := by
  rcases h.cases_engine? with ⟨hnone, hnone'⟩ | ⟨e, e', he, he', hunison⟩
  · refine .of_none ?_ ?_ (engine?_apply_of_none hnone rfl) (engine?_apply_of_none hnone' rfl)
    · rw [form_apply_of_drives hnone rfl, form_apply_of_drives hnone' rfl]
      exact h.form
    · simp only [apply, Session.advance, hnone, hnone', h.clock]
  · exact .of_engines (engine?_apply_advance he ms) (engine?_apply_advance he' ms)
      (hunison.advance (hs.attentive hm he) (ht.attentive hm' he') ms)

end Unison

/-- Whether an operation lets the pipelines do all that they can in the time that passes. -/
def Op.isWhole : Op → Bool
  | .turn _ _ | .wait _ => false
  | _ => true

/-- An operation that does not break up the time keeps sessions in unison. -/
theorem unison_apply (h : Unison s t) (hs : OnModel m c s) (ht : OnModel m c' t)
    (hm : m.hearsAll c = true) (hm' : m.hearsAll c' = true) (hwhole : op.isWhole = true)
    (hop : op.Respects .checks) : Unison (s.apply op) (t.apply op) := by
  cases op with
  | setValue id value => exact h.apply_setValue hs ht id value
  | insert | push | remove => exact h.apply_of_editsStructure hs ht rfl
  | setExternal id key message => exact h.apply_setExternal id key message
  | clearExternal id key => exact h.apply_clearExternal id key
  | writeState id change => exact h.modifyState id (hop id change rfl)
  | revalidate id =>
      exact h.document (h.form.refreshValidity id) (Form.sameDocument_refreshValidity s.form id)
        (Form.sameDocument_refreshValidity t.form id)
  | reassess id =>
      exact h.document (h.form.refreshEditability id)
        (Form.sameDocument_refreshEditability s.form id)
        (Form.sameDocument_refreshEditability t.form id)
  | force id => exact h.force id
  | observe => exact ⟨h.form, h.clock, h.due⟩
  | unobserve number => exact ⟨h.form, h.clock, h.due⟩
  | rebuild => exact h.rebuild hs.sound ht.sound
  | attach => exact h.attach
  | detach => exact .of_none h.form h.clock rfl rfl
  | advance ms => exact h.advance hs ht hm hm' ms
  | turn r race => cases hwhole
  | wait ms => cases hwhole

/-- A run that does not break up the time keeps sessions in unison. -/
theorem unison_run (h : Unison s t) (hs : OnModel m c s) (ht : OnModel m c' t)
    (hm : m.hearsAll c = true) (hm' : m.hearsAll c' = true)
    (hwhole : ∀ op ∈ ops, op.isWhole = true) (hops : ∀ op ∈ ops, op.Respects .checks) :
    Unison (s.run ops) (t.run ops) := by
  induction ops generalizing s t with
  | nil => exact h
  | cons op ops ih =>
      refine ih ?_ (hs.apply op) (ht.apply op)
        (fun op hop => hwhole op (List.mem_cons_of_mem _ hop))
        fun op hop => hops op (List.mem_cons_of_mem _ hop)
      exact unison_apply h hs ht hm hm' (hwhole op List.mem_cons_self) (hops op List.mem_cons_self)

end Session

end ReactiveForm
