import ReactiveForm.Proofs.Recompute.Tally
import ReactiveForm.Proofs.Session.Edits
import ReactiveForm.Proofs.Session.Resubscription

/-!
# Each edit triggers its dependents once for each path

In a settled session no pipeline has anything before it. An edit then sends one value to the edited
control and one to each of its ancestors, whether it gives a field a new value or makes the
pipelines for dependencies anew on the way (`Edited.exists_tallies`). A pipeline without a debounce
and without distinct values turns this value into one pass of its control. There is a pipeline for
each path that leads from the control into the lineage, so a control makes just as many passes until
the session is settled again (`passes_of_edit`): no trigger is missed, and no pass triggers another
one.
-/

namespace ReactiveForm.Session

variable {s s' : Session} {e : Engine} {op : Op} {ops : List Op} {control x : Nat}
  {reaction : Reaction} {n : Nat}

/-! ## What an edit leaves to do -/

/-- The pipelines of a control that run a reaction react at once and to every value. -/
structure Immediate (f : Form) (control : Nat) (reaction : Reaction) : Prop where
  dependency : Scheduler.dependencySettings f control reaction = .immediate
  own : reaction = .editability → (f.policy control).selfEdit = .immediate

/-- How many pipelines run a reaction of a control when controls of a lineage change. -/
def triggerCount (f : Form) (control : Nat) (reaction : Reaction) (ids : List ControlId) : Nat :=
  (Scheduler.pathsInto f control reaction ids).length +
    if reaction = .editability ∧ control ∈ ids ∧ Scheduler.showsTests f control = true then 1 else 0

/-- One value that was sent to each control of a lineage is one pass for each of these pipelines. -/
private theorem tallies_of_sent (hserves : e.Serves) (hs : Scheduler.Subscribed e.form e.scheduler)
    (himmediate : Immediate e.form control reaction)
    (hnot : ∀ q, e.scheduler.Watches q → q.control = control → ¬ q.Behind e.form)
    {f : Form} {v : ControlId → Json} {ids : List ControlId} (hids : ids.Nodup)
    (hlive : ∀ id ∈ ids, e.form.contains id = true)
    (hsent : ∀ id, f.changes? id =
      (e.form.changes? id).map fun s => s.sendTimes (v id) (ids.count id)) :
    { e with form := f }.Tallies control reaction
      (e.passes control reaction + triggerCount e.form control reaction ids) := by
  have h : { e with form := f }.Tallies control reaction _ :=
    Engine.Tallies.of_sent hserves.sound ?_ (fun hq => (hs.eq_of_editability? hq).1) hnot hids hsent
  · rwa [hs.countP_dependencies hlive, hs.countP_editability] at h
  · rintro q (hq | ⟨id, hq⟩) rfl rfl
    · rw [hserves.dependencies.settings q hq]
      exact himmediate.dependency
    · obtain ⟨hcontrol, -, hreaction, hsettings⟩ := hs.eq_of_editability? hq
      rw [hsettings, ← hcontrol]
      exact himmediate.own hreaction

/-- A rebuild in a settled session leaves no pipeline behind. -/
private theorem not_behind_of_rebuild (hserves : e.Serves) (hsettled : e.isSettled = true)
    {g : Form} (hkept : ∀ {id s}, g.contains id = true → e.form.changes? id = some s →
      g.changes? id = some s)
    {q : ChangePipeline} (hq : (e.scheduler.rebuild g).Watches q) : ¬ q.Behind g := by
  rcases hq with hq | ⟨id, hq⟩
  · exact Scheduler.not_behind_of_mem_rebuild hq
  · obtain ⟨o, ho, hedit⟩ := Option.bind_eq_some_iff.1 hq
    rcases Scheduler.own?_rebuild_cases ho with ⟨hold, hid⟩ | hnew
    · -- the pipeline has stayed, and so has its stream
      have hold : e.scheduler.editability? id = some q :=
        Option.bind_eq_some_iff.2 ⟨o, hold, hedit⟩
      obtain ⟨hwatched, stream, hs, -⟩ := hserves.sound.editability hold
      intro hbehind
      refine Engine.not_behind_of_isSettled hsettled hserves.sound (.inr ⟨_, hold⟩) ?_
      refine hbehind.congr (hs.trans (hkept ?_ hs).symm)
      rw [hwatched]
      exact hid
    · obtain ⟨p, -, rfl⟩ := Option.map_eq_some_iff.1 hnew
      obtain ⟨-, hwatch⟩ := Option.ite_none_left_eq_some.1 hedit
      exact Scheduler.not_behind_of_watch? hwatch

private theorem triggerCount_congr {f g : Form} (t : Form.SameTree f g) (control : Nat)
    (reaction : Reaction) (ids : List ControlId) :
    triggerCount f control reaction ids = triggerCount g control reaction ids := by
  have hpaths : Scheduler.pathsInto f control reaction ids =
      Scheduler.pathsInto g control reaction ids := by
    simp only [Scheduler.pathsInto, t.property?, t.resolve, t.anchor]
  have hshows : Scheduler.showsTests f control = Scheduler.showsTests g control := by
    rw [Scheduler.showsTests, Scheduler.showsTests, t.property?]
  rw [triggerCount, triggerCount, hpaths, hshows]

theorem Immediate.congr {f g : Form} (h : Immediate f control reaction)
    (hpolicy : g.policy control = f.policy control) : Immediate g control reaction where
  dependency := by
    have hsettings := h.dependency
    unfold Scheduler.dependencySettings at hsettings ⊢
    rwa [hpolicy]
  own hreaction := hpolicy ▸ h.own hreaction

/-- An edit of a settled session leaves one pass to do for each pipeline of the control that watches
the edited control or one of its ancestors. -/
theorem Edited.exists_tallies (hedited : s.Edited x s') (h : s.Sound) (hs : s.Subscribed)
    (hf : s.form.ParentsBefore) (he : s.engine? = some e) (hsettled : e.isSettled = true)
    (hbefore : s.form.contains control = true) (hafter : s'.form.contains control = true)
    (himmediate : Immediate s.form control reaction) :
    ∃ e', s'.engine? = some e' ∧ e'.Tallies control reaction
      (e.passes control reaction +
        triggerCount s'.form control reaction (s'.form.lineage x)) := by
  have hserves := h.serves he
  cases hedited with
  | @set v f hset =>
      refine ⟨_, engine?_withForm he f, ?_⟩
      have htree := Form.sameTree_setValue hset
      rw [show (s.withForm f).form = f from rfl, htree.lineage, triggerCount_congr htree]
      rw [← form_of_engine? he] at himmediate hset hf ⊢
      exact tallies_of_sent hserves (hs e he) himmediate
        (fun q hq _ => Engine.not_behind_of_isSettled hsettled hserves.sound hq)
        (Form.nodup_lineage hf x) (fun _ => Form.contains_of_mem_lineage)
        (Form.changes?_of_setValue hset)
  | @perform edit hedit =>
      refine ⟨_, engine?_perform he edit, ?_⟩
      have htree := Form.sameTree_edit_publish edit
      have hform : (s.perform edit).form = edit.publish := rfl
      rw [hform, htree.contains] at hafter
      rw [hform, htree.lineage, triggerCount_congr htree]
      have hpolicy : edit.form.policy control = s.form.policy control := by
        rw [Form.policy, Form.policy, hedit.keepsProperties.defaults,
          hedit.keepsProperties.property? control hbefore hafter]
      have hnodup := Form.nodup_lineage (hedit.parentsBefore hf) x
      have hpasses := Scheduler.entry_rebuild e.scheduler hafter
      have himmediate := himmediate.congr hpolicy
      have hlive : ∀ id ∈ edit.form.lineage x, edit.form.contains id = true :=
        fun _ => Form.contains_of_mem_lineage
      have hsent := Form.changes?_edit_publish edit
      rw [hedit.lineage_eq, List.filter_eq_self.2 hlive] at hsent
      rw [← form_of_engine? he] at hedit
      have htallies := tallies_of_sent (hserves.rebuild hedit.reshapes)
        ((hs e he).rebuild hedit.keepsProperties) himmediate
        (fun q hq _ => not_behind_of_rebuild hserves hsettled hedit.reshapes.changes? hq) hnodup
        hlive hsent
      unfold Engine.passes at htallies ⊢
      rwa [hpasses] at htallies

/-! ## Settling -/

/-- Whether an operation only lets time pass. -/
def Op.waits : Op → Bool
  | .advance _ | .turn _ _ | .wait _ => true
  | _ => false

theorem exists_tallies_of_waits (hwaits : op.waits = true) (he : s.engine? = some e)
    (h : e.Tallies control reaction n) :
    ∃ e', (s.apply op).engine? = some e' ∧ e'.Tallies control reaction n := by
  cases op with
  | advance ms => exact ⟨e.advance ms, engine?_apply_advance he ms, h.advance ms⟩
  | turn r race =>
      cases hstep : e.step? r race with
      | none =>
          refine ⟨e, ?_, h⟩
          simp [apply, he, hstep]
      | some e' =>
          refine ⟨e', ?_, h.step hstep⟩
          simp only [apply, he, Option.bind_some, hstep, Option.map_some, Option.getD_some]
          rfl
  | wait ms =>
      refine ⟨e.tick (e.clock + ms), ?_, h.tick _⟩
      simp only [apply, he]
      rfl
  | _ => cases hwaits

theorem exists_tallies_of_run (hwaits : ∀ o ∈ ops, o.waits = true) (he : s.engine? = some e)
    (h : e.Tallies control reaction n) :
    ∃ e', (s.run ops).engine? = some e' ∧ e'.Tallies control reaction n := by
  induction ops generalizing s e with
  | nil => exact ⟨e, he, h⟩
  | cons op ops ih =>
      obtain ⟨e', he', h'⟩ := exists_tallies_of_waits (hwaits op List.mem_cons_self) he h
      exact ih (fun o ho => hwaits o (List.mem_cons_of_mem _ ho)) he' h'

/-- After an edit and settling a control has made one more pass for each of these pipelines. -/
theorem passes_run_of_edited {after : List Op} (hedited : s.Edited x s') (h : s.Sound)
    (hs : s.Subscribed) (hf : s.form.ParentsBefore) (hsettled : s.isSettled = true)
    (hwaits : ∀ o ∈ after, o.waits = true) (hsettled' : (s'.run after).isSettled = true)
    (hbefore : s.form.contains control = true) (hafter : s'.form.contains control = true)
    (himmediate : Immediate s.form control reaction) :
    (s'.run after).passes control reaction = s.passes control reaction +
      triggerCount s'.form control reaction (s'.form.lineage x) := by
  obtain ⟨e, he, hquiet⟩ := (Option.any_eq_true _ _).1 hsettled
  obtain ⟨e', he', htallies⟩ :=
    hedited.exists_tallies h hs hf he hquiet hbefore hafter himmediate
  obtain ⟨t, ht, htallies⟩ := exists_tallies_of_run hwaits he' htallies
  obtain ⟨t', ht', hquiet'⟩ := (Option.any_eq_true _ _).1 hsettled'
  rw [ht] at ht'
  cases ht'
  rw [passes_of_engine? ht, passes_of_engine? he]
  exact htallies.passes_of_isSettled hquiet'

/-- Dependency triggers are exact. When one edit of a settled session has settled, a control that is
still there has run its validity tests once for each path that they declare and that leads, in the
edited structure, to the edited control or to one of its ancestors. It has run its tests of
editability and visibility once for each such path of theirs, and once more if it is itself among
these controls and has such tests. -/
theorem passes_of_edit {m : Model} {data : Json} {c : Config} {before after : List Op}
    (hs : (start (.build m data c)).run before = s) (hsettled : s.isSettled = true)
    (htarget : op.target? = some x) (hsucceeds : op.succeeds s = true)
    (hwaits : ∀ o ∈ after, o.waits = true) (hsettled' : ((s.apply op).run after).isSettled = true)
    (hbefore : s.form.contains control = true)
    (hafter : (s.apply op).form.contains control = true)
    (hvalid : (s.form.policy control).dependencyValid = .immediate)
    (hedit : (s.form.policy control).dependencyEdit = .immediate)
    (hself : (s.form.policy control).selfEdit = .immediate) :
    let g := (s.apply op).form
    let t := (s.apply op).run after
    ∃ valid edit : List String,
      (valid.Nodup ∧ ∀ path,
        path ∈ valid ↔ Scheduler.LeadsInto g control .validity (g.lineage x) path) ∧
      (edit.Nodup ∧ ∀ path,
        path ∈ edit ↔ Scheduler.LeadsInto g control .editability (g.lineage x) path) ∧
      t.passes control .validity = s.passes control .validity + valid.length ∧
      t.passes control .editability = s.passes control .editability + (edit.length +
        if control ∈ g.lineage x ∧ Scheduler.showsTests g control = true then 1 else 0) := by
  subst hs
  have hstart := sound_start m data c
  have hsound := sound_run hstart before
  have hsubscribed := subscribed_run hstart (.of_none rfl) before
  have htree := parentsBefore_run hstart (Form.parentsBefore_build m data c) before
  obtain ⟨hfails, -⟩ | ⟨-, hedited⟩ := edited_of_target? (s := (start (.build m data c)).run before)
    htarget
  · simp [hfails] at hsucceeds
  · have hpasses : ∀ {reaction}, Immediate _ control reaction → _ := fun himmediate =>
      passes_run_of_edited hedited hsound hsubscribed htree hsettled hwaits hsettled' hbefore hafter
        himmediate
    refine ⟨_, _, Scheduler.pathsInto_spec _ control .validity _,
      Scheduler.pathsInto_spec _ control .editability _, ?_, ?_⟩
    · simpa [triggerCount] using @hpasses .validity ⟨hvalid, by simp⟩
    · simpa only [triggerCount, true_and] using
        @hpasses .editability ⟨hedit, fun _ => hself⟩

/-- A settled session with a field whose tests depend on the other field and run at once. -/
def triggeredPair : Session :=
  let model := pairModel { Property.template with
    validTests := [pairTest (some otherIsOne) none]
    editTests := [pairTest (some otherIsOne) none]
    policy := some .immediate }
  (start (.build model pairData .standard)).run [.attach, .advance 0]

/-- The other field becomes two. One path leads to it, so each kind of tests is run once. -/
theorem passes_triggeredPair :
    let t := (triggeredPair.apply otherBecomesTwo).run [.advance 0]
    ∃ valid edit : List String, valid.length = 1 ∧ edit.length = 1 ∧
      t.passes 1 .validity = triggeredPair.passes 1 .validity + valid.length ∧
      t.passes 1 .editability = triggeredPair.passes 1 .editability + edit.length := by
  obtain ⟨valid, edit, -, -, hvalid, hedit⟩ :=
    @passes_of_edit triggeredPair otherBecomesTwo 1 2 _ _ _ _ [.advance 0] rfl (by decide +kernel)
      rfl (by decide +kernel) (by decide) (by decide +kernel) (by decide +kernel)
      (by decide +kernel) (by decide +kernel) (by decide +kernel) (by decide +kernel)
  have hapart : ¬ (1 ∈ (triggeredPair.apply otherBecomesTwo).form.lineage 2 ∧
      Scheduler.showsTests (triggeredPair.apply otherBecomesTwo).form 1 = true) := by decide +kernel
  rw [if_neg hapart, Nat.add_zero] at hedit
  have honce : ((triggeredPair.apply otherBecomesTwo).run [.advance 0]).passes 1 .validity =
      triggeredPair.passes 1 .validity + 1 := by decide +kernel
  have honce' : ((triggeredPair.apply otherBecomesTwo).run [.advance 0]).passes 1 .editability =
      triggeredPair.passes 1 .editability + 1 := by decide +kernel
  exact ⟨valid, edit, by omega, by omega, hvalid, hedit⟩

end ReactiveForm.Session
