import ReactiveForm.Proofs.Recompute.Coverage
import ReactiveForm.Proofs.Recompute.Passes
import ReactiveForm.Proofs.Session.Structure

/-!
# What becomes of a change

A value that is sent to the stream of a control leaves the pipelines of all its dependents behind.
Until new pipelines are made a dependent is accounted for (`Accounted`): it has made a pass since,
or its pipelines for that dependency are still behind. Where nothing is left to do no pipeline is
behind, so it has made a pass.

New pipelines have nothing before them. A resubscription that sends no value of the dependency
itself takes away what its dependents still had to react to (`not_behind_of_drops`). This is the
only way in which a change can get lost.
-/

namespace ReactiveForm

/-- A control depends on another one that is there, and reacts to each of its values. -/
structure Form.Linked (f : Form) (control watched : ControlId) (reaction : Reaction) : Prop where
  dependsOn : Scheduler.DependsOn f control watched reaction
  contains : f.contains watched = true
  asksForAll : (Scheduler.dependencySettings f control reaction).distinct = false

namespace Form.Linked

variable {f g : Form} {control watched : ControlId} {reaction : Reaction}

theorem congr (h : f.Linked control watched reaction) (t : SameTree f g) :
    g.Linked control watched reaction where
  dependsOn := h.dependsOn.congr t
  contains := (t.contains watched).symm.trans h.contains
  asksForAll := by
    have hasks := h.asksForAll
    unfold Scheduler.dependencySettings at hasks ⊢
    rwa [t.policy] at hasks

theorem contains_control (h : f.Linked control watched reaction) : f.contains control = true := by
  obtain ⟨p, -, hp, -⟩ := h.dependsOn
  exact Scheduler.contains_of_property? hp

end Form.Linked

namespace Engine

variable {e e' : Engine} {control watched : ControlId} {reaction : Reaction} {n : Nat} {race : Race}

/-! ## Changes are accounted for -/

/-- A change of a dependency is accounted for: since the control had made `n` passes it has made
another one, or its pipelines for the dependency are behind. -/
structure Accounted (e : Engine) (control watched : ControlId) (reaction : Reaction) (n : Nat) :
    Prop where
  le : n ≤ e.passes control reaction
  owed : n < e.passes control reaction ∨ ∀ q ∈ e.scheduler.dependencies,
    q.control = control → q.watched = watched → q.reaction = reaction → q.Behind e.form

namespace Accounted

theorem mono (h : e.Accounted control watched reaction n) {k : Nat} (hle : k ≤ n) :
    e.Accounted control watched reaction k where
  le := Nat.le_trans hle h.le
  owed := h.owed.imp_left fun hlt => Nat.lt_of_le_of_lt hle hlt

/-- What changes neither the document nor the pipelines for dependencies takes nothing away. -/
theorem document (h : e.Accounted control watched reaction n)
    (hdoc : Form.SameDocument e'.form e.form)
    (hdeps : e'.scheduler.dependencies = e.scheduler.dependencies)
    (hpasses : e'.passes control reaction = e.passes control reaction) :
    e'.Accounted control watched reaction n where
  le := hpasses ▸ h.le
  owed := by
    rw [hpasses, hdeps]
    exact h.owed.imp_right fun hbehind q hq hcontrol hwatched hreaction =>
      (hbehind q hq hcontrol hwatched hreaction).congr (hdoc.changes _)

/-- A pipeline that moves stays behind, or the control makes a pass. -/
theorem changeStep (h : e.Accounted control watched reaction n) (hsound : e.Sound)
    (hall : e.AsksForAll control reaction) {p : ChangePipeline} {y : Option Json} {w : Watcher}
    {s : Scheduler} (hstep : e.ChangeStep p y w s) :
    ({ e with scheduler := s }.reactIf { p with watcher := w } y.isSome).Accounted control watched
      reaction n := by
  have hpasses := passes_changeStep hstep control reaction
  by_cases hpass : y.isSome = true ∧ control = p.control ∧ p.reaction = reaction
  · rw [if_pos hpass] at hpasses
    have hle := h.le
    exact ⟨by omega, .inl (by omega)⟩
  · rw [if_neg hpass] at hpasses
    refine ⟨hpasses ▸ h.le, ?_⟩
    rw [hpasses, dependencies_reactIf]
    refine h.owed.imp_right fun hbehind q hq hcontrol hwatched hreaction => ?_
    have hdoc := sameDocument_reactIf { e with scheduler := s } { p with watcher := w } y
    -- the pipeline that has moved yields, which is a pass, or asks for every value and stays behind
    rcases hstep.dependencies q hq with ⟨rfl, hp⟩ | hq
    · cases y with
      | some v => exact absurd ⟨rfl, hcontrol.symm, hreaction⟩ hpass
      | none => exact hstep.behind hsound (hall p hp hcontrol hreaction)
    · exact (hbehind q hq hcontrol hwatched hreaction).congr (hdoc.changes _)

theorem step (h : e.Accounted control watched reaction n) (hsound : e.Sound)
    (hall : e.AsksForAll control reaction) {r : PipelineRef} (hstep : e.step? r race = some e') :
    e'.Accounted control watched reaction n := by
  cases r with
  | dependency i =>
      obtain ⟨p, y, w, s, hchange, rfl⟩ := changeStep_of_stepDependency? hstep
      exact h.changeStep hsound hall hchange
  | editability id =>
      obtain ⟨p, y, w, s, hchange, rfl⟩ := changeStep_of_stepEditability? hstep
      exact h.changeStep hsound hall hchange
  | inquiry id =>
      obtain ⟨p, stream, hp, -, hinquiry⟩ := inquiryStep_of_stepInquiry? hstep
      obtain ⟨rfl, -⟩ := hsound.inquiry hp
      have frame := hinquiry.frame hp
      exact h.document frame.document frame.dependencies
        (passes_of_inquiryFrame frame control reaction)

/-- Further values leave the pipelines behind. -/
theorem set (h : e.Accounted control watched reaction n) (hsound : e.Sound) {id : ControlId}
    {v : Json} {f : Form} (hset : e.form.setValue id v = .ok f) :
    { e with form := f }.Accounted control watched reaction n := by
  refine ⟨h.le, h.owed.imp_right fun hbehind q hq hcontrol hwatched hreaction => ?_⟩
  by_cases hmem : q.watched ∈ e.form.lineage id
  · exact (hsound.dependency q hq).behind_of_sendTimes (List.count_pos_iff.2 hmem)
      (Form.changes?_of_setValue hset q.watched)
  · exact (hbehind q hq hcontrol hwatched hreaction).congr
      (Form.changes?_of_notMem_lineage hset hmem)

theorem event (h : e.Accounted control watched reaction n) (hsound : e.Sound)
    (hall : e.AsksForAll control reaction) (hevent : Event e e') :
    e'.Accounted control watched reaction n := by
  cases hevent with
  | step hstep => exact h.step hsound hall hstep
  | tick now => exact ⟨h.le, h.owed⟩
  | set hset => exact h.set hsound hset
  | external id change =>
      have hdoc := Form.sameDocument_modifyState e.form id fun s =>
        { s with externalErrors := change s.externalErrors }
      exact h.document hdoc rfl rfl
  | force id => exact h.document (sameDocument_force e id) rfl (passes_force e id control reaction)

theorem events (h : e.Accounted control watched reaction n) (hserves : e.Serves)
    (hall : (Scheduler.dependencySettings e.form control reaction).distinct = false)
    (hrun : Events e e') : e'.Accounted control watched reaction n := by
  induction hrun with
  | refl => exact h
  | tail hrun hevent ih =>
      have hserved := hserves.events hrun
      refine ih.event hserved.sound (asksForAll hserved.dependencies ?_) hevent
      unfold Scheduler.dependencySettings at hall ⊢
      rwa [(hrun.sameTree hserves.sound).policy]

theorem kept (h : e.Accounted control watched reaction n) (hserves : e.Serves)
    (hlinked : e.form.Linked control watched reaction) (hkept : e.Kept e') :
    e'.Accounted control watched reaction n := by
  cases hkept with
  | events hrun => exact h.events hserves hlinked.asksForAll hrun
  | document hdoc => exact h.document hdoc rfl rfl

/-- In a settled state nothing is owed, so there has been a pass. -/
theorem passes_lt_of_isSettled (h : e.Accounted control watched reaction n) (hserves : e.Serves)
    (hlinked : e.form.Linked control watched reaction) (hsettled : e.isSettled = true) :
    n < e.passes control reaction := by
  refine h.owed.resolve_right fun hbehind => ?_
  obtain ⟨q, hq, hcontrol, hwatched, hreaction⟩ :=
    hserves.dependencies.complete hlinked.dependsOn hlinked.contains
  exact not_behind_of_isSettled hsettled hserves.sound (.inl hq)
    (hbehind q hq hcontrol hwatched hreaction)

end Accounted

/-! ## Where changes come from -/

/-- What an event sends to the stream of a dependency is accounted for. -/
theorem changes?_or_accounted_of_event (hsound : e.Sound) (hevent : Event e e')
    (control watched : ControlId) (reaction : Reaction) :
    e'.form.changes? watched = e.form.changes? watched ∨
      e'.Accounted control watched reaction (e.passes control reaction) := by
  cases hevent with
  | step hstep => exact .inl ((sameDocument_step hsound hstep).changes watched)
  | tick now => exact .inl rfl
  | @set id v f hset =>
      by_cases hmem : watched ∈ e.form.lineage id
      · refine .inr ⟨Nat.le_refl _, .inr ?_⟩
        rintro q hq - rfl -
        exact (hsound.dependency q hq).behind_of_sendTimes (List.count_pos_iff.2 hmem)
          (Form.changes?_of_setValue hset q.watched)
      · exact .inl (Form.changes?_of_notMem_lineage hset hmem)
  | external id change =>
      have hdoc := Form.sameDocument_modifyState e.form id fun s =>
        { s with externalErrors := change s.externalErrors }
      exact .inl (hdoc.changes watched)
  | force id => exact .inl ((sameDocument_force e id).changes watched)

/-- As long as the pipelines stay, what is sent to the stream of a dependency is accounted for. -/
theorem changes?_or_accounted_of_events (hserves : e.Serves)
    (hall : (Scheduler.dependencySettings e.form control reaction).distinct = false)
    (hrun : Events e e') :
    e'.form.changes? watched = e.form.changes? watched ∨
      e'.Accounted control watched reaction (e.passes control reaction) := by
  induction hrun with
  | refl => exact .inl rfl
  | tail hrun hevent ih =>
      have hserved := hserves.events hrun
      rcases ih with hsame | hacc
      · refine (changes?_or_accounted_of_event hserved.sound hevent control watched reaction).imp
          (fun hevent => hevent.trans hsame) fun hacc => hacc.mono ?_
        exact passes_le_of_events hserves.sound hrun control reaction
      · refine .inr (hacc.event hserved.sound (asksForAll hserved.dependencies ?_) hevent)
        unfold Scheduler.dependencySettings at hall ⊢
        rwa [(hrun.sameTree hserves.sound).policy]

theorem changes?_or_accounted_of_kept (hserves : e.Serves)
    (hall : (Scheduler.dependencySettings e.form control reaction).distinct = false)
    (hkept : e.Kept e') :
    e'.form.changes? watched = e.form.changes? watched ∨
      e'.Accounted control watched reaction (e.passes control reaction) := by
  cases hkept with
  | events hrun => exact changes?_or_accounted_of_events hserves hall hrun
  | document hdoc => exact .inl (hdoc.changes watched)

/-- New pipelines leave the record of a control that stays. -/
theorem passes_of_resubscribed (hre : e.Resubscribed e') (hid : e'.form.contains control = true)
    (reaction : Reaction) : e'.passes control reaction = e.passes control reaction := by
  cases hre with
  | rebuild => rw [passes, Scheduler.entry_rebuild e.scheduler hid, passes]
  | @perform edit hreshapes =>
      have hkept := ((Form.sameTree_edit_publish edit).contains control).symm.trans hid
      rw [passes, Scheduler.entry_rebuild e.scheduler hkept, passes]

/-- When new pipelines are made, the stream of a control that was there is as before and none of
them has anything before it, or more was sent and all that watch the control are behind. -/
theorem behind_cases_of_resubscribed (hserves : e.Serves) (hre : e.Resubscribed e')
    {before : Stream Json} (hbefore : e.form.changes? watched = some before) :
    ∃ after, e'.form.changes? watched = some after ∧
      ((before.sent < after.sent ∧
          ∀ q ∈ e'.scheduler.dependencies, q.watched = watched → q.Behind e'.form) ∨
        (after.sent = before.sent ∧
          ∀ q ∈ e'.scheduler.dependencies, q.watched = watched → ¬ q.Behind e'.form)) := by
  cases hre with
  | rebuild =>
      exact ⟨before, hbefore, .inr ⟨rfl, fun q hq _ => Scheduler.not_behind_of_mem_rebuild hq⟩⟩
  | @perform edit hreshapes =>
      have hsound := hserves.sound.rebuild (hreshapes.soundStreams hserves.streams)
        hreshapes.changes?
      -- the edit itself may close the stream but sends nothing, only its publication does
      obtain ⟨kept, hkept, hsent⟩ : ∃ kept, edit.form.changes? watched = some kept ∧
          kept.sent = before.sent := by
        rcases hreshapes.kept hbefore with hsame | ⟨hclosed, -⟩
        · exact ⟨before, hsame, rfl⟩
        · exact ⟨before.close, hclosed, rfl⟩
      have hpublish := Form.changes?_edit_publish edit
      refine ⟨_, (hpublish watched).trans (congrArg (Option.map _) hkept), ?_⟩
      rw [Stream.sent_sendTimes, hsent]
      rcases Nat.eq_zero_or_pos ((edit.lineage.filter edit.form.contains).count watched) with
        hzero | hpos
      · refine .inr ⟨by omega, ?_⟩
        rintro q hq rfl hbehind
        refine Scheduler.not_behind_of_mem_rebuild hq (hbehind.congr ?_)
        rw [hpublish, hkept, hzero]
        rfl
      · refine .inl ⟨by omega, ?_⟩
        rintro q hq rfl
        exact (hsound.dependency q hq).behind_of_sendTimes hpos (hpublish q.watched)

end Engine

namespace Session

variable {s : Session} {e : Engine} {op : Op} {control watched : Nat} {reaction : Reaction}
  {race : Race}
  {n : Nat}

/-! ## Operations that publish and operations that drop -/

/-- How often a reaction has been run for a control. Nothing is run without a scheduler. -/
def passes (s : Session) (control : Nat) (reaction : Reaction) : Nat :=
  (s.engine?.map fun e => e.passes control reaction).getD 0

/-- The operation sends a value to the stream of a control. -/
def Publishes (s : Session) (op : Op) (id : Nat) : Prop :=
  ∃ before after, s.form.changes? id = some before ∧ (s.apply op).form.changes? id = some after ∧
    before.sent < after.sent

/-- The operation makes new pipelines and sends nothing to the stream of a control. -/
def Drops (s : Session) (op : Op) (id : Nat) : Prop :=
  op.resubscribes s = true ∧ ¬ s.Publishes op id

/-- Something holds at every moment of a run. -/
def Throughout (s : Session) (ops : List Op) (P : Session → Prop) : Prop :=
  ∀ done rest, ops = done ++ rest → P (s.run done)

theorem Throughout.now {ops : List Op} {P : Session → Prop} (h : s.Throughout ops P) : P s :=
  h [] ops rfl

theorem throughout_nil {P : Session → Prop} : s.Throughout [] P ↔ P s := by
  refine ⟨Throughout.now, fun h done rest heq => ?_⟩
  obtain ⟨rfl, -⟩ := List.append_eq_nil_iff.1 heq.symm
  exact h

theorem throughout_cons {ops : List Op} {P : Session → Prop} :
    s.Throughout (op :: ops) P ↔ P s ∧ (s.apply op).Throughout ops P := by
  refine ⟨fun h => ⟨h.now, fun done rest heq =>
    h (op :: done) rest (congrArg (op :: ·) heq)⟩, fun h done rest heq => ?_⟩
  cases done with
  | nil => exact h.1
  | cons first done =>
      obtain ⟨rfl, htail⟩ := List.cons.inj heq
      exact h.2 done rest htail

theorem passes_of_engine? (he : s.engine? = some e) :
    s.passes control reaction = e.passes control reaction := by
  rw [passes, he]
  rfl

/-- A new pipeline has none of the values before it that the one before it had to react to. -/
theorem not_behind_of_drops (h : s.Sound) (he : s.engine? = some e) (hdrops : s.Drops op watched)
    (hwatched : s.form.contains watched = true) :
    ∃ e', (s.apply op).engine? = some e' ∧
      ∀ q ∈ e'.scheduler.dependencies, q.watched = watched → ¬ q.Behind e'.form := by
  obtain ⟨e', he', hre⟩ := resubscribed_of_apply hdrops.1 he
  obtain ⟨before, hbefore⟩ := Scheduler.exists_changes?_of_contains hwatched
  rw [← form_of_engine? he] at hbefore
  obtain ⟨after, hafter, hcases⟩ :=
    Engine.behind_cases_of_resubscribed (h.serves he) hre hbefore
  rw [form_of_engine? he] at hbefore
  refine ⟨e', he', ?_⟩
  rcases hcases with ⟨hlt, -⟩ | ⟨-, hnot⟩
  · exact absurd ⟨before, after, hbefore, form_of_engine? he' ▸ hafter, hlt⟩ hdrops.2
  · exact hnot

/-- What is published to the stream of a dependency is accounted for. -/
theorem accounted_of_publishes (h : s.Sound) (he : s.engine? = some e)
    (hkeeps : op.keepsScheduler = true) (hpublishes : s.Publishes op watched)
    (hlinked : (s.apply op).form.Linked control watched reaction) :
    ∃ e', (s.apply op).engine? = some e' ∧
      e'.Accounted control watched reaction (e.passes control reaction) := by
  obtain ⟨before, after, hbefore, hafter, hlt⟩ := hpublishes
  have hserves := h.serves he
  rw [← form_of_engine? he] at hbefore
  cases hre : op.resubscribes s with
  | false =>
      obtain ⟨e', he', hkept⟩ := kept_of_apply hkeeps hre he
      rw [← form_of_engine? he'] at hafter hlinked
      refine ⟨e', he', ?_⟩
      have hall := (hlinked.congr (Engine.sameTree_of_kept hserves hkept)).asksForAll
      refine (Engine.changes?_or_accounted_of_kept hserves hall hkept).resolve_left fun hsame => ?_
      cases (hafter.symm.trans hsame).trans hbefore
      exact Nat.lt_irrefl _ hlt
  | true =>
      obtain ⟨e', he', hnew⟩ := resubscribed_of_apply hre he
      rw [← form_of_engine? he'] at hafter hlinked
      refine ⟨e', he',
        Nat.le_of_eq (Engine.passes_of_resubscribed hnew hlinked.contains_control reaction).symm,
        .inr ?_⟩
      obtain ⟨after', hafter', hcases⟩ := Engine.behind_cases_of_resubscribed hserves hnew hbefore
      cases hafter.symm.trans hafter'
      rcases hcases with ⟨-, hbehind⟩ | ⟨hsame, -⟩
      · exact fun q hq _ hwatched _ => hbehind q hq hwatched
      · omega

/-- A change stays accounted for, unless an operation drops it before the control has made a pass.
-/
theorem drops_or_accounted_of_apply (h : s.Sound) (he : s.engine? = some e)
    (hacc : e.Accounted control watched reaction n) (hkeeps : op.keepsScheduler = true)
    (hlinked : (s.apply op).form.Linked control watched reaction) :
    (s.Drops op watched ∧ s.passes control reaction = n) ∨
      ∃ e', (s.apply op).engine? = some e' ∧ e'.Accounted control watched reaction n := by
  have hserves := h.serves he
  cases hre : op.resubscribes s with
  | false =>
      obtain ⟨e', he', hkept⟩ := kept_of_apply hkeeps hre he
      rw [← form_of_engine? he'] at hlinked
      exact .inr ⟨e', he',
        hacc.kept hserves (hlinked.congr (Engine.sameTree_of_kept hserves hkept)) hkept⟩
  | true =>
      by_cases hpublishes : s.Publishes op watched
      · obtain ⟨e', he', hacc'⟩ := accounted_of_publishes h he hkeeps hpublishes hlinked
        exact .inr ⟨e', he', hacc'.mono hacc.le⟩
      · -- where there has been a pass already nothing is left that could be dropped
        rcases Nat.eq_or_lt_of_le hacc.le with heq | hlt
        · exact .inl ⟨⟨hre, hpublishes⟩, (passes_of_engine? he).trans heq.symm⟩
        · obtain ⟨e', he', hnew⟩ := resubscribed_of_apply hre he
          rw [← form_of_engine? he'] at hlinked
          have hsame := Engine.passes_of_resubscribed hnew hlinked.contains_control reaction
          exact .inr ⟨e', he', hsame ▸ hacc.le, .inl (hsame ▸ hlt)⟩

/-- A change that is accounted for leads to a pass, unless an operation drops it before. -/
theorem passes_lt_or_drops_of_accounted {ops : List Op} (h : s.Sound) (he : s.engine? = some e)
    (hacc : e.Accounted control watched reaction n) (hkeeps : ∀ op ∈ ops, op.keepsScheduler = true)
    (hlinked : s.Throughout ops fun s => s.form.Linked control watched reaction)
    (hsettled : (s.run ops).isSettled = true) :
    n < (s.run ops).passes control reaction ∨
      ∃ done op rest, ops = done ++ op :: rest ∧ (s.run done).Drops op watched ∧
        (s.run done).passes control reaction = n := by
  induction ops generalizing s e with
  | nil =>
      have hnow := hlinked.now
      rw [← form_of_engine? he] at hnow
      have hend : e.isSettled = true := by simpa [run, isSettled, he] using hsettled
      refine .inl ?_
      rw [run, List.foldl_nil, passes_of_engine? he]
      exact hacc.passes_lt_of_isSettled (h.serves he) hnow hend
  | cons op ops ih =>
      have hop := hkeeps op List.mem_cons_self
      rcases drops_or_accounted_of_apply h he hacc hop (throughout_cons.1 hlinked).2.now with
        ⟨hdrops, hpasses⟩ | ⟨e', he', hacc'⟩
      · exact .inr ⟨[], op, ops, rfl, hdrops, hpasses⟩
      · have hrest := ih (sound_apply h op) he' hacc'
          (fun op hop => hkeeps op (List.mem_cons_of_mem _ hop)) (throughout_cons.1 hlinked).2
          hsettled
        refine hrest.imp_right ?_
        rintro ⟨done, drop, rest, rfl, hdrops, hpasses⟩
        exact ⟨op :: done, drop, rest, rfl, hdrops, hpasses⟩

/-- A value is published to the stream of a control, and another control depends on it and reacts to
each of its values, from then on and for as long as the scheduler stays. In every settled state
after that the dependent control has made a pass since, unless pipelines were made anew in between:
before such a pass, and without sending a value of the dependency. -/
theorem passes_lt_or_drops {m : Model} {data : Json} {c : Config} {before after : List Op}
    (hs : (start (.build m data c)).run before = s) (hattached : s.scheduler.isSome = true)
    (hpublishes : s.Publishes op watched)
    (hkeeps : ∀ o ∈ op :: after, o.keepsScheduler = true)
    (hlinked : (s.apply op).Throughout after fun s => s.form.Linked control watched reaction)
    (hsettled : ((s.apply op).run after).isSettled = true) :
    s.passes control reaction < ((s.apply op).run after).passes control reaction ∨
      ∃ done drop rest, after = done ++ drop :: rest ∧
        ((s.apply op).run done).Drops drop watched ∧
        ((s.apply op).run done).passes control reaction = s.passes control reaction := by
  have hsound : s.Sound := hs ▸ sound_run (sound_start m data c) before
  obtain ⟨sched, hsched⟩ := Option.isSome_iff_exists.1 hattached
  have he : s.engine? = some ⟨s.form, sched, s.clock, s.asked⟩ := by rw [engine?, hsched]; rfl
  obtain ⟨e', he', hacc⟩ := accounted_of_publishes hsound he (hkeeps op List.mem_cons_self)
    hpublishes hlinked.now
  rw [passes_of_engine? he]
  exact passes_lt_or_drops_of_accounted (sound_apply hsound op) he' hacc
    (fun o ho => hkeeps o (List.mem_cons_of_mem _ ho)) hlinked hsettled

/-- A form with the two fields and an array, and a session on it in which the scheduler has done its
initial work. -/
def attachedPair : Session :=
  let list := { Property.template with name := some "list", shape := .array .template }
  let model := { checkedPair with properties := checkedPair.properties ++ [list] }
  (start (.build model pairData .standard)).run [.attach, .advance 0]

/-- The other field becomes two. -/
def otherBecomesTwo : Op := .setValue 2 (.natural 2)

theorem publishes_otherBecomesTwo : attachedPair.Publishes otherBecomesTwo 2 := by
  obtain ⟨before, hbefore, h⟩ := (Option.any_eq_true _ _).1
    (by decide +kernel : (attachedPair.form.changes? 2).any (fun before =>
      ((attachedPair.apply otherBecomesTwo).form.changes? 2).any (before.sent < ·.sent)) = true)
  obtain ⟨after, hafter, hlt⟩ := (Option.any_eq_true _ _).1 h
  exact ⟨before, after, hbefore, hafter, of_decide_eq_true hlt⟩

/-- The dependent field is linked to the other one where its path leads there. -/
theorem linked_pair {f : Form}
    (h : (f.property? 1).any (fun p => Scheduler.validPaths p == ["b"]) = true ∧
      f.resolve (Scheduler.anchor f 1) "b" = some 2 ∧ f.contains 2 = true ∧
      (Scheduler.dependencySettings f 1 .validity).distinct = false) :
    f.Linked 1 2 .validity := by
  obtain ⟨hpaths, hresolve, hcontains, hasks⟩ := h
  obtain ⟨p, hp, heq⟩ := (Option.any_eq_true _ _).1 hpaths
  exact ⟨⟨p, "b", hp, by simp [Scheduler.pathsFor, beq_iff_eq.1 heq], hresolve⟩, hcontains, hasks⟩

theorem linked_otherBecomesTwo :
    (attachedPair.apply otherBecomesTwo).form.Linked 1 2 .validity :=
  linked_pair (by decide +kernel)

/-- The dependent field is checked if there is time enough before the pipelines are made anew. -/
theorem passes_lt_attachedPair :
    attachedPair.passes 1 .validity <
      ((attachedPair.apply otherBecomesTwo).run [.advance 1000, .rebuild]).passes 1 .validity := by
  have hlinked : (attachedPair.apply otherBecomesTwo).Throughout [.advance 1000, .rebuild]
      fun s => s.form.Linked 1 2 .validity :=
    throughout_cons.2 ⟨linked_otherBecomesTwo,
      throughout_cons.2 ⟨linked_pair (by decide +kernel),
        throughout_nil.2 (linked_pair (by decide +kernel))⟩⟩
  refine (passes_lt_or_drops rfl (by decide +kernel) publishes_otherBecomesTwo (by decide) hlinked
    (by decide +kernel)).resolve_right ?_
  rintro ⟨done, drop, rest, heq, ⟨hre, -⟩, hpasses⟩
  cases done with
  | nil =>
      obtain ⟨rfl, -⟩ := List.cons.inj heq
      cases hre
  | cons first done =>
      obtain ⟨rfl, htail⟩ := List.cons.inj heq
      cases done with
      | nil => exact absurd hpasses (by decide +kernel)
      | cons second done => simp at htail

/-! ## A change that gets lost

A debounce is under way when the pipelines are made anew, because a caller asks for it or because an
item is put into an array that has nothing to do with either field. The field is not checked again.
-/

/-- Nothing is run on a value that an operation publishes, although the control depends on it, and
the control ends up in a settled state without the errors that its tests would find. -/
structure Loses (s : Session) (op : Op) (after : List Op) (control watched : Nat) : Prop where
  publishes : s.Publishes op watched
  keepsScheduler : ∀ o ∈ op :: after, o.keepsScheduler = true
  linked : (s.apply op).Throughout after fun s => s.form.Linked control watched .validity
  settled : ((s.apply op).run after).isSettled = true
  unchecked : ((s.apply op).run after).form.called.length = s.form.called.length
  stale : ∃ state, ((s.apply op).run after).form.state? control = some state ∧
    state.syncErrors = none ∧
      (((s.apply op).run after).form.verdict control Property.validTests).passed = false

/-- The change of the other field gets lost to new pipelines that a caller asks for, and to an item
that is put into the array. -/
theorem otherBecomesTwo_gets_lost :
    attachedPair.Loses otherBecomesTwo [.rebuild, .advance 1000] 1 2 ∧
      attachedPair.Loses otherBecomesTwo [.push 3 .null, .advance 1000] 1 2 := by
  have hstale : ∀ {f : Form}, (f.state? 1).any (fun s => s.syncErrors.isNone) = true →
      (f.verdict 1 Property.validTests).passed = false →
      ∃ state, f.state? 1 = some state ∧ state.syncErrors = none ∧
        (f.verdict 1 Property.validTests).passed = false := fun hstate hfails => by
    obtain ⟨state, hstate, hnone⟩ := (Option.any_eq_true _ _).1 hstate
    exact ⟨state, hstate, Option.isNone_iff_eq_none.1 hnone, hfails⟩
  constructor
  · exact
      { publishes := publishes_otherBecomesTwo
        keepsScheduler := by decide
        linked := throughout_cons.2 ⟨linked_otherBecomesTwo,
          throughout_cons.2 ⟨linked_otherBecomesTwo,
            throughout_nil.2 (linked_pair (by decide +kernel))⟩⟩
        settled := by decide +kernel
        unchecked := by decide +kernel
        stale := hstale (by decide +kernel) (by decide +kernel) }
  · exact
      { publishes := publishes_otherBecomesTwo
        keepsScheduler := by decide
        linked := throughout_cons.2 ⟨linked_otherBecomesTwo,
          throughout_cons.2 ⟨linked_pair (by decide +kernel),
            throughout_nil.2 (linked_pair (by decide +kernel))⟩⟩
        settled := by decide +kernel
        unchecked := by decide +kernel
        stale := hstale (by decide +kernel) (by decide +kernel) }

end Session

end ReactiveForm
