import ReactiveForm.Proofs.Recompute.UpToDate

/-!
# The entries of the table

The table has an entry for a control when something was done or recorded for it, and one at most.
Most changes to a table make an entry if it is not there, so what matters about them is for which
controls they can do so (`ScheduleTable.Gains`). A rebuild is the only one that drops entries.

A step of a pipeline makes an entry for the control of that pipeline, and a scheduler has pipelines
for live controls only. So nothing that the pipelines do, however long they run, makes an entry for
a control that is not there (`gains_step`, `gains_advance`). A caller who forces an inquiry names
the control, and no one looks whether it is there (`gains_force`).
-/

namespace ReactiveForm

namespace ScheduleTable

variable {t t' t'' : ScheduleTable} {f : Form} {id other : ControlId}
  {P Q : ControlId → Prop}

/-- The controls that have an entry, in the order in which the entries were made. -/
def keys (t : ScheduleTable) : List ControlId := t.map Prod.fst

theorem isSome_lookup_iff (t : ScheduleTable) (id : ControlId) :
    (t.lookup id).isSome = true ↔ id ∈ t.keys := by
  induction t with
  | nil => simp [keys]
  | cons e t ih =>
      rw [List.lookup_cons, keys, List.map_cons, List.mem_cons]
      by_cases heq : id = e.1
      · simp [heq]
      · rw [beq_eq_false_iff_ne.2 heq]
        exact ih.trans (or_iff_right heq).symm

/-- A change makes an entry if it is not there. -/
theorem keys_modify (t : ScheduleTable) (id : ControlId)
    (change : ScheduleEntry → ScheduleEntry) :
    (t.modify id change).keys = if id ∈ t.keys then t.keys else t.keys ++ [id] := by
  unfold modify
  split
  · rename_i hthere
    rw [if_pos ((isSome_lookup_iff t id).1 hthere), keys, List.map_map]
    refine List.map_congr_left fun e _ => ?_
    rw [Function.comp_apply]
    split
    · rename_i heq
      exact heq.symm
    · rfl
  · rename_i hmissing
    rw [if_neg fun hmem => hmissing ((isSome_lookup_iff t id).2 hmem), keys, List.map_append]
    rfl

theorem mem_keys_retain (t : ScheduleTable) (f : Form) (id : ControlId) :
    id ∈ (t.retain f).keys ↔ id ∈ t.keys ∧ f.contains id = true := by
  simp only [keys, retain, List.mem_map, List.mem_filter]
  constructor
  · rintro ⟨e, ⟨he, hlive⟩, rfl⟩
    exact ⟨⟨e, he, rfl⟩, hlive⟩
  · rintro ⟨⟨e, he, rfl⟩, hlive⟩
    exact ⟨e, ⟨he, hlive⟩, rfl⟩

/-! ## Tables that have gained entries -/

/-- A table has lost no entry, and gained entries of certain controls at most. -/
structure Gains (P : ControlId → Prop) (t t' : ScheduleTable) : Prop where
  kept : ∀ id ∈ t.keys, id ∈ t'.keys
  cases : ∀ id ∈ t'.keys, id ∈ t.keys ∨ P id
  nodup : t.keys.Nodup → t'.keys.Nodup

namespace Gains

theorem refl (t : ScheduleTable) : Gains P t t := ⟨fun _ h => h, fun _ => .inl, fun h => h⟩

theorem trans (h : Gains P t t') (h' : Gains P t' t'') : Gains P t t'' where
  kept id hid := h'.kept id (h.kept id hid)
  cases id hid := (h'.cases id hid).elim (h.cases id) .inr
  nodup hnodup := h'.nodup (h.nodup hnodup)

theorem imp (h : Gains P t t') (hPQ : ∀ id, P id → Q id) : Gains Q t t' :=
  ⟨h.kept, fun id hid => (h.cases id hid).imp_right (hPQ id), h.nodup⟩

theorem modify (t : ScheduleTable) (hid : P id) (change : ScheduleEntry → ScheduleEntry) :
    Gains P t (t.modify id change) := by
  refine ⟨fun other hother => ?_, fun other hother => ?_, fun hnodup => ?_⟩
  all_goals rw [keys_modify] at *
  · split
    · exact hother
    · exact List.mem_append_left _ hother
  · split at hother
    · exact .inl hother
    · refine (List.mem_append.1 hother).imp_right fun h => ?_
      rw [List.mem_singleton.1 h]
      exact hid
  · split
    · exact hnodup
    · rename_i hnot
      refine List.nodup_append.2 ⟨hnodup, List.pairwise_singleton _ _, ?_⟩
      rintro a ha b hb rfl
      exact hnot (List.mem_singleton.1 hb ▸ ha)

theorem self (t : ScheduleTable) (id : ControlId) (change : ScheduleEntry → ScheduleEntry) :
    Gains (· = id) t (t.modify id change) := modify (P := (· = id)) t rfl change

/-- Entries can be made without anything to record. -/
theorem touch (t : ScheduleTable) {ids : List ControlId} (hids : ∀ id ∈ ids, P id) :
    Gains P t (ids.foldl (fun t id => t.modify id fun e => e) t) := by
  induction ids generalizing t with
  | nil => exact .refl t
  | cons id ids ih =>
      exact (modify t (hids id List.mem_cons_self) _).trans
        (ih _ fun other hother => hids other (List.mem_cons_of_mem _ hother))

end Gains

end ScheduleTable

namespace Scheduler

variable {s : Scheduler} {f : Form} {id : ControlId}

theorem isSome_stats?_iff (s : Scheduler) (id : ControlId) :
    (s.stats? id).isSome = true ↔ id ∈ s.table.keys := by
  rw [stats?, Option.isSome_map, ScheduleTable.isSome_lookup_iff]

/-- A rebuild makes entries for controls that are there. -/
private theorem gains_rebuild (s : Scheduler) (f : Form) :
    ScheduleTable.Gains (f.contains · = true) (s.table.retain f) (s.rebuild f).table := by
  refine .touch _ fun id hid => ?_
  obtain ⟨o, ho, rfl⟩ := List.mem_map.1 hid
  obtain ⟨id, hid, hown⟩ := List.mem_filterMap.1 (List.mem_filter.1 ho).1
  rw [control_ownOf? hown]
  exact mem_controls.1 (List.mem_filter.1 hid).1

/-- After a rebuild all entries are of controls that are there. -/
theorem contains_of_mem_rebuild (hid : id ∈ (s.rebuild f).table.keys) : f.contains id = true :=
  ((gains_rebuild s f).cases id hid).elim (fun h => ((ScheduleTable.mem_keys_retain _ f id).1 h).2)
    fun h => h

theorem nodup_keys_rebuild (h : s.table.keys.Nodup) (f : Form) :
    (s.rebuild f).table.keys.Nodup :=
  (gains_rebuild s f).nodup (h.sublist (List.filter_sublist.map _))

end Scheduler

namespace Engine

open ScheduleTable

variable {e e' : Engine} {p : InquiryPipeline} {stream : Stream Json} {id : ControlId} {race : Race}

/-! ## Entries made by steps -/

theorem gains_react (e : Engine) (control : ControlId) (reaction : Reaction) :
    Gains (· = control) e.scheduler.table (e.react control reaction).scheduler.table := by
  cases reaction with
  | validity =>
      dsimp only [react, Scheduler.request, Scheduler.modifyOwn, Scheduler.markForce,
        Scheduler.modifyEntry]
      exact (Gains.self _ control _).trans (Gains.self _ control _)
  | editability =>
      dsimp only [react, Scheduler.modifyEntry]
      exact Gains.self _ control _

theorem gains_reactIf (e : Engine) (q : ChangePipeline) (y : Option Json) :
    Gains (· = q.control) e.scheduler.table (e.reactIf q y.isSome).scheduler.table := by
  cases y with
  | none => exact .refl _
  | some v => exact gains_react e q.control q.reaction

theorem gains_decide (e : Engine) (p : InquiryPipeline) (forced outrun : Bool) :
    Gains (· = p.control) e.scheduler.table (e.decide p forced outrun).scheduler.table := by
  dsimp only [decide]
  split
  · dsimp only [passThrough, enter, Scheduler.putInquiry, Scheduler.modifyOwn,
      Scheduler.modifyEntry]
    exact Gains.self _ p.control _
  · dsimp only [evaluate, enter, Scheduler.putInquiry, Scheduler.modifyOwn,
      Scheduler.modifyEntry]
    exact Gains.self _ p.control _

theorem gains_begin (e : Engine) (p : InquiryPipeline) (outrun : Bool) :
    Gains (· = p.control) e.scheduler.table (e.begin p outrun).scheduler.table := by
  dsimp only [begin]
  split
  · refine Gains.trans ?_ (gains_decide _ p _ _)
    dsimp only [Scheduler.modifyEntry]
    exact Gains.self _ p.control _
  · dsimp only [enter, Scheduler.putInquiry, Scheduler.modifyOwn, Scheduler.modifyEntry]
    exact Gains.self _ p.control _

/-- A step of an inquiry pipeline makes an entry for its control at most. -/
theorem InquiryStep.gains (h : e.InquiryStep p stream race e') :
    Gains (· = p.control) e.scheduler.table e'.scheduler.table := by
  cases h with
  | begin htakes => exact htakes.control ▸ gains_begin e _ _
  | @supersede p' evaluation outrun htakes =>
      rw [← htakes.control]
      refine Gains.trans ?_ (gains_begin _ p' _)
      dsimp only [Scheduler.modifyEntry]
      exact Gains.self _ p'.control _
  | decide => exact gains_decide e p false false
  | complete =>
      dsimp only [Engine.complete, enter, Scheduler.putInquiry, Scheduler.modifyOwn,
        Scheduler.modifyEntry]
      exact Gains.self _ p.control _
  | finish => exact .refl _

/-- The pipelines of a scheduler are for live controls, so a step makes no entry for any other. -/
theorem gains_step (hs : Scheduler.Subscribed e.form e.scheduler) {r : PipelineRef}
    (hstep : e.step? r race = some e') :
    Gains (e.form.contains · = true) e.scheduler.table e'.scheduler.table := by
  cases r with
  | dependency i =>
      obtain ⟨q, y, w, s, hchange, rfl, hq, -⟩ := exists_changeStep_of_stepDependency? hstep
      have hlive := (hs.live (List.mem_of_getElem? hq)).1
      rw [← hchange.table]
      exact (gains_reactIf { e with scheduler := s } { q with watcher := w } y).imp
        fun id hid => hid ▸ hlive
  | editability control =>
      obtain ⟨q, y, w, s, hchange, rfl, hq, -⟩ := exists_changeStep_of_stepEditability? hstep
      have hlive : e.form.contains q.control = true := by
        obtain ⟨o, ho, -⟩ := Option.bind_eq_some_iff.1 hq
        cases hp : e.form.property? control with
        | none => cases (hs.own?_eq_none hp).symm.trans ho
        | some p => exact (hs.eq_of_editability? hq).1 ▸ Scheduler.contains_of_property? hp
      rw [← hchange.table]
      exact (gains_reactIf { e with scheduler := s } { q with watcher := w } y).imp
        fun id hid => hid ▸ hlive
  | inquiry control =>
      obtain ⟨p, stream, hp, -, hinquiry⟩ := inquiryStep_of_stepInquiry? hstep
      have hcontrol : p.control = control := by
        obtain ⟨property, hproperty, -⟩ := hs.exists_property_of_inquiry? hp
        have houtline := hs.inquiry? hproperty
        rw [hp, Option.map_some] at houtline
        split at houtline
        · exact congrArg InquiryPipeline.control (Option.some.inj houtline)
        · cases houtline
      exact hinquiry.gains.imp fun id hid => hid ▸ hcontrol ▸ hs.contains_of_inquiry? hp

/-- However long the pipelines run, they make no entry for a control that is not there. -/
theorem gains_advance (hsound : e.Sound) (hs : Scheduler.Subscribed e.form e.scheduler) (ms : Nat) :
    Gains (e.form.contains · = true) e.scheduler.table (e.advance ms).scheduler.table := by
  -- the pipelines and the tree stay, so the pipelines are for live controls all the time
  have hrun : (e.advance ms).Sound ∧ Form.SameTree (e.advance ms).form e.form ∧
      Scheduler.SameOutline (e.advance ms).scheduler e.scheduler ∧
      Gains (e.form.contains · = true) e.scheduler.table (e.advance ms).scheduler.table := by
    refine runWithin_induction (I := fun e' => e'.Sound ∧ Form.SameTree e'.form e.form ∧
      Scheduler.SameOutline e'.scheduler e.scheduler ∧
      Gains (e.form.contains · = true) e.scheduler.table e'.scheduler.table) ?_ ?_ _ _ none
      ⟨hsound, .refl _, .refl _, .refl _⟩
    · rintro e₁ e₂ r race ⟨hsound₁, htree, houtline, hgains⟩ hstep
      have hgains' := gains_step (hs.congr htree.symm houtline.symm) hstep
      refine ⟨hsound₁.step hstep, (sameDocument_step hsound₁ hstep).sameTree.trans htree,
        (sameOutline_step hsound₁ hstep).trans houtline,
        hgains.trans (hgains'.imp fun id hid => ?_)⟩
      rwa [← htree.contains]
    · rintro e₁ now ⟨hsound₁, htree, houtline, hgains⟩
      exact ⟨hsound₁.tick now, htree, (sameOutline_tick e₁ now).trans houtline, hgains⟩
  exact hrun.2.2.2

/-- Forcing an inquiry makes an entry for the control that a caller names. -/
theorem gains_force (e : Engine) (id : ControlId) :
    Gains (· = id) e.scheduler.table (e.force id).scheduler.table ∧
      id ∈ (e.force id).scheduler.table.keys := by
  dsimp only [Engine.force, Scheduler.request, Scheduler.modifyOwn, Scheduler.markForce,
    Scheduler.modifyEntry]
  refine ⟨.self _ id _, ?_⟩
  rw [keys_modify]
  split
  · assumption
  · exact List.mem_append_right _ (List.mem_singleton_self id)

end Engine

end ReactiveForm
