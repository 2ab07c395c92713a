import Mathlib.Data.List.Induction
import Mathlib.Data.List.Perm.Subperm
import ReactiveForm.Proofs.Recompute.Bookkeeping
import ReactiveForm.Proofs.Session.Effects

/-!
# Bookkeeping in a session

A scheduler keeps book of the controls of its form. It makes entries for live controls of its own
accord, and when it is fitted to the form it drops those of controls that are gone. In between a
caller can force an inquiry of a control that is not there. That does nothing to the form, and yet
it leaves an entry, until the scheduler is fitted the next time: the control has strayed into the
table (`Strayed`).

So the table has entries of live controls and of strays, one of each at most, and a control that is
not there has counters just if it is a stray. While callers force only what is there the table never
outgrows the form (`booked_of_run`). A caller who holds on to the numbers of controls that are gone
makes it grow (`stray_shortenedList`).
-/

namespace ReactiveForm.Session

open ScheduleTable

variable {s : Session} {e e' : Engine} {op : Op} {ops : List Op} {id : ControlId}

/-- Whether an operation fits the pipelines and the table to the form, or does away with them. -/
def Op.refits (s : Session) (op : Op) : Bool := !op.keepsScheduler || op.resubscribes s

/-- An inquiry of a control was forced while the form did not have it, and the scheduler was not
fitted to the form since. -/
inductive Strayed (s : Session) (id : ControlId) : List Op → Prop where
  /-- The control is not there when it is forced. -/
  | forced {ops : List Op} (hscheduler : (s.run ops).engine?.isSome = true)
      (hgone : (s.run ops).form.contains id = false) : Strayed s id (ops ++ [.force id])
  /-- What comes after that fits the scheduler to nothing. -/
  | stays {ops : List Op} {op : Op} (h : Strayed s id ops)
      (hkeeps : op.refits (s.run ops) = false) : Strayed s id (ops ++ [op])

theorem strayed_append_iff : Strayed s id (ops ++ [op]) ↔
    (op = .force id ∧ (s.run ops).engine?.isSome = true ∧
        (s.run ops).form.contains id = false) ∨
      Strayed s id ops ∧ op.refits (s.run ops) = false := by
  constructor
  · generalize hall : ops ++ [op] = all
    rintro (⟨hscheduler, hgone⟩ | ⟨h, hkeeps⟩)
    · obtain ⟨rfl, heq⟩ := List.append_inj' hall rfl
      cases heq
      exact .inl ⟨rfl, hscheduler, hgone⟩
    · obtain ⟨rfl, heq⟩ := List.append_inj' hall rfl
      cases heq
      exact .inr ⟨h, hkeeps⟩
  · rintro (⟨rfl, hscheduler, hgone⟩ | ⟨h, hkeeps⟩)
    · exact .forced hscheduler hgone
    · exact .stays h hkeeps

/-- A control that was there whenever it was forced has not strayed. -/
theorem not_strayed_of_forced (hforced : ∀ before after, ops = before ++ .force id :: after →
    (s.run before).form.contains id = true) : ¬ Strayed s id ops := by
  intro h
  induction h with
  | @forced ops hscheduler hgone => simp [hforced ops [] rfl] at hgone
  | @stays ops op h hkeeps ih =>
      refine ih fun before after heq => hforced before (after ++ [op]) ?_
      rw [heq, List.append_assoc, List.cons_append]

/-! ## Entries made by operations -/

/-- The entries of the table are those of live controls and of strays. -/
structure Booked (stray : ControlId → Prop) (e : Engine) : Prop where
  nodup : e.scheduler.table.keys.Nodup
  cases : ∀ id ∈ e.scheduler.table.keys, e.form.contains id = true ∨ stray id
  strays : ∀ id, stray id → id ∈ e.scheduler.table.keys

/-- After a rebuild only live controls have entries. -/
theorem booked_rebuild {t : Scheduler} {f g : Form} (hnodup : t.table.keys.Nodup)
    (hlive : ∀ id, g.contains id = f.contains id) (clock : Nat) (asked : List Rule) :
    Booked (fun _ => False) ⟨g, t.rebuild f, clock, asked⟩ where
  nodup := Scheduler.nodup_keys_rebuild hnodup f
  cases id hid := .inl ((hlive id).trans (Scheduler.contains_of_mem_rebuild hid))
  strays _ h := h.elim

/-- What callers force has an entry behind that. Everything else that fits no pipelines makes
entries for live controls. -/
theorem gains_of_apply (h : s.Sound) (hs : s.Subscribed) (hop : op.refits s = false)
    (he : s.engine? = some e) : ∃ e', (s.apply op).engine? = some e' ∧
      (∀ id, e'.form.contains id = e.form.contains id) ∧
      Gains (fun id => e.form.contains id = true ∨ op = .force id) e.scheduler.table
        e'.scheduler.table ∧
      ∀ id, op = .force id → id ∈ e'.scheduler.table.keys := by
  obtain ⟨hkeeps, hre⟩ := Bool.or_eq_false_iff.1 hop
  have hkeeps : op.keepsScheduler = true := by simpa using hkeeps
  obtain ⟨e', he', hkept⟩ := kept_of_apply hkeeps hre he
  have hcontains := (Engine.sameTree_of_kept (h.serves he) hkept).contains
  refine ⟨e', he', hcontains, ?_⟩
  by_cases hforce : ∃ id, op = .force id
  · obtain ⟨id, rfl⟩ := hforce
    have hforced : (s.apply (.force id)).engine? = some (e.force id) := by
      simp only [apply, force, he]
      exact engine?_withEngine s _
    obtain rfl : e.force id = e' := Option.some.inj (hforced.symm.trans he')
    obtain ⟨hgains, hmem⟩ := Engine.gains_force e id
    refine ⟨hgains.imp fun other heq => .inr (congrArg Op.force heq.symm), fun other heq => ?_⟩
    cases heq
    exact hmem
  · refine ⟨Gains.imp (P := (e.form.contains · = true)) ?_ fun _ => .inl,
      fun id heq => absurd ⟨id, heq⟩ hforce⟩
    by_cases hadvance : ∃ ms, op = .advance ms
    · obtain ⟨ms, rfl⟩ := hadvance
      obtain rfl : e.advance ms = e' :=
        Option.some.inj ((engine?_apply_advance he ms).symm.trans he')
      exact Engine.gains_advance (h.serves he).sound (hs e he) ms
    by_cases hedits : op.editsStructure = true
    · -- an edit that fits no pipelines has failed
      rcases apply_cases_of_editsStructure (s := s) hedits with ⟨-, heq⟩ | ⟨hok, -⟩
      · rw [heq, he] at he'
        cases he'
        exact .refl _
      · simp [hok] at hre
    · obtain ⟨e'', he'', heffect⟩ :=
        effect_of_apply hkeeps (fun ms heq => hadvance ⟨ms, heq⟩) he
      obtain rfl : e'' = e' := Option.some.inj (he''.symm.trans he')
      cases heffect with
      | moment hmoment =>
          cases hmoment with
          | step hstep => exact Engine.gains_step (hs e he) hstep
          | force id => exact absurd ⟨id, rfl⟩ hforce
          | _ => exact .refl _
      | rebuild => cases hre
      | perform hstructure => exact absurd hstructure hedits
      | _ => exact .refl _

/-- An operation that fits the scheduler to the form leaves entries of live controls only. -/
private theorem booked_of_refits {stray : ControlId → Prop}
    (hop : op.refits s = true) (hbooked : ∀ e, s.engine? = some e → Booked stray e)
    (he' : (s.apply op).engine? = some e') : Booked (fun _ => False) e' := by
  by_cases hkeeps : op.keepsScheduler = true
  · have hre : op.resubscribes s = true := by simpa [Op.refits, hkeeps] using hop
    cases he : s.engine? with
    | none => cases (engine?_apply_of_none he hkeeps).symm.trans he'
    | some e =>
        obtain ⟨e'', he'', hnew⟩ := resubscribed_of_apply hre he
        obtain rfl : e'' = e' := Option.some.inj (he''.symm.trans he')
        cases hnew with
        | rebuild => exact booked_rebuild (hbooked e he).nodup (fun _ => rfl) _ _
        | @perform edit _ =>
            exact booked_rebuild (hbooked e he).nodup (Form.sameTree_edit_publish edit).contains _ _
  · cases op with
    | attach =>
        cases he'
        exact booked_rebuild (t := .empty) List.nodup_nil (fun _ => rfl) _ _
    | detach => cases he'
    | _ => exact absurd rfl hkeeps

/-- An operation that does not fit the scheduler to the form leaves the strays, and makes one of
what is forced without being there. -/
private theorem booked_of_not_refits (h : s.Sound) (hs : s.Subscribed) {stray : ControlId → Prop}
    (hop : op.refits s = false) (he : s.engine? = some e) (hbooked : Booked stray e)
    (he' : (s.apply op).engine? = some e') :
    Booked (fun id => op = .force id ∧ s.form.contains id = false ∨ stray id) e' := by
  obtain ⟨e'', he'', hcontains, hgains, hforced⟩ := gains_of_apply h hs hop he
  obtain rfl : e'' = e' := Option.some.inj (he''.symm.trans he')
  refine ⟨hgains.nodup hbooked.nodup, fun id hid => ?_, fun id hid => ?_⟩
  · rw [hcontains]
    rcases hgains.cases id hid with hold | hlive | hop
    · exact (hbooked.cases id hold).imp_right .inr
    · exact .inl hlive
    · cases hid : e.form.contains id with
      | true => exact .inl rfl
      | false => exact .inr (.inl ⟨hop, form_of_engine? he ▸ hid⟩)
  · rcases hid with ⟨hop, -⟩ | hstray
    · exact hforced id hop
    · exact hgains.kept id (hbooked.strays id hstray)

/-- In every session the table has entries of live controls and of strays. -/
theorem booked_run (h : s.Sound) (hnone : s.engine? = none) (ops : List Op)
    (he : (s.run ops).engine? = some e) : Booked (fun id => Strayed s id ops) e := by
  induction ops using List.reverseRec generalizing e with
  | nil => cases hnone.symm.trans he
  | append_singleton ops op ih =>
      rw [run_append] at he
      have hsound := sound_run h ops
      simp only [strayed_append_iff]
      cases hop : op.refits (s.run ops) with
      | true =>
          have hnot : ∀ id, op ≠ .force id := by
            rintro id rfl
            cases hop
          simpa [hnot] using booked_of_refits hop (fun _ => ih) he
      | false =>
          cases hbefore : (s.run ops).engine? with
          | none =>
              have hkeeps : op.keepsScheduler = true := by
                simpa using (Bool.or_eq_false_iff.1 hop).1
              cases (engine?_apply_of_none hbefore hkeeps).symm.trans he
          | some e₀ =>
              have hsubscribed := subscribed_run h (.of_none hnone) ops
              simpa [hbefore] using
                booked_of_not_refits hsound hsubscribed hop hbefore (ih hbefore) he

/-! ## The table and the form -/

/-- After any operations the table of a scheduler has one entry at most for a control. A control
that is not there has counters just if an inquiry of it was forced while it was not there, and the
scheduler was not fitted to the form since. So if callers have forced only controls that were there,
all entries are of live controls, no other control has counters, and there are no more entries than
controls. -/
theorem booked_of_run {m : Model} {data : Json} {c : Config}
    (hs : (start (.build m data c)).run ops = s) (he : s.engine? = some e) :
    e.scheduler.table.keys.Nodup ∧
      (∀ id, s.form.contains id = false →
        ((e.scheduler.stats? id).isSome = true ↔ Strayed (start (.build m data c)) id ops)) ∧
      ((∀ before id after, ops = before ++ .force id :: after →
          ((start (.build m data c)).run before).form.contains id = true) →
        (∀ id ∈ e.scheduler.table.keys, s.form.contains id = true) ∧
          (∀ id, s.form.contains id = false → e.scheduler.stats? id = none) ∧
          e.scheduler.table.length ≤ s.form.controls.length) := by
  subst hs
  have hbooked := booked_run (sound_start m data c) rfl ops he
  rw [← form_of_engine? he]
  refine ⟨hbooked.nodup, fun id hgone => ?_, fun hforced => ?_⟩
  · rw [Scheduler.isSome_stats?_iff]
    exact ⟨fun hid => (hbooked.cases id hid).resolve_left (by simp [hgone]), hbooked.strays id⟩
  · have hlive : ∀ id ∈ e.scheduler.table.keys, e.form.contains id = true := fun id hid =>
      (hbooked.cases id hid).resolve_right
        (not_strayed_of_forced fun before after => hforced before id after)
    refine ⟨hlive, fun id hgone => ?_, ?_⟩
    · rw [← Option.not_isSome_iff_eq_none, Scheduler.isSome_stats?_iff]
      intro hid
      simp [hlive id hid] at hgone
    · have hsubset : e.scheduler.table.keys ⊆ e.form.controls := fun id hid =>
        Scheduler.mem_controls.2 (hlive id hid)
      have hle := (hbooked.nodup.subperm hsubset).length_le
      rwa [keys, List.length_map] at hle

/-! ## A caller with old numbers

An array has lost its only item. A caller goes on to force inquiries of the item, and of numbers
that were never given away. The entries that this leaves stay however long one waits.
-/

/-- An array of one item. -/
def oneItem : Form :=
  .build ⟨"one", [{ Property.template with name := some "list", shape := .array .template }], none⟩
    (.object [("list", .array [.natural 1])]) .standard

/-- Only the list and the root are left, and other controls are forced. -/
def forcesGone : List Op := [.attach, .remove 1 0, .force 2, .force 3, .force 7, .advance 1000]

/-- The session in which this has happened. -/
def shortenedList : Session := (start oneItem).run forcesGone

/-- The removed item has strayed into the table. A caller who forces it before it is removed leaves
a table of live controls. -/
theorem booked_shortenedList :
    (∃ e, shortenedList.engine? = some e ∧ shortenedList.form.contains 2 = false ∧
      Strayed (start oneItem) 2 forcesGone ∧ ¬ Strayed (start oneItem) 5 forcesGone) ∧
    ∃ e, ((start oneItem).run [.attach, .force 2, .remove 1 0, .force 1]).engine? = some e ∧
      e.scheduler.table.keys = [1] ∧ e.scheduler.stats? 2 = none ∧
      e.scheduler.table.length ≤ e.form.controls.length := by
  have hstray : shortenedList.engine?.map (fun e =>
      ((e.scheduler.stats? 2).isSome, (e.scheduler.stats? 5).isSome)) = some (true, false) := by
    decide +kernel
  have hclean : ((start oneItem).run [.attach, .force 2, .remove 1 0, .force 1]).engine?.map
      (fun e => e.scheduler.table.keys) = some [1] := by decide +kernel
  obtain ⟨e, he, heq⟩ := Option.map_eq_some_iff.1 hstray
  obtain ⟨htwo, hfive⟩ := Prod.mk.inj heq
  obtain ⟨e', he', hkeys⟩ := Option.map_eq_some_iff.1 hclean
  have hgone : ∀ id ∈ [2, 5], shortenedList.form.contains id = false := by decide +kernel
  obtain ⟨-, hcounted, -⟩ := booked_of_run (s := shortenedList) rfl he
  obtain ⟨-, -, hlive⟩ := booked_of_run rfl he'
  refine ⟨⟨e, he, hgone 2 (by decide), (hcounted 2 (hgone 2 (by decide))).1 htwo, fun h => ?_⟩, ?_⟩
  · rw [(hcounted 5 (hgone 5 (by decide))).2 h] at hfive
    cases hfive
  · have hforced : ∀ before id after,
        [.attach, .force 2, .remove 1 0, .force 1] = before ++ .force id :: after →
          ((start oneItem).run before).form.contains id = true := by
      intro before id after heq
      match before with
      | [] | [_, _] | _ :: _ :: _ :: _ :: _ => simp at heq
      | [first] =>
          obtain ⟨rfl, rfl, -⟩ : .attach = first ∧ 2 = id ∧ _ := by simpa using heq
          decide +kernel
      | [first, second, third] =>
          obtain ⟨rfl, rfl, rfl, rfl, -⟩ : .attach = first ∧ .force 2 = second ∧
            .remove 1 0 = third ∧ 1 = id ∧ _ := by simpa using heq
          decide +kernel
    obtain ⟨-, hnone, hle⟩ := hlive hforced
    exact ⟨e', he', hkeys, hnone 2 (by decide +kernel), form_of_engine? he' ▸ hle⟩

/-- The table has counters of a control that is gone, and more entries than there are controls. -/
theorem stray_shortenedList :
    ∃ e, shortenedList.engine? = some e ∧ 2 ∈ e.scheduler.table.keys ∧
      e.form.contains 2 = false ∧ e.scheduler.stats? 2 = some ⟨0, 0, 0, 0, 0⟩ ∧
      e.form.controls.length < e.scheduler.table.length := by
  have hrun : shortenedList.engine?.map (fun e => (e.scheduler.table.keys, e.form.contains 2,
      e.scheduler.stats? 2, decide (e.form.controls.length < e.scheduler.table.length))) =
      some ([2, 3, 7], false, some ⟨0, 0, 0, 0, 0⟩, true) := by decide +kernel
  obtain ⟨e, he, heq⟩ := Option.map_eq_some_iff.1 hrun
  obtain ⟨hkeys, hrest⟩ := Prod.mk.inj heq
  obtain ⟨hgone, hrest⟩ := Prod.mk.inj hrest
  obtain ⟨hstats, hlength⟩ := Prod.mk.inj hrest
  exact ⟨e, he, hkeys ▸ List.mem_cons_self, hgone, hstats, of_decide_eq_true hlength⟩

end ReactiveForm.Session
