import ReactiveForm.Proofs.Recompute.Subscribed
import ReactiveForm.Proofs.Session.Structure

/-!
# Edits of a session

An edit gives a field a new value, or an array gains or loses an item. It fails and changes nothing,
or it edits the form in one of these two ways (`Edited`). All other operations leave the tree of the
form as it is. So what structure edits keep holds in every session: parents come before their
children (`parentsBefore_run`), and a scheduler that is attached has the pipelines that a new one
would have (`subscribed_run`).
-/

namespace ReactiveForm.Session

variable {s : Session} {e : Engine} {op : Op} {x : ControlId}

/-- Whether an edit succeeds. -/
def Op.succeeds (s : Session) : Op → Bool
  | .setValue id value => (s.setValue id value).isOk
  | op => op.resubscribes s

/-- What an edit that succeeds makes of a session. -/
inductive Edited (s : Session) (x : ControlId) : Session → Prop where
  /-- A field has got a new value. -/
  | set {v : Json} {f : Form} (hset : s.form.setValue x v = .ok f) : Edited s x (s.withForm f)
  /-- An array has gained or lost an item. -/
  | perform {edit : Form.Edit} (hedit : s.form.Prepared x edit) : Edited s x (s.perform edit)

theorem Op.succeeds_of_editsStructure (hedits : op.editsStructure = true) :
    op.succeeds s = op.resubscribes s := by
  cases op <;> first | rfl | cases hedits

/-- An edit fails and changes nothing, or it edits its target. -/
theorem edited_of_target? (htarget : op.target? = some x) :
    (op.succeeds s = false ∧ s.apply op = s) ∨
      (op.succeeds s = true ∧ s.Edited x (s.apply op)) := by
  by_cases hedits : op.editsStructure = true
  · rw [Op.succeeds_of_editsStructure hedits]
    refine (perform_of_editsStructure hedits htarget).imp_right fun ⟨hok, edit, hedit, heq⟩ => ?_
    exact ⟨hok, heq ▸ .perform hedit⟩
  · cases op with
    | setValue id v =>
        cases htarget
        simp only [apply_setValue, Op.succeeds, setValue_eq]
        cases hset : s.form.setValue x v with
        | error err => exact .inl ⟨rfl, rfl⟩
        | ok f => exact .inr ⟨rfl, .set hset⟩
    | _ => first | exact absurd rfl hedits | cases htarget

/-- After an edit the tests of validity have been run along the lineage of the target, and all tests
on new controls. -/
theorem Edited.retests {s' : Session} (h : s.Edited x s') (hf : s.form.ParentsBefore) :
    Form.Retests s.form s'.form (s'.form.lineage x) := by
  cases h with
  | set hset => exact Form.retests_setValue hset
  | @perform edit hedit =>
      have hlineage : (s.perform edit).form.lineage x = edit.lineage :=
        ((Form.sameTree_edit_publish edit).lineage x).trans hedit.lineage_eq.symm
      rw [hlineage]
      exact ((hedit.retests hf).publish edit.lineage).announce edit.change

/-! ## What all other operations leave as it is -/

theorem sameTree_apply (h : s.Sound) (hedits : op.editsStructure = false) :
    Form.SameTree (s.apply op).form s.form := by
  cases he : s.engine? with
  | none =>
      obtain ⟨id, v, hset⟩ | hdoc := apply_cases_of_none he hedits
      · exact Form.sameTree_setValue hset
      · exact hdoc.sameTree
  | some e =>
      have hform := form_of_engine? he
      by_cases hop : op.keepsScheduler = true
      · cases hre : op.resubscribes s with
        | false =>
            obtain ⟨e', he', hkept⟩ := kept_of_apply hop hre he
            rw [← form_of_engine? he', ← hform]
            exact Engine.sameTree_of_kept (h.serves he) hkept
        | true =>
            cases op with
            | rebuild => exact .refl s.form
            | _ => first | cases hre | cases hedits
      · cases op with
        | attach => exact .refl s.form
        | detach => exact .refl s.form
        | _ => exact absurd rfl hop

theorem sameTree_run {ops : List Op} (h : s.Sound)
    (hedits : ∀ op ∈ ops, op.editsStructure = false) : Form.SameTree (s.run ops).form s.form := by
  induction ops generalizing s with
  | nil => exact .refl s.form
  | cons op ops ih =>
      exact (ih (sound_apply h op) fun o ho => hedits o (List.mem_cons_of_mem _ ho)).trans
        (sameTree_apply h (hedits op List.mem_cons_self))

/-- In every session parents come before their children. -/
theorem parentsBefore_apply (h : s.Sound) (hf : s.form.ParentsBefore) (op : Op) :
    (s.apply op).form.ParentsBefore := by
  cases hedits : op.editsStructure with
  | false => exact (sameTree_apply h hedits).symm.parentsBefore hf
  | true =>
      obtain ⟨x, htarget⟩ := exists_target?_of_editsStructure hedits
      obtain ⟨-, heq⟩ | ⟨-, edit, hedit, heq⟩ := perform_of_editsStructure (s := s) hedits htarget
      · rw [heq]
        exact hf
      · rw [heq]
        exact (Form.sameTree_edit_publish edit).symm.parentsBefore (hedit.parentsBefore hf)

theorem parentsBefore_run (h : s.Sound) (hf : s.form.ParentsBefore) (ops : List Op) :
    (s.run ops).form.ParentsBefore := by
  induction ops generalizing s with
  | nil => exact hf
  | cons op ops ih => exact ih (sound_apply h op) (parentsBefore_apply h hf op)

/-! ## Subscriptions -/

/-- A scheduler that is attached has the pipelines that a new one would have. -/
def Subscribed (s : Session) : Prop :=
  ∀ e, s.engine? = some e → Scheduler.Subscribed e.form e.scheduler

theorem Subscribed.of_engine? (he : s.engine? = some e)
    (h : Scheduler.Subscribed e.form e.scheduler) : s.Subscribed := by
  intro e' he'
  rw [he] at he'
  cases he'
  exact h

theorem Subscribed.of_none (hnone : s.engine? = none) : s.Subscribed := by
  intro e he
  rw [hnone] at he
  cases he

/-- A structure edit fits the pipelines to the new structure. -/
theorem Subscribed.perform (hs : s.Subscribed) (he : s.engine? = some e) {edit : Form.Edit}
    (hedit : s.form.Prepared x edit) : (s.perform edit).Subscribed := by
  refine .of_engine? (engine?_perform he edit) ?_
  have hkeeps : Form.KeepsProperties e.form edit.form :=
    form_of_engine? he ▸ hedit.keepsProperties
  exact ((hs e he).rebuild hkeeps).congr (Form.sameTree_edit_publish edit).symm (.refl _)

theorem subscribed_apply (h : s.Sound) (hs : s.Subscribed) (op : Op) : (s.apply op).Subscribed := by
  by_cases hop : op.keepsScheduler = true
  · cases he : s.engine? with
    | none => exact .of_none (engine?_apply_of_none he hop)
    | some e =>
        cases hre : op.resubscribes s with
        | false =>
            obtain ⟨e', he', hkept⟩ := kept_of_apply hop hre he
            exact .of_engine? he' ((hs e he).congr
              (Engine.sameTree_of_kept (h.serves he) hkept).symm
              (Engine.sameOutline_of_kept (h.serves he) hkept).symm)
        | true =>
            by_cases hedits : op.editsStructure = true
            · obtain ⟨x, hx⟩ := exists_target?_of_editsStructure hedits
              rcases perform_of_editsStructure hedits hx with ⟨-, heq⟩ | ⟨-, edit, hedit, heq⟩
              · exact heq ▸ hs
              · exact heq ▸ hs.perform he hedit
            · cases op with
              | rebuild =>
                  exact .of_engine? (engine?_rebuild he)
                    ((hs e he).rebuild (Form.SameTree.refl e.form).keepsProperties)
              | _ => first | exact absurd rfl hedits | cases hre
  · cases op with
    | attach =>
        have he : (s.apply .attach).engine? = some ⟨s.form, .attach s.form, s.clock, s.asked⟩ := rfl
        exact .of_engine? he (.attach s.form)
    | detach => exact .of_none rfl
    | _ => exact absurd rfl hop

theorem subscribed_run (h : s.Sound) (hs : s.Subscribed) (ops : List Op) :
    (s.run ops).Subscribed := by
  induction ops generalizing s with
  | nil => exact hs
  | cons op ops ih => exact ih (sound_apply h op) (subscribed_apply h hs op)

end ReactiveForm.Session
