import ReactiveForm.Proofs.Form.Places
import ReactiveForm.Proofs.Form.Preorder
import ReactiveForm.Proofs.Session.Edits

/-!
# The tree of controls over a session

If the names of a model are distinct, the controls of a form are a tree, and they stay one whatever
is done in a session (`controlTree_run`): structure edits put an item into an array or take one out,
and all other operations leave what is above and below the controls as it is. A number that was
given to a control is not given to another one, so a control that is gone does not come back
(`follows_run`).
-/

namespace ReactiveForm.Session

variable {s s' : Session} {m : Model} {id array : ControlId} {index : Nat} {value : Json} {op : Op}

/-! ## Edits that succeed -/

theorem setValue_eq_ok (h : s.setValue id value = .ok s') :
    ∃ f, s.form.setValue id value = .ok f ∧ s' = s.withForm f := by
  rw [setValue_eq] at h
  cases hset : s.form.setValue id value with
  | error err => simp [hset, Except.map] at h
  | ok f =>
      rw [hset] at h
      cases h
      exact ⟨f, rfl, rfl⟩

theorem insert_eq_ok (h : s.insert array index value = .ok (id, s')) :
    ∃ items item, s.form.items? array = some items ∧ s.form.template? array = some item ∧
      index ≤ items.length ∧ id = s.form.slots.size ∧
      s' = s.perform (s.form.growth array items index item value) := by
  rw [insert_eq] at h
  cases hprepare : s.form.prepareInsert array index value with
  | error err => simp [hprepare, Except.map] at h
  | ok next =>
      rw [hprepare] at h
      cases h
      obtain ⟨items, item, hitems, hitem, hindex, hid, hedit⟩ := Form.prepareInsert_eq_ok hprepare
      exact ⟨items, item, hitems, hitem, hindex, hid, hedit ▸ rfl⟩

/-- Pushing an item is putting it behind the last one. -/
theorem push_eq_ok (h : s.push array value = .ok (id, s')) :
    ∃ items, s.form.items? array = some items ∧
      s.insert array items.length value = .ok (id, s') := by
  rw [push_eq] at h
  cases hprepare : s.form.preparePush array value with
  | error err => simp [hprepare, Except.map] at h
  | ok next =>
      rw [hprepare] at h
      obtain ⟨items, hitems, hinsert⟩ := Form.preparePush_eq_ok hprepare
      exact ⟨items, hitems, by rw [insert_eq, hinsert]; exact h⟩

theorem remove_eq_ok (h : s.remove array index = .ok (value, s')) :
    ∃ items gone, s.form.items? array = some items ∧ items[index]? = some gone ∧
      value = s.form.value gone ∧ s' = s.perform (s.form.shrinkage array items index gone) := by
  rw [remove_eq] at h
  cases hprepare : s.form.prepareRemove array index with
  | error err => simp [hprepare, Except.map] at h
  | ok next =>
      rw [hprepare] at h
      cases h
      obtain ⟨items, gone, hitems, hget, hvalue, hedit⟩ := Form.prepareRemove_eq_ok hprepare
      exact ⟨items, gone, hitems, hget, hvalue, hedit ▸ rfl⟩

theorem sameTree_perform_growth (s : Session) (array : ControlId) (items : List ControlId)
    (index : Nat) (item : Property) (value : Json) :
    Form.SameTree (s.form.grown array items index item value)
      (s.perform (s.form.growth array items index item value)).form :=
  (Form.sameDocument_growth s.form array items index item value).sameTree.symm.trans
    (Form.sameTree_edit_publish _).symm

theorem sameTree_perform_shrinkage (s : Session) (array : ControlId) (items : List ControlId)
    (index : Nat) (gone : ControlId) :
    Form.SameTree (s.form.shrunk array items index gone)
      (s.perform (s.form.shrinkage array items index gone)).form :=
  (Form.sameDocument_shrinkage s.form array items index gone).sameTree.symm.trans
    (Form.sameTree_edit_publish _).symm

/-! ## The tree is kept -/

/-- What lasts when an array gains or loses an item lasts over a session. -/
theorem lasting_apply {P : Form → Prop} (hP : Form.Lasting P) (hsound : s.Sound) (h : P s.form)
    (op : Op) : P (s.apply op).form := by
  have hinsert : ∀ {array index value id s'}, s.insert array index value = .ok (id, s') →
      P s'.form := fun {array index value id s'} hok => by
    obtain ⟨items, item, hitems, hitem, -, -, rfl⟩ := insert_eq_ok hok
    exact hP.sameTree (hP.grown h hitems hitem index value)
      (sameTree_perform_growth s array items index item value)
  cases hedits : op.editsStructure with
  | false => exact hP.sameTree h (sameTree_apply hsound hedits).symm
  | true =>
      cases op with
      | insert array index value =>
          rw [apply]
          rcases (Editing.yields_insert array index value).cases s with ⟨-, heq⟩ | ⟨id, hok⟩
          · rwa [heq]
          · exact hinsert hok
      | push array value =>
          rw [apply]
          rcases (Editing.yields_push array value).cases s with ⟨-, heq⟩ | ⟨id, hok⟩
          · rwa [heq]
          · obtain ⟨items, -, hok⟩ := push_eq_ok hok
            exact hinsert hok
      | remove array index =>
          rw [apply]
          rcases (Editing.yields_remove array index).cases s with ⟨-, heq⟩ | ⟨value, hok⟩
          · rwa [heq]
          · obtain ⟨items, gone, hitems, hget, -, heq⟩ := remove_eq_ok hok
            rw [heq]
            exact hP.sameTree (hP.shrunk h hitems hget)
              (sameTree_perform_shrinkage s array items index gone)
      | _ => cases hedits

theorem lasting_run {P : Form → Prop} (hP : Form.Lasting P) (hsound : s.Sound) (h : P s.form)
    (ops : List Op) : P (s.run ops).form := by
  induction ops generalizing s with
  | nil => exact h
  | cons op ops ih => exact ih (sound_apply hsound op) (lasting_apply hP hsound h op)

theorem controlTree_run (hsound : s.Sound) (h : s.form.ControlTree m) (hm : m.DistinctNames)
    (ops : List Op) : (s.run ops).form.ControlTree m :=
  lasting_run (Form.lasting_controlTree hm) hsound h ops

/-! ## What structure edits do to the tree -/

theorem grafts_insert (h : s.form.ControlTree m) (hm : m.DistinctNames)
    (hinsert : s.insert array index value = .ok (id, s')) :
    Form.Grafts m s.form s'.form array index id := by
  obtain ⟨items, item, hitems, hitem, hindex, rfl, rfl⟩ := insert_eq_ok hinsert
  exact (h.grafts hm hitems hitem hindex value).congr
    (sameTree_perform_growth s array items index item value)

theorem prunes_remove (h : s.form.ControlTree m)
    (hremove : s.remove array index = .ok (value, s')) :
    ∃ gone, Form.Prunes s.form s'.form array index gone := by
  obtain ⟨items, gone, hitems, hget, -, rfl⟩ := remove_eq_ok hremove
  exact ⟨gone, (h.prunes hitems hget).congr (sameTree_perform_shrinkage s array items index gone)⟩

/-- No control comes back. -/
theorem follows_apply (h : s.Sound) (op : Op) : Form.Follows s.form (s.apply op).form := by
  cases hedits : op.editsStructure with
  | false => exact (sameTree_apply h hedits).follows
  | true =>
      rcases apply_cases_of_editsStructure (s := s) hedits with ⟨-, heq⟩ | ⟨-, edit, hedit, heq⟩
      · rw [heq]
        exact (Form.SameTree.refl s.form).follows
      · rw [heq]
        exact hedit.follows.trans (Form.sameTree_edit_publish edit).follows

theorem follows_run (h : s.Sound) (ops : List Op) : Form.Follows s.form (s.run ops).form := by
  induction ops generalizing s with
  | nil => exact (Form.SameTree.refl s.form).follows
  | cons op ops ih => exact (follows_apply h op).trans (ih (sound_apply h op))

/-- A control that is gone stays gone. -/
theorem contains_run_of_gone (h : s.Sound) (hid : id < s.form.slots.size)
    (hgone : s.form.contains id = false) (ops : List Op) :
    (s.run ops).form.contains id = false := by
  refine Bool.eq_false_iff.2 fun hback => ?_
  rcases (follows_run h ops).contains hback with hlive | hnone
  · rw [hgone] at hlive
    cases hlive
  · simp [Form.changes?, hid] at hnone

/-! ## The invariant -/

/-- In every state of a session the controls are a tree of the shapes of the model, and the controls
that are there are those below the root. A new item is a row of new numbers, in the order of a walk
through the item, and a removed one goes with all of its descendants and nothing else. What is gone
does not come back. A walk upwards ends at the root, and a larger bound on its steps changes
nothing. -/
theorem controlTree_of_run {data : Json} {c : Config} {ops : List Op} (hm : m.DistinctNames)
    (hs : (start (.build m data c)).run ops = s) :
    s.form.ControlTree m ∧
      (∀ id, s.form.contains id = true ↔ s.form.Descends Form.root id) ∧
      (∀ array index value id s', s.insert array index value = .ok (id, s') →
        Form.Grafts m s.form s'.form array index id) ∧
      (∀ array value id s', s.push array value = .ok (id, s') →
        ∃ items, s.form.items? array = some items ∧
          Form.Grafts m s.form s'.form array items.length id) ∧
      (∀ array index value s', s.remove array index = .ok (value, s') →
        ∃ gone, Form.Prunes s.form s'.form array index gone) ∧
      (∀ id value s', s.setValue id value = .ok s' → Form.SameTree s'.form s.form) ∧
      (∀ id, id < s.form.slots.size → s.form.contains id = false →
        ∀ more, (s.run more).form.contains id = false) ∧
      (∀ n id, s.form.slots.size ≤ n → s.form.lineageWithin n id = s.form.lineage id ∧
        s.form.trailWithin n id = s.form.trailWithin s.form.slots.size id) ∧
      ∀ id, s.form.contains id = true →
        (s.form.lineage id).getLast? = some Form.root ∧ (s.form.path? id).isSome = true := by
  have hstart := sound_start m data c
  have hsound : s.Sound := hs ▸ sound_run hstart ops
  have htree : s.form.ControlTree m :=
    hs ▸ controlTree_run hstart (Form.controlTree_build hm) hm ops
  refine ⟨htree, htree.contains_iff_descends, fun _ _ _ _ _ => grafts_insert htree hm,
    fun array value id s' hpush => ?_, fun _ _ _ _ => prunes_remove htree,
    fun id value s' hset => ?_, fun id hid hgone => contains_run_of_gone hsound hid hgone,
    fun n id hn => ⟨htree.soundTree.lineageWithin_eq hn id, ?_⟩, fun id hid => ?_⟩
  · obtain ⟨items, hitems, hinsert⟩ := push_eq_ok hpush
    exact ⟨items, hitems, grafts_insert htree hm hinsert⟩
  · obtain ⟨f, hform, rfl⟩ := setValue_eq_ok hset
    exact Form.sameTree_setValue hform
  · rw [Form.trailWithin_eq, Form.trailWithin_eq, htree.soundTree.placeWithin_eq hn id]
    rfl
  · obtain ⟨place, hplace⟩ := htree.exists_place? hid
    refine ⟨htree.getLast?_lineage hid, ?_⟩
    rw [Form.path?_eq, hplace]
    rfl

/-! ## A form with rows

A model with an object and an array of objects. The parts are not declared in the order of their
names, and the second row of the document is no object.
-/

/-- A property with a name and a shape, without any tests. -/
def plain (name : String) (shape : Shape) : Property :=
  { Property.template with name := some name, shape }

/-- A site with a port and a host, and rows with a right and a left part. -/
def rowsModel : Model :=
  let row := { Property.template with
    shape := .object [plain "right" .value, plain "left" .value] }
  ⟨"rows", [plain "site" (.object [plain "port" .value, plain "host" .value]),
    plain "rows" (.array row)], none⟩

/-- A site without a port, and two rows. -/
def rowsData : Json :=
  .object [
    ("rows", .array [.object [("left", .natural 1), ("right", .natural 2)], .natural 3]),
    ("site", .object [("host", .string "h")])]

/-- The first row is taken out, another one is put in, one is pushed onto a control that is no array,
and a control that is gone is set. -/
def rowsOps : List Op :=
  [.remove 4 0, .insert 4 1 (.object [("left", .natural 4)]), .push 1 .null,
    .setValue 6 (.natural 5), .setValue 9 (.natural 6)]

theorem distinctNames_rowsModel : rowsModel.DistinctNames := by
  refine .object (by decide) fun p hp => ?_
  have hcases : p = plain "site" (.object [plain "port" .value, plain "host" .value]) ∨
      p = plain "rows" (.array { Property.template with
        shape := .object [plain "right" .value, plain "left" .value] }) := by
    simpa [rowsModel] using hp
  have hvalues : ∀ a b : String, ∀ q ∈ [plain a .value, plain b .value],
      q.shape.DistinctNames := by
    intro a b q hq
    rcases List.mem_cons.1 hq with rfl | hq
    · exact .value
    · rw [List.mem_singleton.1 hq]
      exact .value
  rcases hcases with rfl | rfl
  · exact .object (by decide) (hvalues _ _)
  · exact .array (.object (by decide) (hvalues _ _))

/-- The controls of the first row do not come back, and the next row gets the next numbers. -/
theorem controlTree_rows :
    let s := (start (.build rowsModel rowsData .standard)).run rowsOps
    s.form.controls = [0, 1, 2, 3, 4, 8, 9, 10, 11, 12, 13] ∧ s.form.ControlTree rowsModel ∧
      (∀ more, (s.run more).form.contains 6 = false) ∧
      (∃ s', s.insert 4 0 .null = .ok (14, s') ∧
        Form.Grafts rowsModel s.form s'.form 4 0 14) ∧
      (s.form.lineage 13).getLast? = some Form.root := by
  have hcontrols : ((start (.build rowsModel rowsData .standard)).run rowsOps).form.controls =
      [0, 1, 2, 3, 4, 8, 9, 10, 11, 12, 13] := by decide +kernel
  have hinsert : (((start (.build rowsModel rowsData .standard)).run rowsOps).insert 4 0
      .null).toOption.map Prod.fst = some 14 := by decide +kernel
  obtain ⟨htree, -, hgrafts, -, -, -, hgone, -, hup⟩ :=
    @controlTree_of_run _ rowsModel rowsData .standard rowsOps distinctNames_rowsModel rfl
  refine ⟨hcontrols, htree, hgone 6 (by decide +kernel) (by decide +kernel), ?_,
    (hup 13 (by decide +kernel)).1⟩
  cases hok : ((start (.build rowsModel rowsData .standard)).run rowsOps).insert 4 0 .null with
  | error err =>
      rw [hok] at hinsert
      cases hinsert
  | ok next =>
      obtain ⟨id, s'⟩ := next
      rw [hok] at hinsert
      cases hinsert
      exact ⟨s', rfl, hgrafts 4 0 .null 14 s' hok⟩

end ReactiveForm.Session
