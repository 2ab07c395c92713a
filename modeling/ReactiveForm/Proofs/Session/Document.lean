import ReactiveForm.Proofs.Form.Matching
import ReactiveForm.Proofs.Session.ControlTree

/-!
# The document over a session

A form behaves as the document that it shows. At first that is the projection of the document it was
built from. Setting a field replaces the value at its path, and an item that comes or goes is put
into or taken out of the list at the path of its array. Nothing else of the document changes. Which
numbers the controls have got on the way does not matter: a form that is built anew from the
document looks the same (`document_of_run`).
-/

namespace ReactiveForm.Session

variable {s s' : Session} {m : Model} {id array : ControlId} {index : Nat} {value : Json}

theorem rootValue_perform_growth (s : Session) (array : ControlId) (items : List ControlId)
    (index : Nat) (item : Property) (value : Json) :
    (s.perform (s.form.growth array items index item value)).form.rootValue =
      (s.form.grown array items index item value).rootValue :=
  (Form.value_edit_publish _ _).trans
    ((Form.sameDocument_growth s.form array items index item value).value Form.root)

theorem rootValue_perform_shrinkage (s : Session) (array : ControlId) (items : List ControlId)
    (index : Nat) (gone : ControlId) :
    (s.perform (s.form.shrinkage array items index gone)).form.rootValue =
      (s.form.shrunk array items index gone).rootValue :=
  (Form.value_edit_publish _ _).trans
    ((Form.sameDocument_shrinkage s.form array items index gone).value Form.root)

/-- A field that is set has the new value at its place. -/
theorem replaces_setValue (h : s.form.ControlTree m) (hset : s.setValue id value = .ok s') :
    ∃ place, s.form.place? id = some place ∧
      s'.form.rootValue = s.form.rootValue.replace place value ∧
      s'.form.rootValue.place place = value := by
  obtain ⟨f, hform, rfl⟩ := setValue_eq_ok hset
  have htree := Form.sameTree_setValue hform
  obtain ⟨place, hplace⟩ := h.exists_place? (Form.contains_of_setValue hform)
  refine ⟨place, hplace, h.rootValue_setValue hform hplace, ?_⟩
  exact ((htree.symm.soundTree h.soundTree).rootValue_place
    ((htree.place? id).trans hplace)).trans (Form.value_of_setValue_self hform)

/-- A new item stands in the list of its array with what its template keeps of it. -/
theorem replaces_insert (h : s.form.ControlTree m) (hm : m.DistinctNames)
    (hinsert : s.insert array index value = .ok (id, s')) :
    ∃ place item items, s.form.place? array = some place ∧ s.form.template? array = some item ∧
      s.form.rootValue.place place = .array items ∧ index ≤ items.length ∧
      s'.form.rootValue =
        s.form.rootValue.replace place (.array (items.insertIdx index (item.shape.project value))) := by
  obtain ⟨items, item, hitems, hitem, hindex, -, rfl⟩ := insert_eq_ok hinsert
  obtain ⟨place, hplace⟩ := h.exists_place? (Form.contains_of_items? hitems)
  refine ⟨place, item, items.map s.form.value, hplace, hitem,
    h.soundTree.place_array hitems hplace, by rwa [List.length_map], ?_⟩
  rw [rootValue_perform_growth]
  exact h.rootValue_grown hm hitems hitem hindex hplace

/-- An item that is pushed stands at the end of the list. -/
theorem replaces_push (h : s.form.ControlTree m) (hm : m.DistinctNames)
    (hpush : s.push array value = .ok (id, s')) :
    ∃ place item items, s.form.place? array = some place ∧ s.form.template? array = some item ∧
      s.form.rootValue.place place = .array items ∧
      s'.form.rootValue =
        s.form.rootValue.replace place (.array (items ++ [item.shape.project value])) := by
  obtain ⟨ids, hids, hinsert⟩ := push_eq_ok hpush
  obtain ⟨place, item, items, hplace, hitem, hlist, -, hvalue⟩ := replaces_insert h hm hinsert
  have hlength : ids.length = items.length := by
    rw [h.soundTree.place_array hids hplace] at hlist
    rw [← Json.array.inj hlist, List.length_map]
  refine ⟨place, item, items, hplace, hitem, hlist, ?_⟩
  rw [hvalue, hlength, List.insertIdx_length_self]

/-- An item that is taken out is missing in the list, and its value is handed back. -/
theorem replaces_remove (h : s.form.ControlTree m)
    (hremove : s.remove array index = .ok (value, s')) :
    ∃ place items, s.form.place? array = some place ∧
      s.form.rootValue.place place = .array items ∧ items[index]? = some value ∧
      s'.form.rootValue = s.form.rootValue.replace place (.array (items.eraseIdx index)) := by
  obtain ⟨items, gone, hitems, hget, rfl, rfl⟩ := remove_eq_ok hremove
  obtain ⟨place, hplace⟩ := h.exists_place? (Form.contains_of_items? hitems)
  refine ⟨place, items.map s.form.value, hplace, h.soundTree.place_array hitems hplace, ?_, ?_⟩
  · rw [List.getElem?_map, hget]
    rfl
  · rw [rootValue_perform_shrinkage]
    exact h.rootValue_shrunk hitems hget hplace

/-- A form that is built from the document of another one is alike. -/
theorem alike_build (h : s.form.ControlTree m) (hm : m.DistinctNames) (c : Config) :
    Form.Alike m s.form (.build m s.form.rootValue c) := by
  refine ⟨hm, h, Form.controlTree_build hm, ?_⟩
  obtain ⟨r, hr, -, -, hproperty⟩ := h.root
  have hshape : r.shape m = .object m.properties := by rw [Control.shape, hproperty]; rfl
  rw [Form.rootValue_build, ← hshape]
  exact (h.project_value hm hr).symm

/-- The form is a faithful document in every state of a session. It begins with the projection of
the data. A field that is set gets the new value at its path, and an array gains or loses an item in
the list at its path, with the other items in their order. And a form that is built anew from the
document of the form has the same document, and the same paths lead to controls of the same kind and
value. -/
theorem document_of_run {data : Json} {c : Config} {ops : List Op} (hm : m.DistinctNames)
    (hs : (start (.build m data c)).run ops = s) :
    (Form.build m data c).rootValue = (Shape.object m.properties).project data ∧
      (∀ id value s', s.setValue id value = .ok s' →
        ∃ place, s.form.place? id = some place ∧ s.form.path? id = some (Segment.path place) ∧
          s'.form.rootValue = s.form.rootValue.replace place value ∧
          s'.form.rootValue.place place = value) ∧
      (∀ array index value id s', s.insert array index value = .ok (id, s') →
        ∃ place item items, s.form.place? array = some place ∧
          s.form.path? array = some (Segment.path place) ∧ s.form.template? array = some item ∧
          s.form.rootValue.place place = .array items ∧ index ≤ items.length ∧
          s'.form.rootValue = s.form.rootValue.replace place
            (.array (items.insertIdx index (item.shape.project value)))) ∧
      (∀ array value id s', s.push array value = .ok (id, s') →
        ∃ place item items, s.form.place? array = some place ∧
          s.form.path? array = some (Segment.path place) ∧ s.form.template? array = some item ∧
          s.form.rootValue.place place = .array items ∧
          s'.form.rootValue = s.form.rootValue.replace place
            (.array (items ++ [item.shape.project value]))) ∧
      (∀ array index value s', s.remove array index = .ok (value, s') →
        ∃ place items, s.form.place? array = some place ∧
          s.form.path? array = some (Segment.path place) ∧
          s.form.rootValue.place place = .array items ∧ items[index]? = some value ∧
          s'.form.rootValue = s.form.rootValue.replace place (.array (items.eraseIdx index))) ∧
      ∀ c', let g := Form.build m s.form.rootValue c'
        g.rootValue = s.form.rootValue ∧
          (∀ path, (s.form.get? path).map s.form.look = (g.get? path).map g.look) ∧
          ∀ path seen,
            (∃ id, s.form.contains id = true ∧ s.form.path? id = some path ∧
                s.form.look id = seen) ↔
              ∃ id, g.contains id = true ∧ g.path? id = some path ∧ g.look id = seen := by
  have htree : s.form.ControlTree m :=
    hs ▸ controlTree_run (sound_start m data c) (Form.controlTree_build hm) hm ops
  have hpath : ∀ {id place}, s.form.place? id = some place →
      s.form.path? id = some (Segment.path place) := fun hplace => by
    rw [Form.path?_eq, hplace]
    rfl
  refine ⟨Form.rootValue_build m data c, fun id value s' hset => ?_,
    fun array index value id s' hinsert => ?_, fun array value id s' hpush => ?_,
    fun array index value s' hremove => ?_, fun c' => ?_⟩
  · obtain ⟨place, hplace, hrest⟩ := replaces_setValue htree hset
    exact ⟨place, hplace, hpath hplace, hrest⟩
  · obtain ⟨place, item, items, hplace, hrest⟩ := replaces_insert htree hm hinsert
    exact ⟨place, item, items, hplace, hpath hplace, hrest⟩
  · obtain ⟨place, item, items, hplace, hrest⟩ := replaces_push htree hm hpush
    exact ⟨place, item, items, hplace, hpath hplace, hrest⟩
  · obtain ⟨place, items, hplace, hrest⟩ := replaces_remove htree hremove
    exact ⟨place, items, hplace, hpath hplace, hrest⟩
  · have halike := alike_build htree hm c'
    exact ⟨halike.rootValue.symm, halike.look_get?, halike.exists_path_iff⟩

/-- The right part of the second row has another number in a form that is built anew, but it is
found by the same path, with the same value. Setting it replaces the value at this path. -/
theorem document_rows :
    let s := (start (.build rowsModel rowsData .standard)).run rowsOps
    let g := Form.build rowsModel s.form.rootValue .standard
    s.form.get? "rows.1.right" = some 12 ∧ g.get? "rows.1.right" = some 9 ∧
      s.form.look 12 = g.look 9 ∧
      ∃ s', s.setValue 12 (.natural 7) = .ok s' ∧ ∃ place,
        s.form.path? 12 = some (Segment.path place) ∧
        s'.form.rootValue = s.form.rootValue.replace place (.natural 7) := by
  have hget : ((start (.build rowsModel rowsData .standard)).run rowsOps).form.get?
      "rows.1.right" = some 12 := by decide +kernel
  have hgetNew : (Form.build rowsModel
      ((start (.build rowsModel rowsData .standard)).run rowsOps).form.rootValue .standard).get?
      "rows.1.right" = some 9 := by decide +kernel
  have hok : (((start (.build rowsModel rowsData .standard)).run rowsOps).setValue 12
      (.natural 7)).isOk = true := by decide +kernel
  obtain ⟨-, hset, -, -, -, halike⟩ :=
    @document_of_run _ rowsModel rowsData .standard rowsOps distinctNames_rowsModel rfl
  refine ⟨hget, hgetNew, ?_, ?_⟩
  · have hlook := (halike .standard).2.1 "rows.1.right"
    rw [hget, hgetNew] at hlook
    exact Option.some.inj hlook
  · cases h : ((start (.build rowsModel rowsData .standard)).run rowsOps).setValue 12
        (.natural 7) with
    | error err =>
        rw [h] at hok
        cases hok
    | ok s' =>
        obtain ⟨place, -, hpath, hvalue, -⟩ := hset 12 (.natural 7) s' h
        exact ⟨s', rfl, place, hpath, hvalue⟩

end ReactiveForm.Session
