import ReactiveForm.Proofs.Form.Calls
import ReactiveForm.Proofs.Session.Attachment
import ReactiveForm.Proofs.Session.ControlTree

/-!
# What is tested when a form is made or edited

Making a form runs all tests of all its controls, and an edit runs the validity tests along the
lineage of the edited control and all tests of the controls that it creates (`Form.Refreshed`). The
tests read the document as it is after the edit, and what else was recorded about a control stays.
The rules are called in a fixed order: first for the new controls from the top down, and then along
the lineage from the inside out (`refreshed_of_edit`).

That a scheduler or an observer is attached makes no difference, as neither of them runs a test
before time passes.
-/

namespace ReactiveForm

namespace Form

/-- A control shows the verdicts of all its tests on the present document, and nothing else was
recorded about it. -/
def Tested (f : Form) (id : ControlId) : Prop :=
  ∃ p, f.property? id = some p ∧ f.state? id = some
    { ControlState.initial with
      syncErrors := (f.verdict id Property.validTests).errors?
      enabled := (f.verdict id Property.editTests).passed
      visible := (f.verdict id Property.viewTests).passed }

/-- What an edit of a control does to the states, and which rules it calls. -/
structure Refreshed (f g : Form) (x : ControlId) (created : List ControlId) : Prop where
  /-- The new controls, each of them once. -/
  nodup : created.Nodup
  mem_created : ∀ id, id ∈ created ↔ g.contains id = true ∧ f.contains id = false
  /-- All tests of the new controls were run. -/
  new : ∀ id ∈ created, g.Tested id
  /-- The validity tests were run along the lineage, and whatever else there was stays. -/
  kept : ∀ id, f.contains id = true → g.contains id = true → ∃ state, f.state? id = some state ∧
    g.state? id = some (if id ∈ g.lineage x then g.validated id state else state)
  /-- The rules were called for the new controls, and then along the lineage. -/
  called : g.called = f.called ++ created.flatMap g.allCalls ++
    (g.lineage x).flatMap fun id => g.calls id Property.validTests

theorem tested_of_edited {f : Form} {id : ControlId} {p : Property} (hp : f.property? id = some p)
    (hstate : f.state? id = some (f.edited id (f.validated id .initial))) : f.Tested id := by
  refine ⟨p, hp, hstate.trans ?_⟩
  rw [validated, hp, edited, hp]

variable {m : Model} {data : Json} {c : Config}

/-! ## New forms -/

/-- The controls of a new form behind the root are a walk through its document. -/
theorem walks_build (m : Model) (data : Json) (c : Config) :
    (build m data c).Walks root ((Shape.object m.properties).entries data)
      (List.range' 1 ((build m data c).slots.size - 1)) := by
  have hdoc := sameDocument_build m data c
  obtain ⟨below, -, hrow⟩ := Shape.laid_block none none root _ data (holds_sprout m data c)
  have hsize : (sprout m data c).slots.size =
      root + ((Shape.object m.properties).block none none root data).length := by
    simp [sprout, append, root]
  rw [hdoc.size, hsize]
  exact hdoc.sameTree.symm.walks hrow.walks

theorem contains_build_iff {id : Nat} :
    (build m data c).contains id = true ↔ id < (build m data c).slots.size := by
  refine ⟨lt_size_of_contains, fun hid => ?_⟩
  have hdoc := sameDocument_build m data c
  rw [hdoc.size] at hid
  rw [hdoc.sameTree.contains, contains, control?_sprout, Option.isSome_iff_ne_none, ne_eq,
    List.getElem?_eq_none_iff, Nat.not_le]
  simpa [sprout, append] using hid

theorem tested_build {id : Nat} {p : Property} (hp : (build m data c).property? id = some p) :
    (build m data c).Tested id := by
  obtain ⟨k, hk, -⟩ := Option.bind_eq_some_iff.1 hp
  have hstate : (build m data c).state? id = some k.state := by rw [state?, hk]; rfl
  exact tested_of_edited hp (hstate.trans (congrArg some (state?_build hstate)))

/-- The tests of a new form are run from the top down. The root has none. -/
theorem called_build (m : Model) (data : Json) (c : Config) :
    (build m data c).called =
      (List.range' 1 ((build m data c).slots.size - 1)).flatMap (build m data c).allCalls := by
  have hdoc := sameDocument_build m data c
  have hsound := soundTree_build m data c
  have hpos : 0 < (build m data c).slots.size := lt_size_of_contains hsound.root_contained
  have hroot : (build m data c).property? root = none := by
    obtain ⟨below, hroot, -⟩ := Shape.laid_block none none root _ data (holds_sprout m data c)
    rw [hdoc.sameTree.property?, property?, hroot]
    rfl
  have hids : (sprout m data c).idsFrom root =
      root :: List.range' 1 ((build m data c).slots.size - 1) := by
    have hfirst : root ≤ (sprout m data c).slots.size := Nat.zero_le _
    obtain ⟨n, hn⟩ : ∃ n, (build m data c).slots.size = n + 1 :=
      ⟨_, (Nat.succ_pred_eq_of_pos hpos).symm⟩
    rw [idsFrom_eq_range' _ hfirst, ← hdoc.size, hn]
    exact List.range'_succ
  have hcalled : (build m data c).called =
      (root :: List.range' 1 ((build m data c).slots.size - 1)).flatMap
        (build m data c).allCalls := by
    rw [← hids, hdoc.allCalls]
    exact called_refreshNew _ _
  rw [hcalled, List.flatMap_cons, allCalls_of_property?_eq_none hroot, List.nil_append]

end Form

namespace Session

variable {m : Model} {data : Json} {c : Config} {s s' : Session} {x : ControlId}

/-! ## Edits -/

/-- An edit tests the controls that it creates and the lineage of its target. -/
theorem Edited.refreshed (h : s.Edited x s') (hf : s.form.ParentsBefore) {created : List ControlId}
    (hnodup : created.Nodup)
    (hcreated : ∀ id, id ∈ created ↔ s'.form.contains id = true ∧ s.form.contains id = false)
    (hproperty : ∀ id ∈ created, ∃ p, s'.form.property? id = some p)
    (hcalled : s'.form.called = s.form.called ++ created.flatMap s'.form.allCalls ++
      (s'.form.lineage x).flatMap fun id => s'.form.calls id Property.validTests) :
    Form.Refreshed s.form s'.form x created where
  nodup := hnodup
  mem_created := hcreated
  new id hid := by
    obtain ⟨hnew, hold⟩ := (hcreated id).1 hid
    obtain ⟨p, hp⟩ := hproperty id hid
    obtain ⟨state, hstate⟩ := Option.isSome_iff_exists.1 ((Form.isSome_state? ..).trans hnew)
    rcases h.retests hf id state hstate with ⟨before, hbefore, -⟩ | ⟨-, rfl⟩
    · rw [← Form.isSome_state?, hbefore] at hold
      cases hold
    · exact Form.tested_of_edited hp hstate
  kept id hold hnew := by
    obtain ⟨state, hstate⟩ := Option.isSome_iff_exists.1 ((Form.isSome_state? ..).trans hnew)
    rcases h.retests hf id state hstate with ⟨before, hbefore, rfl⟩ | ⟨hnone, -⟩
    · exact ⟨before, hbefore, hstate⟩
    · rw [← Form.isSome_state?, hnone] at hold
      cases hold
  called := hcalled

/-- A field that gets a new value creates no control. -/
theorem refreshed_setValue (hf : s.form.ParentsBefore) {v : Json}
    (h : s.setValue x v = .ok s') : Form.Refreshed s.form s'.form x [] := by
  obtain ⟨f, hset, rfl⟩ := setValue_eq_ok h
  refine (Edited.set hset).refreshed hf .nil (fun id => ?_) nofun ?_
  · have hsame : (s.withForm f).form.contains id = s.form.contains id :=
      (Form.sameTree_setValue hset).contains id
    rw [hsame]
    simp
  · rw [List.flatMap_nil, List.append_nil]
    exact Form.called_setValue hset

/-- The controls of a new item are a walk through its value. -/
theorem refreshed_insert (hf : s.form.ParentsBefore) {index : Nat} {v : Json} {id : ControlId}
    (h : s.insert x index v = .ok (id, s')) :
    ∃ item created, s.form.template? x = some item ∧ created.head? = some id ∧
      s'.form.Walks x [(item, v)] created ∧ Form.Refreshed s.form s'.form x created := by
  obtain ⟨items, item, hitems, hitem, -, rfl, rfl⟩ := insert_eq_ok h
  have hlive := Form.contains_of_items? hitems
  have hlt := Form.lt_size_of_contains hlive
  have htree := sameTree_perform_growth s x items index item v
  have hsize := Form.size_grown s.form x items index item v
  have hrow : (s.form.grown x items index item v).Laid x s.form.slots.size [(item, v)]
      [s.form.slots.size] (s.form.endOfItem x item v) := Form.laid_grown hlt
  have hfirst := hrow.mem_range (List.mem_singleton_self _)
  have hwalk := htree.walks hrow.walks
  have hids : (s.form.grown x items index item v).idsFrom s.form.slots.size =
      List.range' s.form.slots.size (s.form.endOfItem x item v - s.form.slots.size) := by
    rw [Form.idsFrom_eq_range' _ (hsize ▸ Nat.le_add_right _ _), hsize]
  refine ⟨item, _, hitem, ?_, hwalk, ?_⟩
  · rw [List.head?_range', if_neg (by omega)]
  · refine (Edited.perform (.inserted items index item v hlive)).refreshed hf List.nodup_range'
      (fun id => ?_) hwalk.exists_property? (hids ▸ Form.called_growth s.form x items index item v)
    rw [← htree.contains, Form.contains_grown_iff hlt, List.mem_range'_1,
      Nat.add_sub_cancel' (Nat.le_of_lt hfirst.2)]
    refine ⟨fun hnew => ⟨.inr hnew, ?_⟩, fun ⟨hnew, hold⟩ => hnew.resolve_left fun h => ?_⟩
    · exact Bool.eq_false_iff.2 fun h => absurd (Form.lt_size_of_contains h) (by omega)
    · rw [hold] at h
      cases h

/-- An item that is taken out leaves no new control behind. -/
theorem refreshed_remove (hf : s.form.ParentsBefore) {index : Nat} {v : Json}
    (h : s.remove x index = .ok (v, s')) : Form.Refreshed s.form s'.form x [] := by
  obtain ⟨items, gone, hitems, -, -, rfl⟩ := remove_eq_ok h
  have hlive := Form.contains_of_items? hitems
  have htree := sameTree_perform_shrinkage s x items index gone
  have hedited := Edited.perform (.removed items index gone hlive)
  refine hedited.refreshed hf .nil (fun id => ?_) nofun ?_
  · refine ⟨nofun, fun ⟨hnew, hold⟩ => ?_⟩
    rw [← htree.contains] at hnew
    obtain ⟨k, hk⟩ := Option.isSome_iff_exists.1 hnew
    obtain ⟨before, hbefore, -⟩ := Form.control?_shrunk hk
    rw [Form.contains, hbefore] at hold
    cases hold
  · rw [List.flatMap_nil, List.append_nil]
    exact Form.called_shrinkage s.form x items index gone

/-- Making a form runs all tests of all controls on the whole document, from the top down. In every
session an edit that succeeds runs all tests of the controls that it creates, from the top down, and
then the validity tests of the edited control and those above it, from the inside out, all of them
on the document after the edit. Whatever else was recorded about a control stays. -/
theorem refreshed_of_edit (m : Model) (data : Json) (c : Config) :
    (∃ walk, (Form.build m data c).Walks Form.root ((Shape.object m.properties).entries data) walk ∧
      (∀ id : Nat, (Form.build m data c).contains id = true ↔ id = 0 ∨ id ∈ walk) ∧
      (∀ id p, (Form.build m data c).property? id = some p → (Form.build m data c).Tested id) ∧
      (Form.build m data c).called = walk.flatMap (Form.build m data c).allCalls) ∧
    ∀ ops s, (start (.build m data c)).run ops = s → ∀ x s',
      (∀ v, s.setValue x v = .ok s' → Form.Refreshed s.form s'.form x []) ∧
      (∀ index v id, s.insert x index v = .ok (id, s') ∨ s.push x v = .ok (id, s') →
        ∃ item created, s.form.template? x = some item ∧ created.head? = some id ∧
          s'.form.Walks x [(item, v)] created ∧ Form.Refreshed s.form s'.form x created) ∧
      (∀ index v, s.remove x index = .ok (v, s') → Form.Refreshed s.form s'.form x []) := by
  refine ⟨⟨_, Form.walks_build m data c, fun id => ?_, fun _ _ => Form.tested_build,
    Form.called_build m data c⟩, ?_⟩
  · rw [Form.contains_build_iff, List.mem_range'_1]
    have hpos : 0 < (Form.build m data c).slots.size :=
      Form.lt_size_of_contains (Form.soundTree_build m data c).root_contained
    omega
  · rintro ops s rfl x s'
    have hf := parentsBefore_run (sound_start m data c) (Form.parentsBefore_build m data c) ops
    refine ⟨fun v => refreshed_setValue hf, fun index v id h => ?_, fun index v =>
      refreshed_remove hf⟩
    rcases h with h | h
    · exact refreshed_insert hf h
    · obtain ⟨items, -, hinsert⟩ := push_eq_ok h
      exact refreshed_insert hf hinsert

/-- A list whose rows have a cell, with a number beside it. The list, its rows and their cells have
tests of all kinds, and they pass as long as the number is one. -/
def testedRows : Model :=
  let tested (p : Property) : Property :=
    { p with
      validTests := [pairTest (some otherIsOne) none]
      editTests := [pairTest (some otherIsOne) none]
      viewTests := [pairTest (some otherIsOne) none] }
  let cell := tested { Property.template with name := some "cell" }
  let row := tested { Property.template with shape := .object [cell] }
  let list := tested { Property.template with name := some "rows", shape := .array row }
  ⟨"rows", [{ Property.template with name := some "b" }, list], none⟩

/-- An empty list. -/
def emptyRows : Json := .object [("b", .natural 1), ("rows", .array [])]

/-- A row is put into the list after the number has become two: three tests are run for the row and
for its cell, and one for the list. -/
theorem refreshed_testedRows :
    ∃ s id s', (start (.build testedRows emptyRows .standard)).run [.setValue 1 (.natural 2)] = s ∧
      s.insert 2 0 (.object [("cell", .null)]) = .ok (id, s') ∧
      s'.form.called.length = s.form.called.length + 7 ∧
      ∃ item created, s.form.template? 2 = some item ∧ created.head? = some id ∧
        s'.form.Walks 2 [(item, .object [("cell", .null)])] created ∧
        Form.Refreshed s.form s'.form 2 created := by
  have hrun : (((start (.build testedRows emptyRows .standard)).run
      [.setValue 1 (.natural 2)]).insert 2 0 (.object [("cell", .null)])).toOption.any (fun r =>
        r.2.form.called.length = ((start (.build testedRows emptyRows .standard)).run
          [.setValue 1 (.natural 2)]).form.called.length + 7) = true := by decide +kernel
  cases hinsert : ((start (.build testedRows emptyRows .standard)).run
      [.setValue 1 (.natural 2)]).insert 2 0 (.object [("cell", .null)]) with
  | error => rw [hinsert] at hrun; cases hrun
  | ok done =>
      rw [hinsert] at hrun
      exact ⟨_, _, _, rfl, hinsert, of_decide_eq_true hrun,
        ((@refreshed_of_edit testedRows emptyRows .standard).2 _ _ rfl 2 _).2.1 0 _ _
          (.inl hinsert)⟩

end Session

end ReactiveForm
