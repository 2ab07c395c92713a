import ReactiveForm.Proofs.Form.Grafts

/-!
# Which rules are called, and in which order

A form records the rules whose checks it calls. A run of tests adds those that the tests call on the
values of that moment (`Form.calls`), and it leaves these values. So what a pass over several
controls adds can be read off the document after it: the calls for one control after those for the
other (`called_refreshNew`, `called_refreshLineage`).

New controls are tested in the order of a walk from the top down, in which the parts of an object
come as they were declared and the items of an array by their index (`Walks`). A name that several
parts have makes no difference to that: each of the parts has a control, even if only one of them is
found.
-/

namespace ReactiveForm

namespace Form

variable {f g : Form} {id array : Nat}

/-! ## Calls for one control -/

/-- The rules that the tests of a control of one kind call on the current values, in order. -/
def calls (f : Form) (id : ControlId) (tests : Property → List Test) : List Rule :=
  (TestResults.runChecks (f.value id) f.rootValue (f.testsOf id tests)).called

/-- The rules that all tests of a control call on the current values: first those of validity, then
those of editability, and then those of visibility. -/
def allCalls (f : Form) (id : ControlId) : List Rule :=
  f.calls id Property.validTests ++ f.calls id Property.editTests ++ f.calls id Property.viewTests

theorem SameTree.calls (t : SameTree f g) (hvalue : ∀ id, f.value id = g.value id) :
    f.calls = g.calls := by
  funext id tests
  rw [Form.calls, Form.calls, hvalue id, Form.rootValue, hvalue root, ← Form.rootValue, t.testsOf]

theorem SameDocument.calls (d : SameDocument f g) : f.calls = g.calls := d.sameTree.calls d.value

theorem SameDocument.allCalls (d : SameDocument f g) : f.allCalls = g.allCalls := by
  funext id
  rw [Form.allCalls, Form.allCalls, d.calls]

theorem calls_of_property?_eq_none (tests : Property → List Test) (hnone : f.property? id = none) :
    f.calls id tests = [] := by
  rw [calls, testsOf_of_property?_eq_none tests hnone]
  rfl

theorem allCalls_of_property?_eq_none (hnone : f.property? id = none) : f.allCalls id = [] := by
  simp only [allCalls, calls_of_property?_eq_none _ hnone, List.append_nil]

/-! ## Runs of tests -/

theorem called_runChecks (f : Form) (id : ControlId) (tests : Property → List Test) :
    (f.runChecks id tests).2.called = f.called ++ f.calls id tests := by
  cases hp : f.property? id with
  | none => rw [runChecks_of_none _ hp, calls_of_property?_eq_none _ hp, List.append_nil]
  | some p => simp only [runChecks, hp, calls, testsOf, Option.map_some, Option.getD_some]

theorem sameDocument_runChecks (f : Form) (id : ControlId) (tests : Property → List Test) :
    SameDocument (f.runChecks id tests).2 f := by
  cases hp : f.property? id with
  | none => rw [runChecks_of_none _ hp]; exact .refl f
  | some p =>
      obtain ⟨called, hrun⟩ := runChecks_of_some tests hp
      rw [hrun]
      exact sameDocument_called f called

theorem called_refreshValidity (f : Form) (id : ControlId) :
    (f.refreshValidity id).2.called = f.called ++ f.calls id Property.validTests := by
  rw [← called_runChecks, refreshValidity]
  split
  · next hrun => rw [hrun]; rfl
  · next hrun => rw [hrun]

theorem called_refreshVisibility (f : Form) (id : ControlId) :
    (f.refreshVisibility id).called = f.called ++ f.calls id Property.viewTests := by
  rw [← called_runChecks, refreshVisibility]
  split
  · next hrun => rw [hrun]; rfl
  · next hrun => rw [hrun]

theorem called_refreshEditability (f : Form) (id : ControlId) :
    (f.refreshEditability id).2.called =
      f.called ++ f.calls id Property.editTests ++ f.calls id Property.viewTests := by
  have hdoc := sameDocument_runChecks f id Property.editTests
  rw [← called_runChecks, refreshEditability]
  split
  · next results h hrun =>
      rw [hrun] at hdoc ⊢
      have happly := (sameDocument_applyEditability h id results.passed).trans hdoc
      exact (called_refreshVisibility _ id).trans (by rw [happly.calls]; rfl)
  · next h hrun =>
      rw [hrun] at hdoc ⊢
      exact (called_refreshVisibility _ id).trans (by rw [hdoc.calls])

/-- Running all tests of several controls calls the rules of one control after the other. -/
theorem called_refreshNew (f : Form) (ids : List ControlId) :
    (f.refreshNew ids).called = f.called ++ ids.flatMap f.allCalls := by
  induction ids generalizing f with
  | nil => exact (List.append_nil _).symm
  | cons id ids ih =>
      have hvalid := sameDocument_refreshValidity f id
      have hdoc := (sameDocument_refreshEditability _ id).trans hvalid
      have hstep : f.refreshNew (id :: ids)
        = ((f.refreshValidity id).2.refreshEditability id).2.refreshNew ids := rfl
      rw [hstep, ih, hdoc.allCalls, called_refreshEditability, called_refreshValidity,
        hvalid.calls, List.flatMap_cons]
      simp only [allCalls, List.append_assoc]

/-- Running the validity tests of several controls calls the rules of one control after the
other. -/
theorem called_refreshLineage (f : Form) (ids : List ControlId) :
    (f.refreshLineage ids).called =
      f.called ++ ids.flatMap fun id => f.calls id Property.validTests := by
  induction ids generalizing f with
  | nil => exact (List.append_nil _).symm
  | cons id ids ih =>
      have hstep : f.refreshLineage (id :: ids) = (f.refreshValidity id).2.refreshLineage ids :=
        rfl
      rw [hstep, ih, (sameDocument_refreshValidity f id).calls, called_refreshValidity,
        List.flatMap_cons, List.append_assoc]

/-! ## Edits -/

/-- A field that gets a new value is validated on it, and then its ancestors are. -/
theorem called_setValue {v : Json} (hset : f.setValue id v = .ok g) :
    g.called = f.called ++ (g.lineage id).flatMap fun x => g.calls x Property.validTests := by
  rw [(sameTree_setValue hset).lineage]
  obtain ⟨-, rfl⟩ := setValue_eq_ok hset
  have hpublish := (sameTree_publish ((f.stored id v).refreshLineage (f.lineage id))
    (f.lineage id)).calls (value_publish _ _)
  rw [hpublish, (sameDocument_refreshLineage _ _).calls]
  exact called_refreshLineage _ _

/-- Publishing a structure edit calls no rule and leaves what the tests read. -/
theorem calls_edit_publish (e : Edit) : e.publish.calls = e.form.calls :=
  (sameTree_edit_publish e).calls (value_edit_publish e)

theorem allCalls_edit_publish (e : Edit) : e.publish.allCalls = e.form.allCalls := by
  funext id
  rw [allCalls, allCalls, calls_edit_publish]

/-- A new item is tested from the top down, and then the array and its ancestors are validated. -/
theorem called_growth (f : Form) (array : ControlId) (items : List ControlId) (index : Nat)
    (item : Property) (value : Json) :
    let e := f.growth array items index item value
    e.publish.called = f.called ++
      ((f.grown array items index item value).idsFrom f.slots.size).flatMap e.publish.allCalls ++
        (e.publish.lineage array).flatMap fun x => e.publish.calls x Property.validTests := by
  intro e
  have hdoc : SameDocument e.form (f.grown array items index item value) :=
    sameDocument_growth f array items index item value
  rw [(sameTree_edit_publish e).lineage, hdoc.sameTree.lineage, allCalls_edit_publish,
    calls_edit_publish, hdoc.allCalls, hdoc.calls,
    ← (sameDocument_refreshNew _ ((f.grown array items index item value).idsFrom
      f.slots.size)).calls]
  refine (called_refreshLineage _ _).trans ?_
  rw [called_refreshNew]
  rfl

/-- Without an item the array and its ancestors are validated. -/
theorem called_shrinkage (f : Form) (array : ControlId) (items : List ControlId) (index : Nat)
    (gone : ControlId) :
    let e := f.shrinkage array items index gone
    e.publish.called = f.called ++
      (e.publish.lineage array).flatMap fun x => e.publish.calls x Property.validTests := by
  intro e
  have hdoc : SameDocument e.form (f.shrunk array items index gone) :=
    sameDocument_shrinkage f array items index gone
  rw [(sameTree_edit_publish e).lineage, hdoc.sameTree.lineage, calls_edit_publish, hdoc.calls]
  exact called_refreshLineage _ _

/-! ## Walks -/

/-- A walk from the top down through the controls for some entries of a document, which lie directly
below a control: the control of an entry is described by its property and is followed by everything
below itself. -/
inductive Walks (f : Form) : (parent : ControlId) → List (Property × Json) → List ControlId →
    Prop where
  | nil (parent : ControlId) : Walks f parent [] []
  | cons {parent id : ControlId} {p : Property} {data : Json} {entries : List (Property × Json)}
      {below rest : List ControlId} (hproperty : f.property? id = some p)
      (hparent : f.parent? id = some parent) (hbelow : Walks f id (p.shape.entries data) below)
      (hrest : Walks f parent entries rest) :
      Walks f parent ((p, data) :: entries) (id :: (below ++ rest))

theorem SameTree.walks (t : SameTree f g) {parent : ControlId} {entries : List (Property × Json)}
    {walk : List ControlId} (h : f.Walks parent entries walk) : g.Walks parent entries walk := by
  induction h with
  | nil parent => exact .nil parent
  | cons hproperty hparent _ _ ihbelow ihrest =>
      exact .cons ((t.property? _).symm.trans hproperty) ((t.parent? _).symm.trans hparent) ihbelow
        ihrest

/-- Every control of a walk is described by a property. -/
theorem Walks.exists_property? {parent : ControlId} {entries : List (Property × Json)}
    {walk : List ControlId} (h : f.Walks parent entries walk) :
    ∀ id ∈ walk, ∃ p, f.property? id = some p := by
  induction h with
  | nil => exact nofun
  | cons hproperty _ _ _ ihbelow ihrest =>
      exact List.forall_mem_cons.2 ⟨⟨_, hproperty⟩, List.forall_mem_append.2 ⟨ihbelow, ihrest⟩⟩

/-- The numbers of a row are a walk. -/
theorem Laid.walks {parent first stop : Nat} {entries : List (Property × Json)} {ids : List Nat}
    (h : f.Laid parent first entries ids stop) :
    f.Walks parent entries (List.range' first (stop - first)) := by
  induction h with
  | nil =>
      rw [Nat.sub_self]
      exact .nil _
  | @cons parent first middle stop p data below ids entries hcontrol hbelow hrest ihbelow ihrest =>
      rw [hbelow.range'_eq hrest.le]
      refine .cons ?_ ?_ ihbelow ihrest
      · rw [Form.property?, hcontrol]; rfl
      · rw [Form.parent?, hcontrol]; rfl

/-- The numbers from a given one on are those of the controls behind it. -/
theorem idsFrom_eq_range' (f : Form) {first : Nat} (hfirst : first ≤ f.slots.size) :
    f.idsFrom first = List.range' first (f.slots.size - first) := by
  obtain ⟨k, hk⟩ : ∃ k, f.slots.size = first + k := ⟨f.slots.size - first, by omega⟩
  have hbefore : (List.range first).filter (fun id => decide (first ≤ id)) = [] :=
    List.filter_eq_nil_iff.2 fun id hid => by simpa using List.mem_range.1 hid
  have hbehind : ((List.range k).map (first + ·)).filter (fun id => decide (first ≤ id)) =
      (List.range k).map (first + ·) :=
    List.filter_eq_self.2 fun id hid => by
      obtain ⟨i, -, rfl⟩ := List.mem_map.1 hid
      simp
  rw [idsFrom, hk, Nat.add_sub_cancel_left, List.range_add, List.filter_append, hbefore, hbehind,
    List.nil_append, List.range'_eq_map_range]

end Form

end ReactiveForm
