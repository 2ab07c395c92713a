import ReactiveForm.Proofs.Form.Value

/-!
# Runs of tests change states only

Recording an outcome changes the state of one control and nothing else of the document. For each
operation there is one statement about the document (`SameDocument`) and one about the states
(`state?_…`), which says what the operation does to the state of the control it is about and that
all other states stay.

What a run of tests records is a verdict: the results of the tests on the values that the form has
at that moment.
-/

namespace ReactiveForm.Form

variable {f g : Form} {id other : ControlId}

/-! ## Changing a control -/

theorem control?_modify (f : Form) (id : ControlId) (change : Control → Control)
    (other : ControlId) :
    (f.modify id change).control? other =
      if other = id then (f.control? other).map change else f.control? other := by
  simp only [control?, modify, Array.getElem?_modify, eq_comm (a := id)]
  split
  · cases f.slots[other]? <;> rfl
  · rfl

theorem changes?_modify (f : Form) (id : ControlId) (change : Control → Control)
    (other : ControlId) : (f.modify id change).changes? other = f.changes? other := by
  simp only [changes?, modify, Array.getElem?_modify]
  split
  · cases f.slots[other]? <;> rfl
  · rfl

theorem sameDocument_modifyState (f : Form) (id : ControlId)
    (change : ControlState → ControlState) : SameDocument (f.modifyState id change) f where
  defaults := rfl
  size := by simp [modifyState, modify]
  content other := by
    rw [modifyState, control?_modify]
    split
    · rw [Option.map_map]
      rfl
    · rfl
  changes other := changes?_modify f id _ other

theorem state?_modifyState (f : Form) (id : ControlId) (change : ControlState → ControlState)
    (other : ControlId) :
    (f.modifyState id change).state? other =
      if other = id then (f.state? other).map change else f.state? other := by
  simp only [state?, modifyState, control?_modify]
  split
  · rw [Option.map_map, Option.map_map]
    rfl
  · rfl

/-- The record of called rules is no part of the document. -/
theorem sameDocument_called (f : Form) (called : List Rule) :
    SameDocument { f with called } f := ⟨rfl, rfl, fun _ => rfl, fun _ => rfl⟩

/-! ## Verdicts -/

/-- The tests of a control of one kind. The root has none. -/
def testsOf (f : Form) (id : ControlId) (tests : Property → List Test) : List Test :=
  ((f.property? id).map tests).getD []

/-- The results of tests of a control by their checks on the current values. -/
def verdict (f : Form) (id : ControlId) (tests : Property → List Test) : TestResults :=
  (TestResults.runChecks (f.value id) f.rootValue (f.testsOf id tests)).results

theorem SameTree.testsOf (t : SameTree f g) (id : ControlId) (tests : Property → List Test) :
    f.testsOf id tests = g.testsOf id tests := by
  rw [Form.testsOf, Form.testsOf, t.property? id]

/-- Forms with the same tree and the same values come to the same verdicts. -/
theorem SameTree.verdict (t : SameTree f g) (hvalue : ∀ id, f.value id = g.value id)
    (id : ControlId) (tests : Property → List Test) : f.verdict id tests = g.verdict id tests := by
  rw [Form.verdict, Form.verdict, hvalue id, Form.rootValue, hvalue root, ← Form.rootValue,
    t.testsOf]

theorem SameDocument.verdict (d : SameDocument f g) (id : ControlId)
    (tests : Property → List Test) : f.verdict id tests = g.verdict id tests :=
  d.sameTree.verdict d.value id tests

theorem testsOf_of_property?_eq_none (tests : Property → List Test)
    (hnone : f.property? id = none) : f.testsOf id tests = [] := by
  simp [testsOf, hnone]

/-- A control without tests has no failures. -/
theorem verdict_of_property?_eq_none (tests : Property → List Test)
    (hnone : f.property? id = none) : f.verdict id tests = ⟨[]⟩ := by
  rw [verdict, testsOf_of_property?_eq_none tests hnone]
  rfl

theorem runChecks_of_some {p : Property} (tests : Property → List Test)
    (hp : f.property? id = some p) :
    ∃ called, f.runChecks id tests = (some (f.verdict id tests), { f with called }) := by
  simp only [runChecks, hp, verdict, testsOf, Option.map_some, Option.getD_some]
  exact ⟨_, rfl⟩

theorem runChecks_of_none (tests : Property → List Test) (hp : f.property? id = none) :
    f.runChecks id tests = (none, f) := by
  simp [runChecks, hp]

/-! ## Validity -/

/-- The state of a control after a run of its validity tests. -/
def validated (f : Form) (id : ControlId) (s : ControlState) : ControlState :=
  match f.property? id with
  | none => s
  | some _ => { s with syncErrors := (f.verdict id Property.validTests).errors? }

theorem sameDocument_refreshValidity (f : Form) (id : ControlId) :
    SameDocument (f.refreshValidity id).2 f := by
  unfold refreshValidity
  cases hp : f.property? id with
  | none =>
      rw [runChecks_of_none _ hp]
      exact .refl f
  | some p =>
      obtain ⟨called, hrun⟩ := runChecks_of_some Property.validTests hp
      rw [hrun]
      dsimp only [applyValidity, applyVisibility]
      exact (sameDocument_modifyState _ id _).trans (sameDocument_called f called)

theorem state?_refreshValidity (f : Form) (id other : ControlId) :
    (f.refreshValidity id).2.state? other =
      if other = id then (f.state? other).map (f.validated id) else f.state? other := by
  unfold refreshValidity validated
  cases hp : f.property? id with
  | none =>
      rw [runChecks_of_none _ hp]
      simp
  | some p =>
      obtain ⟨called, hrun⟩ := runChecks_of_some Property.validTests hp
      rw [hrun]
      exact state?_modifyState { f with called } id _ other

theorem SameTree.validated (t : SameTree f g) (hvalue : ∀ id, f.value id = g.value id)
    (id : ControlId) : f.validated id = g.validated id := by
  funext s
  rw [Form.validated, Form.validated, t.property?, t.verdict hvalue]

theorem SameDocument.validated (d : SameDocument f g) (id : ControlId) :
    f.validated id = g.validated id := d.sameTree.validated d.value id

theorem validated_validated (f : Form) (id : ControlId) (s : ControlState) :
    f.validated id (f.validated id s) = f.validated id s := by
  unfold validated
  cases f.property? id <;> rfl

theorem sameDocument_refreshLineage (f : Form) (ids : List ControlId) :
    SameDocument (f.refreshLineage ids) f := by
  induction ids generalizing f with
  | nil => exact .refl f
  | cons id ids ih => exact (ih _).trans (sameDocument_refreshValidity f id)

/-- Running the validity tests of several controls records the verdict of each of them. -/
theorem state?_refreshLineage (f : Form) (ids : List ControlId) (other : ControlId) :
    (f.refreshLineage ids).state? other =
      if other ∈ ids then (f.state? other).map (f.validated other) else f.state? other := by
  induction ids generalizing f with
  | nil => rfl
  | cons id ids ih =>
      have hdoc := sameDocument_refreshValidity f id
      have hstep : f.refreshLineage (id :: ids) = (f.refreshValidity id).2.refreshLineage ids :=
        rfl
      rw [hstep, ih, state?_refreshValidity, hdoc.validated]
      -- a control that is named twice is validated twice, which is the same as once
      by_cases heq : other = id
      · subst heq
        simp [Option.map_map, Function.comp_def, validated_validated]
      · simp [heq]

/-! ## Editability and visibility -/

/-- The state of a control after a run of its tests of editability and visibility. -/
def edited (f : Form) (id : ControlId) (s : ControlState) : ControlState :=
  match f.property? id with
  | none => s
  | some _ =>
    { s with
      enabled := (f.verdict id Property.editTests).passed
      visible := (f.verdict id Property.viewTests).passed }

theorem sameDocument_refreshVisibility (f : Form) (id : ControlId) :
    SameDocument (f.refreshVisibility id) f := by
  unfold refreshVisibility
  cases hp : f.property? id with
  | none =>
      rw [runChecks_of_none _ hp]
      exact .refl f
  | some p =>
      obtain ⟨called, hrun⟩ := runChecks_of_some Property.viewTests hp
      rw [hrun]
      dsimp only [applyValidity, applyVisibility]
      exact (sameDocument_modifyState _ id _).trans (sameDocument_called f called)

theorem sameDocument_applyEditability (f : Form) (id : ControlId) (enabled : Bool) :
    SameDocument (f.applyEditability id enabled).2 f := by
  dsimp only [applyEditability]
  exact sameDocument_modifyState f id _

theorem sameDocument_refreshEditability (f : Form) (id : ControlId) :
    SameDocument (f.refreshEditability id).2 f := by
  unfold refreshEditability
  cases hp : f.property? id with
  | none =>
      rw [runChecks_of_none _ hp]
      exact sameDocument_refreshVisibility f id
  | some p =>
      obtain ⟨called, hrun⟩ := runChecks_of_some Property.editTests hp
      rw [hrun]
      exact (sameDocument_refreshVisibility _ id).trans
        ((sameDocument_applyEditability _ id _).trans (sameDocument_called f called))

private theorem state?_refreshVisibility {p : Property} (hp : f.property? id = some p)
    (other : ControlId) :
    (f.refreshVisibility id).state? other =
      if other = id then
        (f.state? other).map fun s =>
          { s with visible := (f.verdict id Property.viewTests).passed }
      else f.state? other := by
  unfold refreshVisibility
  obtain ⟨called, hrun⟩ := runChecks_of_some Property.viewTests hp
  rw [hrun]
  exact state?_modifyState { f with called } id _ other

theorem state?_refreshEditability (f : Form) (id other : ControlId) :
    (f.refreshEditability id).2.state? other =
      if other = id then (f.state? other).map (f.edited id) else f.state? other := by
  unfold refreshEditability edited
  cases hp : f.property? id with
  | none =>
      rw [runChecks_of_none _ hp]
      simp [refreshVisibility, runChecks_of_none _ hp]
  | some p =>
      obtain ⟨called, hrun⟩ := runChecks_of_some Property.editTests hp
      rw [hrun]
      -- the tests of visibility run on the same document as those of editability
      have hdoc : SameDocument
          (applyEditability { f with called } id (f.verdict id Property.editTests).passed).2 f :=
        (sameDocument_applyEditability _ id _).trans (sameDocument_called f called)
      have hp' := (hdoc.sameTree.property? id).trans hp
      dsimp only
      rw [state?_refreshVisibility hp', hdoc.verdict]
      simp only [applyEditability, state?_modifyState]
      split
      · rw [Option.map_map]
        rfl
      · rfl

/-! ## All tests -/

theorem SameTree.edited (t : SameTree f g) (hvalue : ∀ id, f.value id = g.value id)
    (id : ControlId) : f.edited id = g.edited id := by
  funext s
  rw [Form.edited, Form.edited, t.property?, t.verdict hvalue, t.verdict hvalue]

theorem SameDocument.edited (d : SameDocument f g) (id : ControlId) :
    f.edited id = g.edited id := d.sameTree.edited d.value id

theorem edited_validated_edited_validated (f : Form) (id : ControlId) (s : ControlState) :
    f.edited id (f.validated id (f.edited id (f.validated id s))) =
      f.edited id (f.validated id s) := by
  unfold edited validated
  cases f.property? id <;> rfl

theorem sameDocument_refreshNew (f : Form) (ids : List ControlId) :
    SameDocument (f.refreshNew ids) f := by
  induction ids generalizing f with
  | nil => exact .refl f
  | cons id ids ih =>
      exact (ih _).trans
        ((sameDocument_refreshEditability _ id).trans (sameDocument_refreshValidity f id))

/-- Running all tests of several controls records the verdicts of each of them. -/
theorem state?_refreshNew (f : Form) (ids : List ControlId) (other : ControlId) :
    (f.refreshNew ids).state? other =
      if other ∈ ids then (f.state? other).map fun s => f.edited other (f.validated other s)
      else f.state? other := by
  induction ids generalizing f with
  | nil => rfl
  | cons id ids ih =>
      have hvalid := sameDocument_refreshValidity f id
      have hdoc := (sameDocument_refreshEditability _ id).trans hvalid
      have hstep : f.refreshNew (id :: ids)
        = ((f.refreshValidity id).2.refreshEditability id).2.refreshNew ids := rfl
      rw [hstep, ih, state?_refreshEditability, state?_refreshValidity, hdoc.validated,
        hdoc.edited, hvalid.edited]
      by_cases heq : other = id
      · subst heq
        simp [Option.map_map, Function.comp_def, edited_validated_edited_validated]
      · simp [heq]

end ReactiveForm.Form
