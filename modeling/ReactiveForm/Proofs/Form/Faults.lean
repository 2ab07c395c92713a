import ReactiveForm.Proofs.Form.Grafts

/-!
# When edits of a form fail

An edit fails if there is no control of the given number, if the control is of the wrong kind, or if
an index is out of bounds, and in no other case. For arrays this needs that every control with items
also has a template that describes them (`Templated`). Forms are built that way, and edits keep it,
whatever the names of the properties are.
-/

namespace ReactiveForm.Form

variable {f g : Form} {m : Model} {id array : Nat} {index : Nat} {value : Json} {err : FormError}
  {c : Control}

/-! ## Arrays have templates -/

/-- Every control with items has a template for them. -/
def Templated (f : Form) : Prop :=
  ∀ id items, f.items? id = some items → ∃ item, f.template? id = some item

theorem template?_of_control? (hc : f.control? id = some c) :
    f.template? id = c.property.bind Property.item? := by
  rw [template?, property?, hc]
  rfl

theorem SameTree.templated (t : SameTree f g) (h : f.Templated) : g.Templated := by
  intro id items hitems
  obtain ⟨d, hd, hchildren⟩ := items?_eq_some.1 hitems
  obtain ⟨c, hc, hlinks⟩ := t.symm.exists_control hd
  obtain ⟨item, hitem⟩ := h id items (items?_eq_some.2 ⟨c, hc, hlinks.children.trans hchildren⟩)
  exact ⟨item, by rw [template?, ← t.property?]; exact hitem⟩

/-- A control whose children were arranged by its shape has items only if it has a template. -/
theorem Heads.exists_template? {items : List Nat} (h : f.Heads m id c)
    (hc : f.control? id = some c) (hchildren : c.children = .indexed items) :
    ∃ item, f.template? id = some item := by
  obtain ⟨data, below, stop, harranged, -⟩ := h
  rw [hchildren] at harranged
  cases hproperty : c.property with
  | none =>
      rw [Control.shape, hproperty] at harranged
      cases harranged
  | some p =>
      have hshape : c.shape m = p.shape := by rw [Control.shape, hproperty]; rfl
      rw [hshape] at harranged
      rw [template?_of_control? hc, hproperty, Option.bind_some, Property.item?]
      cases hp : p.shape with
      | array item => exact ⟨item, rfl⟩
      | _ =>
          rw [hp] at harranged
          cases harranged

theorem templated_build (m : Model) (data : Json) (config : Config) :
    (build m data config).Templated := by
  refine (sameDocument_build m data config).sameTree.symm.templated fun id items hitems => ?_
  obtain ⟨c, hc, hchildren⟩ := items?_eq_some.1 hitems
  obtain ⟨below, hroot, hrow⟩ :=
    Shape.laid_block none none root _ data (holds_sprout m data config)
  rcases Nat.eq_zero_or_pos id with rfl | hpos
  · cases hroot.symm.trans hc
    cases hchildren
  · have hheads : (sprout m data config).Heads m id c :=
      hrow.heads hc hpos (lt_of_control?_sprout hc)
    exact hheads.exists_template? hc hchildren

theorem Templated.grown {items : List Nat} {item : Property} (h : f.Templated)
    (hitems : f.items? array = some items) (hitem : f.template? array = some item) (index : Nat)
    (value : Json) : (f.grown array items index item value).Templated := by
  obtain ⟨a, ha, -⟩ := items?_eq_some.1 hitems
  have harray : array < f.slots.size :=
    lt_size_of_contains (show f.contains array = true by rw [contains, ha]; rfl)
  intro id list hlist
  obtain ⟨k, hk, hchildren⟩ := items?_eq_some.1 hlist
  rcases cases_of_control?_grown hk with ⟨c, hc, rfl⟩ | ⟨hge, hstop⟩
  · rw [template?_of_control? hk]
    dsimp only at hchildren ⊢
    rw [← template?_of_control? hc]
    split at hchildren
    · rename_i heq
      exact ⟨item, heq ▸ hitem⟩
    · exact h id list (items?_eq_some.2 ⟨c, hc, hchildren⟩)
  · have hheads : (f.grown array items index item value).Heads default id k :=
      (laid_grown harray).heads hk hge hstop
    exact hheads.exists_template? hk hchildren

theorem Templated.shrunk {items : List Nat} {gone : Nat} (h : f.Templated)
    (hitems : f.items? array = some items) (index : Nat) :
    (f.shrunk array items index gone).Templated := by
  intro id list hlist
  obtain ⟨k, hk, hchildren⟩ := items?_eq_some.1 hlist
  have hbefore := hk
  rw [control?_shrunk_eq] at hbefore
  split at hbefore
  · cases hbefore
  · obtain ⟨c, hc, rfl⟩ := Option.map_eq_some_iff.1 hbefore
    rw [template?_of_control? hk]
    dsimp only at hchildren ⊢
    rw [← template?_of_control? hc]
    split at hchildren
    · rename_i heq
      exact h id items (heq ▸ hitems)
    · exact h id list (items?_eq_some.2 ⟨c, hc, hchildren⟩)

/-! ## Errors -/

theorem contains_eq_false_iff : f.contains id = false ↔ f.control? id = none := by
  rw [contains, Option.isSome_eq_false_iff, Option.isNone_iff_eq_none]

/-- Setting a value fails if there is no such control, or if it is no field. -/
theorem setValue_eq_error :
    f.setValue id value = .error err ↔
      f.contains id = false ∧ err = .unknownControl id ∨
        (∃ kind, f.kind? id = some kind ∧ kind ≠ .field) ∧
          err = .notAField (f.pathOrEmpty id) := by
  rw [contains_eq_false_iff, kind?, setValue]
  cases hc : f.control? id with
  | none => simp [eq_comm]
  | some c =>
      by_cases hkind : c.kind = .field
      · simp [hkind]
      · simp [hkind, eq_comm]

/-- Putting an item into an array fails if there is no such control, if it is no array, or if the
index is behind the end. -/
theorem prepareInsert_eq_error (h : f.Templated) :
    f.prepareInsert array index value = .error err ↔
      f.contains array = false ∧ err = .unknownControl array ∨
        (∃ kind, f.kind? array = some kind ∧ kind ≠ .array) ∧
          err = .notAnArray (f.pathOrEmpty array) ∨
        ∃ items, f.items? array = some items ∧ items.length < index ∧
          err = .indexOutOfBounds (f.pathOrEmpty array) index items.length := by
  have htemplate := h array
  rw [contains_eq_false_iff, kind?, prepareInsert]
  cases hc : f.control? array with
  | none => simp [items?, hc, eq_comm]
  | some c =>
      rw [template?_of_control? hc] at htemplate
      simp only [items?, hc, Option.bind_some] at htemplate ⊢
      cases hchildren : c.children with
      | indexed items =>
          simp only [hchildren] at htemplate ⊢
          obtain ⟨item, hitem⟩ := htemplate items rfl
          by_cases hindex : items.length < index
          · simp [hitem, hindex, Control.kind, hchildren, Children.kind, eq_comm]
          · simp [hitem, hindex, Control.kind, hchildren, Children.kind]
      | _ => simp [Control.kind, hchildren, Children.kind, eq_comm]

/-- Pushing an item fails if there is no such control, or if it is no array. -/
theorem preparePush_eq_error (h : f.Templated) :
    f.preparePush array value = .error err ↔
      f.contains array = false ∧ err = .unknownControl array ∨
        (∃ kind, f.kind? array = some kind ∧ kind ≠ .array) ∧
          err = .notAnArray (f.pathOrEmpty array) := by
  have hinsert := @prepareInsert_eq_error f array
  rw [preparePush]
  cases hc : f.control? array with
  | none => simp [contains, kind?, hc, eq_comm]
  | some c =>
      cases hchildren : c.children with
      | indexed items =>
          have hitems : f.items? array = some items := items?_eq_some.2 ⟨c, hc, hchildren⟩
          simp only [hchildren]
          rw [hinsert h]
          -- the end of the array is no index behind it
          simp [hitems]
      | _ => simp [contains, kind?, hc, Control.kind, hchildren, Children.kind, eq_comm]

/-- Taking an item out of an array fails if there is no such control, if it is no array, or if there
is no item at the index. -/
theorem prepareRemove_eq_error :
    f.prepareRemove array index = .error err ↔
      f.contains array = false ∧ err = .unknownControl array ∨
        (∃ kind, f.kind? array = some kind ∧ kind ≠ .array) ∧
          err = .notAnArray (f.pathOrEmpty array) ∨
        ∃ items, f.items? array = some items ∧ items.length ≤ index ∧
          err = .indexOutOfBounds (f.pathOrEmpty array) index items.length := by
  rw [contains_eq_false_iff, kind?, prepareRemove]
  cases hc : f.control? array with
  | none => simp [items?, hc, eq_comm]
  | some c =>
      simp only [items?, hc, Option.bind_some]
      cases hchildren : c.children with
      | indexed items =>
          cases hget : items[index]? with
          | none =>
              have hindex := List.getElem?_eq_none_iff.1 hget
              simp [hindex, Control.kind, hchildren, Children.kind, eq_comm]
          | some gone =>
              have hindex := Nat.not_le_of_lt (List.getElem?_eq_some_iff.1 hget).1
              simp only [hget]
              simp [hindex, Control.kind, hchildren, Children.kind]
      | _ => simp [Control.kind, hchildren, Children.kind, eq_comm]

/-- Setting a message of a caller fails if there is no such control. -/
theorem setExternal_eq_error {key message : String} :
    f.setExternal id key message = .error err ↔
      f.contains id = false ∧ err = .unknownControl id := by
  rw [setExternal]
  cases f.contains id <;> simp [eq_comm]

/-- Dropping a message of a caller fails if there is no such control. -/
theorem clearExternal_eq_error {key : String} :
    f.clearExternal id key = .error err ↔ f.contains id = false ∧ err = .unknownControl id := by
  rw [clearExternal, ← isSome_state?]
  cases f.state? id <;> simp [eq_comm]

end ReactiveForm.Form
