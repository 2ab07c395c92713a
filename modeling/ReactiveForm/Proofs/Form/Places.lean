import ReactiveForm.Proofs.Form.ControlTree

/-!
# The way from the root to a control

In a tree of controls every control has a place in the document of the form. The walks that look for
it go up from parent to parent, where the numbers fall, so they end at the root whatever bound is
set on their steps, as long as it reaches the number of slots (`lineageWithin_eq`,
`placeWithin_eq`). The path of a control is its place as a text (`path?_eq`).
-/

namespace ReactiveForm

/-- A step into a document as a segment of a path. -/
def Segment.text : Segment → String
  | key name => name
  | index n => toString n
  | nowhere => ""

/-- A place in a document as a path with dots. -/
def Segment.path (place : List Segment) : String := ".".intercalate (place.map Segment.text)

/-- The segment of a path that leads to a child is the text of the step that does. -/
theorem Children.segment?_eq (children : Children) (id : ControlId) :
    children.segment? id = (children.place? id).map Segment.text := by
  cases children with
  | none => rfl
  | named parts => simp only [segment?, place?, Option.map_map]; rfl
  | indexed items => simp only [segment?, place?, Option.map_map]; rfl

/-- The step to a listed control is known. -/
theorem Children.exists_place? {children : Children} {id : ControlId} (hid : id ∈ children.ids) :
    ∃ step, children.place? id = some step := by
  rw [← Option.isSome_iff_exists]
  cases children with
  | none => cases hid
  | named parts =>
      obtain ⟨part, hpart, rfl⟩ := List.mem_map.1 hid
      rw [place?, Option.isSome_map, List.find?_isSome]
      exact ⟨part, hpart, beq_self_eq_true _⟩
  | indexed items =>
      rw [place?, Option.isSome_map, List.findIdx?_isSome, List.any_eq_true]
      exact ⟨id, hid, beq_self_eq_true _⟩

namespace Form

variable {f : Form} {m : Model} {id parent : Nat} {n : Nat}

/-! ## Ancestors -/

theorem lineageWithin_of_not_contains (hid : f.contains id = false) (n : Nat) :
    f.lineageWithin n id = [] := by
  cases n with
  | zero => rfl
  | succ n => rw [lineageWithin_succ, hid]; rfl

theorem SoundTree.lineageWithin_eq_lineageWithin (sound : f.SoundTree) {n k : Nat} (hn : id < n)
    (hk : id < k) : f.lineageWithin n id = f.lineageWithin k id := by
  induction n generalizing id k with
  | zero => omega
  | succ n ih =>
      obtain ⟨k, rfl⟩ : ∃ j, k = j + 1 := ⟨k - 1, by omega⟩
      rw [lineageWithin_succ, lineageWithin_succ]
      cases hparent : f.parent? id with
      | none => rfl
      | some parent =>
          have hlt := sound.parent_lt hparent
          simp only [ih (Nat.lt_of_lt_of_le hlt (Nat.le_of_lt_succ hn))
            (Nat.lt_of_lt_of_le hlt (Nat.le_of_lt_succ hk))]

/-- A larger bound on the steps changes nothing. -/
theorem SoundTree.lineageWithin_eq (sound : f.SoundTree) (hn : f.slots.size ≤ n) (id : Nat) :
    f.lineageWithin n id = f.lineage id := by
  cases hid : f.contains id with
  | true =>
      have hlt := lt_size_of_contains hid
      exact sound.lineageWithin_eq_lineageWithin (by omega) hlt
  | false => rw [lineage, lineageWithin_of_not_contains hid, lineageWithin_of_not_contains hid]

theorem SoundTree.lineage_of_parent? (sound : f.SoundTree) (hparent : f.parent? id = some parent) :
    f.lineage id = id :: f.lineage parent := by
  have hid := contains_of_parent? hparent
  have hlt := lt_size_of_contains hid
  obtain ⟨k, hk⟩ : ∃ k, f.slots.size = k + 1 := ⟨f.slots.size - 1, by omega⟩
  have hless := sound.parent_lt hparent
  rw [lineage, lineage, hk, lineageWithin_succ, if_pos hid, hparent]
  exact congrArg (List.cons id)
    (sound.lineageWithin_eq_lineageWithin (by omega) (by omega))

theorem SoundTree.lineage_root (sound : f.SoundTree) (hparent : f.parent? root = none) :
    f.lineage root = [root] := by
  have hlt := lt_size_of_contains sound.root_contained
  obtain ⟨k, hk⟩ : ∃ k, f.slots.size = k + 1 := ⟨f.slots.size - 1, by omega⟩
  rw [lineage, hk, lineageWithin_succ, if_pos sound.root_contained, hparent]

/-- The way up from a control ends at the root. -/
theorem ControlTree.getLast?_lineage (h : f.ControlTree m) (hid : f.contains id = true) :
    (f.lineage id).getLast? = some Form.root := by
  induction id using Nat.strongRecOn with
  | ind id ih =>
    cases hparent : f.parent? id with
    | none =>
        rw [h.soundTree.eq_root hid hparent, h.soundTree.lineage_root h.parent?_root]
        rfl
    | some parent =>
        have hlast := ih parent (h.soundTree.parent_lt hparent)
          (h.soundTree.parent_contained hparent)
        rw [h.soundTree.lineage_of_parent? hparent, List.getLast?_cons, hlast]
        rfl

/-! ## Places -/

theorem placeWithin_of_not_contains (hid : f.contains id = false) (n : Nat) :
    f.placeWithin n id = none := by
  cases n with
  | zero => rfl
  | succ n => rw [placeWithin_succ, hid]; rfl

theorem SoundTree.placeWithin_eq_placeWithin (sound : f.SoundTree) {n k : Nat} (hn : id < n)
    (hk : id < k) : f.placeWithin n id = f.placeWithin k id := by
  induction n generalizing id k with
  | zero => omega
  | succ n ih =>
      obtain ⟨k, rfl⟩ : ∃ j, k = j + 1 := ⟨k - 1, by omega⟩
      rw [placeWithin_succ, placeWithin_succ]
      cases hparent : f.parent? id with
      | none => rfl
      | some parent =>
          have hlt := sound.parent_lt hparent
          simp only [ih (Nat.lt_of_lt_of_le hlt (Nat.le_of_lt_succ hn))
            (Nat.lt_of_lt_of_le hlt (Nat.le_of_lt_succ hk))]

/-- A larger bound on the steps changes nothing. -/
theorem SoundTree.placeWithin_eq (sound : f.SoundTree) (hn : f.slots.size ≤ n) (id : Nat) :
    f.placeWithin n id = f.place? id := by
  cases hid : f.contains id with
  | true =>
      have hlt := lt_size_of_contains hid
      exact sound.placeWithin_eq_placeWithin (by omega) hlt
  | false => rw [Form.place?, placeWithin_of_not_contains hid, placeWithin_of_not_contains hid]

/-- The place of a child is one step further in than that of its parent. -/
theorem SoundTree.place?_of_child (sound : f.SoundTree) {c : Control} {step : Segment}
    (hc : f.control? parent = some c) (hmem : id ∈ c.children.ids)
    (hstep : c.children.place? id = some step) :
    f.place? id = (f.place? parent).map fun place => place ++ [step] := by
  have hparent := sound.parent_of_child hc id hmem
  have hid := contains_of_parent? hparent
  have hlt := lt_size_of_contains hid
  obtain ⟨k, hk⟩ : ∃ k, f.slots.size = k + 1 := ⟨f.slots.size - 1, by omega⟩
  have hless := sound.parent_lt hparent
  have hwithin : f.placeWithin k parent = f.placeWithin (k + 1) parent :=
    sound.placeWithin_eq_placeWithin (by omega) (by omega)
  rw [Form.place?, Form.place?, hk, placeWithin_succ, if_pos hid, hparent, ← hwithin]
  simp only [hc, Option.map_some, Option.bind_some, hstep]

theorem SoundTree.place?_root (sound : f.SoundTree) (hparent : f.parent? root = none) :
    f.place? root = some [] := by
  have hlt := lt_size_of_contains sound.root_contained
  obtain ⟨k, hk⟩ : ∃ k, f.slots.size = k + 1 := ⟨f.slots.size - 1, by omega⟩
  rw [Form.place?, hk, placeWithin_succ, if_pos sound.root_contained, hparent]

/-- Every control of a tree has a place. -/
theorem ControlTree.exists_place? (h : f.ControlTree m) (hid : f.contains id = true) :
    ∃ place, f.place? id = some place := by
  induction id using Nat.strongRecOn with
  | ind id ih =>
    by_cases hroot : id = Form.root
    · rw [hroot]
      exact ⟨[], h.soundTree.place?_root h.parent?_root⟩
    · obtain ⟨parent, c, -, hlt, hc, hcount⟩ := h.listed hid hroot
      have hmem : id ∈ c.children.ids := List.count_pos_iff.1 (by omega)
      obtain ⟨step, hstep⟩ := Children.exists_place? hmem
      obtain ⟨above, habove⟩ := ih parent hlt (by rw [contains, hc]; rfl)
      exact ⟨above ++ [step],
        (h.soundTree.place?_of_child hc hmem hstep).trans (by rw [habove]; rfl)⟩

/-! ## Paths -/

theorem trailWithin_eq (f : Form) (n : Nat) (id : ControlId) :
    f.trailWithin n id =
      (f.placeWithin n id).map fun place => (place.map Segment.text).reverse := by
  induction n generalizing id with
  | zero => rfl
  | succ n ih =>
      rw [trailWithin, placeWithin]
      cases f.control? id with
      | none => rfl
      | some c =>
          cases hup : c.parent with
          | none => simp [hup]
          | some parent =>
              cases hp : f.control? parent with
              | none => simp [hup, hp]
              | some p =>
                  cases hstep : p.children.place? id with
                  | none => simp [hup, hp, Children.segment?_eq, hstep]
                  | some step =>
                      cases hplace : f.placeWithin n parent <;>
                        simp [hup, hp, Children.segment?_eq, hstep, ih, hplace]

/-- The path of a control is its place as a text. -/
theorem path?_eq (f : Form) (id : ControlId) : f.path? id = (f.place? id).map Segment.path := by
  rw [path?, trailWithin_eq, Form.place?, Option.map_map]
  refine congrArg (Option.map · _) (funext fun place => ?_)
  simp only [Function.comp_apply, List.reverse_reverse]
  rfl

end Form

end ReactiveForm
