import ReactiveForm.Proofs.Form.ControlTree

/-!
# Items of a tree

An item that is put into an array is a row of new controls behind all others, which only the array
lists; an item that is taken out is a control of the array with all of its descendants. Either way
the controls stay a tree (`ControlTree.grown`, `ControlTree.shrunk`).
-/

namespace ReactiveForm

namespace Form

variable {f g : Form} {m : Model} {id array : Nat} {items : List Nat} {index : Nat}
  {item : Property} {value : Json} {c : Control}

/-! ## Arrays -/

/-- The controls of the items of an array. A control that is no array has none. -/
def items? (f : Form) (id : ControlId) : Option (List ControlId) :=
  (f.control? id).bind fun c =>
    match c.children with
    | .indexed items => some items
    | _ => none

/-- The template of the items of an array. -/
def template? (f : Form) (id : ControlId) : Option Property :=
  (f.property? id).bind Property.item?

theorem items?_eq_some :
    f.items? array = some items ↔ ∃ c, f.control? array = some c ∧ c.children = .indexed items := by
  unfold items?
  rw [Option.bind_eq_some_iff]
  refine exists_congr fun c => and_congr_right fun _ => ?_
  cases c.children <;> simp

theorem contains_of_items? (hitems : f.items? array = some items) : f.contains array = true := by
  obtain ⟨c, hc, -⟩ := items?_eq_some.1 hitems
  rw [contains, hc]
  rfl

/-- A prepared insertion is the growth of an array by an item. -/
theorem prepareInsert_eq_ok {e : Edit} (h : f.prepareInsert array index value = .ok (id, e)) :
    ∃ items item, f.items? array = some items ∧ f.template? array = some item ∧
      index ≤ items.length ∧ id = f.slots.size ∧ e = f.growth array items index item value := by
  unfold prepareInsert at h
  cases hc : f.control? array with
  | none => simp [hc] at h
  | some c =>
      simp only [hc] at h
      split at h
      · rename_i items item hchildren hitem
        split at h
        · cases h
        · rename_i hle
          cases h
          exact ⟨items, item, items?_eq_some.2 ⟨c, hc, hchildren⟩,
            by rw [template?, property?, hc]; exact hitem, Nat.le_of_not_lt hle, rfl, rfl⟩
      · cases h

/-- A prepared push is the growth of an array behind its last item. -/
theorem preparePush_eq_ok {e : Edit} (h : f.preparePush array value = .ok (id, e)) :
    ∃ items, f.items? array = some items ∧
      f.prepareInsert array items.length value = .ok (id, e) := by
  unfold preparePush at h
  cases hc : f.control? array with
  | none => simp [hc] at h
  | some c =>
      simp only [hc] at h
      split at h
      · rename_i items hchildren
        exact ⟨items, items?_eq_some.2 ⟨c, hc, hchildren⟩, h⟩
      · cases h

/-- A prepared removal is the shrinkage of an array by one of its items. -/
theorem prepareRemove_eq_ok {e : Edit} (h : f.prepareRemove array index = .ok (value, e)) :
    ∃ items item, f.items? array = some items ∧ items[index]? = some item ∧
      value = f.value item ∧ e = f.shrinkage array items index item := by
  unfold prepareRemove at h
  cases hc : f.control? array with
  | none => simp [hc] at h
  | some c =>
      simp only [hc] at h
      split at h
      · rename_i items hchildren
        split at h
        · cases h
        · rename_i item hget
          cases h
          exact ⟨items, item, items?_eq_some.2 ⟨c, hc, hchildren⟩, hget, rfl, rfl⟩
      · cases h

/-- The template of an array is the one of its shape. -/
theorem shape_of_template? (hc : f.control? array = some c) (hitem : f.template? array = some item) :
    c.shape m = .array item := by
  rw [template?, property?, hc, Option.bind_some] at hitem
  obtain ⟨p, hp, hshape⟩ := Option.bind_eq_some_iff.1 hitem
  rw [Control.shape, hp, Option.map_some, Option.getD_some]
  unfold Property.item? at hshape
  split at hshape
  · rename_i template htemplate
    cases hshape
    exact htemplate
  · cases hshape

/-- The items of an array are described by its template. -/
theorem ControlTree.property?_of_mem_items (h : f.ControlTree m) (hc : f.control? array = some c)
    (hchildren : c.children = .indexed items) (hitem : f.template? array = some item) :
    ∀ x ∈ items, f.property? x = some item := by
  have hfits := h.fits hc
  rw [shape_of_template? hc hitem, hchildren] at hfits
  cases hfits with
  | array hitems => exact hitems

/-- The root is a group, so it is no array. -/
theorem ControlTree.root_ne_array (h : f.ControlTree m) (hc : f.control? array = some c)
    (hchildren : c.children = .indexed items) : Form.root ≠ array := by
  rintro rfl
  obtain ⟨r, hr, hkind, -⟩ := h.root
  cases hr.symm.trans hc
  simp [Control.kind, hchildren, Children.kind] at hkind

private theorem control?_modify_children_eq (f : Form) (array : ControlId) (children : Children)
    (id : ControlId) :
    (f.modify array fun c => { c with children }).control? id =
      (f.control? id).map fun c =>
        { c with children := if id = array then children else c.children } := by
  rw [control?_modify]
  split
  · rfl
  · exact Option.map_id'.symm

theorem take_append_cons_drop {α : Type} (x : α) (items : List α) {index : Nat}
    (hindex : index ≤ items.length) :
    items.take index ++ x :: items.drop index = items.insertIdx index x := by
  induction items generalizing index with
  | nil =>
      rw [Nat.le_zero.1 hindex]
      rfl
  | cons first items ih =>
      cases index with
      | zero => rfl
      | succ index =>
          rw [List.take_succ_cons, List.drop_succ_cons, List.cons_append,
            ih (Nat.le_of_succ_le_succ hindex), List.insertIdx_succ_cons]

private theorem contains_of_control? (hc : f.control? id = some c) : f.contains id = true := by
  rw [contains, hc]
  rfl

/-! ## An item more -/

section grown

variable (f array items index item value)

/-- The number behind the controls of a new item. -/
def endOfItem : Nat := f.slots.size + (item.block (some array) f.slots.size value).length

theorem size_grown : (f.grown array items index item value).slots.size =
    f.endOfItem array item value := by
  simp [grown, append, modify, endOfItem]

variable {f array items index item value}

/-- What was there before is there with the new item. -/
theorem control?_grown_of_lt (hid : id < f.slots.size) :
    (f.grown array items index item value).control? id =
      (f.control? id).map fun c =>
        { c with
          children :=
            if id = array then .indexed (items.take index ++ f.slots.size :: items.drop index)
            else c.children } := by
  rw [grown, control?_modify_children_eq, control?_append, if_pos hid]

theorem control?_grown_of_ne (hid : id < f.slots.size) (hne : id ≠ array) :
    (f.grown array items index item value).control? id = f.control? id := by
  rw [grown, control?_modify, if_neg hne, control?_append, if_pos hid]

/-- The array lists the new item with the others. -/
theorem items?_grown (hitems : f.items? array = some items) (hindex : index ≤ items.length) :
    (f.grown array items index item value).items? array =
      some (items.insertIdx index f.slots.size) := by
  obtain ⟨c, hc, -⟩ := items?_eq_some.1 hitems
  have harray := lt_size_of_contains (contains_of_control? hc)
  refine items?_eq_some.2 ⟨_, (control?_grown_of_lt harray).trans (by rw [hc]; rfl), ?_⟩
  dsimp only
  rw [if_pos rfl, take_append_cons_drop _ _ hindex]

/-- The new controls are those of the item's block. -/
theorem control?_grown_of_ge (harray : array < f.slots.size) (hid : f.slots.size ≤ id) :
    (f.grown array items index item value).control? id =
      (item.block (some array) f.slots.size value)[id - f.slots.size]? := by
  have hne : id ≠ array := by omega
  rw [grown, control?_modify, if_neg hne, control?_append, if_neg (by omega)]

theorem parent?_grown_of_lt (hid : id < f.slots.size) :
    (f.grown array items index item value).parent? id = f.parent? id := by
  rw [parent?, parent?, control?_grown_of_lt hid, Option.bind_map]
  rfl

theorem property?_grown_of_lt (hid : id < f.slots.size) :
    (f.grown array items index item value).property? id = f.property? id := by
  rw [property?, property?, control?_grown_of_lt hid, Option.bind_map]
  rfl

theorem contains_grown_of_lt (hid : id < f.slots.size) :
    (f.grown array items index item value).contains id = f.contains id := by
  rw [contains, contains, control?_grown_of_lt hid, Option.isSome_map]

/-- The controls of the new item are a row below the array. -/
theorem laid_grown (harray : array < f.slots.size) :
    (f.grown array items index item value).Laid array f.slots.size [(item, value)] [f.slots.size]
      (f.endOfItem array item value) := by
  refine Property.laid_block array f.slots.size item value fun i c hc => ?_
  rw [control?_grown_of_ge harray (Nat.le_add_right _ _), Nat.add_sub_cancel_left]
  exact hc

/-- The controls with the new item are the former ones and those of the item. -/
theorem contains_grown_iff (harray : array < f.slots.size) :
    (f.grown array items index item value).contains id = true ↔
      f.contains id = true ∨ f.slots.size ≤ id ∧ id < f.endOfItem array item value := by
  rcases Nat.lt_or_ge id f.slots.size with hlt | hge
  · rw [contains_grown_of_lt hlt]
    exact (or_iff_left fun hid => absurd hlt (Nat.not_lt_of_le hid.1)).symm
  · constructor
    · intro hid
      exact .inr ⟨hge, size_grown f array items index item value ▸ lt_size_of_contains hid⟩
    · rintro (hid | ⟨-, hstop⟩)
      · exact absurd (lt_size_of_contains hid) (Nat.not_lt_of_le hge)
      · exact (laid_grown harray).contains hge hstop

/-- A control of the form with the new item is a former one, or one of the item. -/
theorem cases_of_control?_grown {k : Control}
    (hk : (f.grown array items index item value).control? id = some k) :
    (∃ c, f.control? id = some c ∧
      k = { c with
        children :=
          if id = array then .indexed (items.take index ++ f.slots.size :: items.drop index)
          else c.children }) ∨
      f.slots.size ≤ id ∧ id < f.endOfItem array item value := by
  rcases Nat.lt_or_ge id f.slots.size with hlt | hge
  · rw [control?_grown_of_lt hlt] at hk
    obtain ⟨c, hc, rfl⟩ := Option.map_eq_some_iff.1 hk
    exact .inl ⟨c, hc, rfl⟩
  · exact .inr ⟨hge, size_grown f array items index item value ▸
      lt_size_of_contains (contains_of_control? hk)⟩

private theorem mem_or_eq_of_mem_grown {x : Nat}
    (hx : x ∈ items.take index ++ f.slots.size :: items.drop index) :
    x = f.slots.size ∨ x ∈ items := by
  rw [List.mem_append, List.mem_cons] at hx
  rcases hx with hx | hx | hx
  · exact .inr (List.mem_of_mem_take hx)
  · exact .inl hx
  · exact .inr (List.mem_of_mem_drop hx)

private theorem count_grown {x : Nat} :
    (items.take index ++ f.slots.size :: items.drop index).count x =
      items.count x + if f.slots.size = x then 1 else 0 := by
  have hcount : (items.take index).count x + (items.drop index).count x = items.count x := by
    rw [← List.count_append, List.take_append_drop]
  rw [List.count_append, List.count_cons]
  simp only [beq_iff_eq]
  omega

/-- Where all children know their parents, they still do with the new item. -/
theorem child_grown (hchild : ∀ {id : Nat} {c : Control}, f.control? id = some c →
      ∀ x ∈ c.children.ids, f.parent? x = some id)
    (hc : f.control? array = some c) (hchildren : c.children = .indexed items) {k : Control}
    (hk : (f.grown array items index item value).control? id = some k) :
    ∀ x ∈ k.children.ids, (f.grown array items index item value).parent? x = some id := by
  have harray := lt_size_of_contains (contains_of_control? hc)
  have hold : ∀ {c' : Control} {x : Nat}, f.control? id = some c' → x ∈ c'.children.ids →
      (f.grown array items index item value).parent? x = some id := fun hc' hx => by
    have hparent := hchild hc' _ hx
    exact (parent?_grown_of_lt (lt_size_of_contains (contains_of_parent? hparent))).trans hparent
  intro x hx
  rcases cases_of_control?_grown hk with ⟨c', hc', rfl⟩ | ⟨hge, hstop⟩
  · dsimp only at hx
    split at hx
    · rename_i heq
      subst heq
      cases hc'.symm.trans hc
      rcases mem_or_eq_of_mem_grown hx with rfl | hx
      · exact (laid_grown harray).parent? (List.mem_singleton_self _)
      · exact hold hc (by rw [hchildren]; exact hx)
    · exact hold hc' hx
  · exact ((laid_grown harray).heads (m := default) hk hge hstop).child x hx

section tree

variable (h : f.ControlTree m) (hc : f.control? array = some c)
  (hchildren : c.children = .indexed items) (hitem : f.template? array = some item)

include h hc hchildren

private theorem listed_grown_of_contains (hid : f.contains id = true) (hne : id ≠ root) :
    (f.grown array items index item value).Listed id := by
  have hidlt := lt_size_of_contains hid
  obtain ⟨parent, p, hparent, hlt, hp, hcount⟩ := h.listed hid hne
  refine ⟨parent, _, (parent?_grown_of_lt hidlt).trans hparent, hlt,
    (control?_grown_of_lt (Nat.lt_trans hlt hidlt)).trans (by rw [hp]; rfl), ?_⟩
  dsimp only
  split
  · -- the array lists each of its former items as often as before
    rename_i heq
    subst heq
    cases hp.symm.trans hc
    rw [hchildren] at hcount
    rw [Children.ids, count_grown, if_neg (Nat.ne_of_gt hidlt)]
    exact hcount
  · exact hcount

private theorem listed_grown_item :
    (f.grown array items index item value).Listed f.slots.size := by
  have harray := lt_size_of_contains (contains_of_control? hc)
  refine ⟨array, _, (laid_grown harray).parent? (List.mem_singleton_self _), harray,
    (control?_grown_of_lt harray).trans (by rw [hc]; rfl), ?_⟩
  have hnew : f.slots.size ∉ items := fun hin =>
    absurd (h.lt_size_of_mem hc (by rw [hchildren]; exact hin)) (Nat.lt_irrefl _)
  dsimp only
  rw [if_pos rfl, Children.ids, count_grown, if_pos rfl, List.count_eq_zero_of_not_mem hnew]

include hitem

private theorem fits_grown {k : Control}
    (hk : (f.grown array items index item value).control? id = some k) :
    (f.grown array items index item value).Fits (k.shape m) k.children := by
  have harray := lt_size_of_contains (contains_of_control? hc)
  rcases cases_of_control?_grown hk with ⟨c', hc', rfl⟩ | ⟨hge, hstop⟩
  · have hshape : ∀ children, ({ c' with children } : Control).shape m = c'.shape m :=
      fun _ => rfl
    rw [hshape]
    dsimp only
    split
    · rename_i heq
      subst heq
      cases hc'.symm.trans hc
      rw [shape_of_template? hc hitem]
      refine .array fun x hx => ?_
      rcases mem_or_eq_of_mem_grown hx with rfl | hx
      · exact List.cons.inj (laid_grown harray).map_property? |>.1
      · rw [property?_grown_of_lt (h.lt_size_of_mem hc (by rw [hchildren]; exact hx))]
        exact h.property?_of_mem_items hc hchildren hitem x hx
    · exact (h.fits hc').congr fun x hx => property?_grown_of_lt (h.lt_size_of_mem hc' hx)
  · exact ((laid_grown harray).heads (m := m) hk hge hstop).fits

end tree

/-- The controls of a tree stay a tree when an array gets an item. -/
theorem ControlTree.grown (h : f.ControlTree m) (hm : m.DistinctNames)
    (hitems : f.items? array = some items) (hitem : f.template? array = some item) (index : Nat)
    (value : Json) : (f.grown array items index item value).ControlTree m := by
  obtain ⟨c, hc, hchildren⟩ := items?_eq_some.1 hitems
  have harray := lt_size_of_contains (contains_of_control? hc)
  refine ⟨?_, fun {id} hid hne => ?_, child_grown h.child hc hchildren,
    fits_grown h hc hchildren hitem⟩
  · obtain ⟨r, hr, hkind, hparent, hnone⟩ := h.root
    have hroot := h.root_ne_array hc hchildren
    refine ⟨r, ?_, hkind, hparent, hnone⟩
    rw [control?_grown_of_lt (lt_size_of_contains (contains_of_control? hr)), hr, Option.map_some,
      if_neg hroot]
  · rcases (contains_grown_iff harray).1 hid with hid | ⟨hge, hstop⟩
    · exact listed_grown_of_contains h hc hchildren hid hne
    · have hdistinct : ∀ e ∈ [(item, value)], e.1.shape.DistinctNames := by
        intro e he
        have hshape := h.distinctNames hm hc
        rw [shape_of_template? hc hitem] at hshape
        rw [List.mem_singleton.1 he]
        cases hshape with
        | array hshape => exact hshape
      rcases (laid_grown harray).listed hdistinct hge hstop with hself | hlisted
      · rw [List.mem_singleton.1 hself]
        exact listed_grown_item h hc hchildren
      · exact hlisted

end grown

/-! ## An item less -/

section shrunk

variable {gone : Nat}

theorem size_drop (f : Form) (ids : List ControlId) : (f.drop ids).slots.size = f.slots.size := by
  unfold drop
  dsimp only
  generalize f.slots = slots
  induction ids generalizing slots with
  | nil => rfl
  | cons id ids ih => rw [List.foldl_cons, ih, Array.size_modify]

theorem size_shrunk (f : Form) (array : ControlId) (items : List ControlId) (index : Nat)
    (gone : ControlId) : (f.shrunk array items index gone).slots.size = f.slots.size := by
  rw [shrunk, modify, Array.size_modify, size_drop]

theorem control?_shrunk_eq (f : Form) (array : ControlId) (items : List ControlId) (index : Nat)
    (gone id : ControlId) :
    (f.shrunk array items index gone).control? id =
      if id ∈ f.subtree gone then none
      else (f.control? id).map fun c =>
        { c with
          children := if id = array then .indexed (items.eraseIdx index) else c.children } := by
  rw [shrunk, control?_modify_children_eq, control?_drop]
  by_cases hmem : id ∈ f.subtree gone
  · rw [if_pos hmem, if_pos hmem]
    rfl
  · rw [if_neg hmem, if_neg hmem]

/-- Just the descendants of the item are gone. -/
theorem contains_shrunk_iff (sound : f.SoundTree) :
    (f.shrunk array items index gone).contains id = true ↔
      f.contains id = true ∧ ¬ f.Descends gone id := by
  rw [contains, control?_shrunk_eq, ← sound.mem_subtree]
  split
  · rename_i hmem
    simp [hmem]
  · rename_i hmem
    simp [hmem, contains]

/-- A control that is still there is described and arranged as before, but for the items of the
array. -/
theorem exists_of_control?_shrunk (sound : f.SoundTree) {k : Control}
    (hk : (f.shrunk array items index gone).control? id = some k) :
    ¬ f.Descends gone id ∧ ∃ c, f.control? id = some c ∧
      k = { c with
        children := if id = array then .indexed (items.eraseIdx index) else c.children } := by
  rw [control?_shrunk_eq, ← sound.mem_subtree] at *
  split at hk
  · cases hk
  · rename_i hmem
    obtain ⟨c, hc, rfl⟩ := Option.map_eq_some_iff.1 hk
    exact ⟨hmem, c, hc, rfl⟩

theorem control?_shrunk_of_not_descends (sound : f.SoundTree) (hid : ¬ f.Descends gone id) :
    (f.shrunk array items index gone).control? id =
      (f.control? id).map fun c =>
        { c with
          children := if id = array then .indexed (items.eraseIdx index) else c.children } := by
  rw [control?_shrunk_eq, if_neg fun hmem => hid (sound.mem_subtree.1 hmem)]

theorem control?_shrunk_of_ne (sound : f.SoundTree) (hid : ¬ f.Descends gone id)
    (hne : id ≠ array) : (f.shrunk array items index gone).control? id = f.control? id := by
  rw [shrunk, control?_modify, if_neg hne, control?_drop,
    if_neg fun hmem => hid (sound.mem_subtree.1 hmem)]

theorem parent?_shrunk (sound : f.SoundTree) (hid : ¬ f.Descends gone id) :
    (f.shrunk array items index gone).parent? id = f.parent? id := by
  rw [parent?, parent?, control?_shrunk_of_not_descends sound hid, Option.bind_map]
  rfl

theorem property?_shrunk (sound : f.SoundTree) (hid : ¬ f.Descends gone id) :
    (f.shrunk array items index gone).property? id = f.property? id := by
  rw [property?, property?, control?_shrunk_of_not_descends sound hid, Option.bind_map]
  rfl

private theorem count_eraseIdx (hget : items[index]? = some gone) (x : Nat) :
    (items.eraseIdx index).count x + (if gone = x then 1 else 0) = items.count x := by
  obtain ⟨hlt, rfl⟩ := List.getElem?_eq_some_iff.1 hget
  have hsplit : items.take index ++ items[index] :: items.drop (index + 1) = items := by
    rw [← List.drop_eq_getElem_cons hlt, List.take_append_drop]
  have hcount := congrArg (List.count x) hsplit
  rw [List.count_append, List.count_cons] at hcount
  rw [List.eraseIdx_eq_take_drop_succ, List.count_append]
  simp only [beq_iff_eq] at hcount
  omega

section tree

variable (h : f.ControlTree m) (hc : f.control? array = some c)
  (hchildren : c.children = .indexed items) (hget : items[index]? = some gone)

include h

/-- What is listed by a control that is still there is still there, unless it is the item. -/
theorem not_descends_of_mem {k : Control} {x : Nat} (hk : f.control? id = some k)
    (hx : x ∈ k.children.ids) (hid : ¬ f.Descends gone id) (hne : x ≠ gone) :
    ¬ f.Descends gone x := by
  intro hbelow
  cases hbelow with
  | self => exact hne rfl
  | @child up _ hup hchild =>
      obtain ⟨p, hp, hmem⟩ := hchild
      have hparent := h.child hk x hx
      rw [h.child hp x hmem] at hparent
      exact hid (Option.some.inj hparent ▸ hup)

include hc hchildren hget

private theorem parent?_gone : f.parent? gone = some array :=
  h.child hc gone (hchildren ▸ List.mem_of_getElem? hget)

/-- The array and what is above it are no descendants of the item. -/
theorem not_descends_of_le {x : Nat} (hx : x ≤ array) : ¬ f.Descends gone x := by
  intro hbelow
  have hlt := h.soundTree.parent_lt (parent?_gone h hc hchildren hget)
  have hle := hbelow.le h.soundTree
  omega

/-- The array lists its other items. -/
theorem items?_shrunk : (f.shrunk array items index gone).items? array =
    some (items.eraseIdx index) := by
  have hkept := not_descends_of_le h hc hchildren hget (Nat.le_refl array)
  refine items?_eq_some.2
    ⟨_, (control?_shrunk_of_not_descends h.soundTree hkept).trans (by rw [hc]; rfl), ?_⟩
  dsimp only
  rw [if_pos rfl]

theorem mem_of_mem_shrunk {k : Control} {x : Nat}
    (hk : (f.shrunk array items index gone).control? id = some k) (hx : x ∈ k.children.ids) :
    ¬ f.Descends gone x ∧ f.parent? x = some id := by
  obtain ⟨hid, c', hc', rfl⟩ := exists_of_control?_shrunk h.soundTree hk
  dsimp only at hx
  split at hx
  · -- the item stands in the array once, so it is no longer listed
    rename_i heq
    subst heq
    cases hc'.symm.trans hc
    have hmem : x ∈ c.children.ids := by
      rw [hchildren]
      exact List.mem_of_mem_eraseIdx hx
    refine ⟨not_descends_of_mem h hc hmem hid fun heq => ?_, h.child hc x hmem⟩
    obtain ⟨_, p, hparent, -, hp, hcount⟩ := h.listed
      (contains_of_parent? (h.child hc x hmem)) (fun hroot => by
        have hnone := h.parent?_root
        rw [← hroot, h.child hc x hmem] at hnone
        cases hnone)
    cases (h.child hc x hmem).symm.trans hparent
    cases hc.symm.trans hp
    have hless := count_eraseIdx hget x
    rw [hchildren] at hcount
    rw [if_pos heq.symm] at hless
    have hpos : 0 < (items.eraseIdx index).count x := List.count_pos_iff.2 hx
    exact absurd (hless.trans hcount) (by omega)
  · rename_i hne
    refine ⟨not_descends_of_mem h hc' hx hid ?_, h.child hc' x hx⟩
    rintro rfl
    have hparent := parent?_gone h hc hchildren hget
    rw [h.child hc' x hx] at hparent
    exact hne (Option.some.inj hparent)

private theorem listed_shrunk (hid : (f.shrunk array items index gone).contains id = true)
    (hne : id ≠ root) : (f.shrunk array items index gone).Listed id := by
  have sound := h.soundTree
  obtain ⟨hlive, hkept⟩ := (contains_shrunk_iff sound).1 hid
  obtain ⟨parent, p, hparent, hlt, hp, hcount⟩ := h.listed hlive hne
  have hup : ¬ f.Descends gone parent := fun hup =>
    hkept (.child hup ⟨p, hp, List.count_pos_iff.1 (by omega)⟩)
  refine ⟨parent, _, (parent?_shrunk sound hkept).trans hparent, hlt,
    (control?_shrunk_of_not_descends sound hup).trans (by rw [hp]; rfl), ?_⟩
  dsimp only
  split
  · rename_i heq
    subst heq
    cases hp.symm.trans hc
    have hother : gone ≠ id := by
      rintro rfl
      exact hkept (.self hlive)
    have hless := count_eraseIdx hget id
    rw [if_neg hother, Nat.add_zero] at hless
    rw [hchildren] at hcount
    exact hless.trans hcount
  · exact hcount

private theorem fits_shrunk {k : Control}
    (hk : (f.shrunk array items index gone).control? id = some k) :
    (f.shrunk array items index gone).Fits (k.shape m) k.children := by
  have hsame : ∀ x ∈ k.children.ids,
      (f.shrunk array items index gone).property? x = f.property? x := fun x hx =>
    property?_shrunk h.soundTree (mem_of_mem_shrunk h hc hchildren hget hk hx).1
  obtain ⟨hid, c', hc', rfl⟩ := exists_of_control?_shrunk h.soundTree hk
  have hshape : ∀ children, ({ c' with children } : Control).shape m = c'.shape m := fun _ => rfl
  rw [hshape]
  refine Fits.congr ?_ hsame
  dsimp only
  split
  · rename_i heq
    subst heq
    cases hc'.symm.trans hc
    have hfits := h.fits hc
    rw [hchildren] at hfits
    generalize c.shape m = shape at hfits
    cases hfits with
    | array hitems => exact .array fun x hx => hitems x (List.mem_of_mem_eraseIdx hx)
  · exact h.fits hc'

end tree

/-- The controls of a tree stay a tree when an array loses an item. -/
theorem ControlTree.shrunk (h : f.ControlTree m) (hitems : f.items? array = some items)
    (hget : items[index]? = some gone) : (f.shrunk array items index gone).ControlTree m := by
  obtain ⟨c, hc, hchildren⟩ := items?_eq_some.1 hitems
  refine ⟨?_, listed_shrunk h hc hchildren hget, fun hk x hx => ?_,
    fits_shrunk h hc hchildren hget⟩
  · obtain ⟨r, hr, hkind, hparent, hnone⟩ := h.root
    have hroot := h.root_ne_array hc hchildren
    refine ⟨r, ?_, hkind, hparent, hnone⟩
    have hkept : ¬ f.Descends gone Form.root :=
      not_descends_of_le h hc hchildren hget (Nat.zero_le _)
    rw [control?_shrunk_of_not_descends h.soundTree hkept, hr, Option.map_some, if_neg hroot]
  · obtain ⟨hkept, hparent⟩ := mem_of_mem_shrunk h hc hchildren hget hk hx
    exact (parent?_shrunk h.soundTree hkept).trans hparent

end shrunk

/-! ## What lasts -/

/-- What depends on the tree of a form only, and lasts when an array gains or loses an item. -/
structure Lasting (P : Form → Prop) : Prop where
  sameTree : ∀ {f g : Form}, P f → SameTree f g → P g
  grown : ∀ {f : Form} {array : ControlId} {items : List ControlId} {item : Property}, P f →
    f.items? array = some items → f.template? array = some item → ∀ index value,
      P (f.grown array items index item value)
  shrunk : ∀ {f : Form} {array gone : ControlId} {items : List ControlId} {index : Nat}, P f →
    f.items? array = some items → items[index]? = some gone → P (f.shrunk array items index gone)

/-- Being the tree of a model lasts, if its names are distinct. -/
theorem lasting_controlTree (hm : m.DistinctNames) : Lasting fun f => f.ControlTree m :=
  ⟨ControlTree.sameTree, fun h => h.grown hm, ControlTree.shrunk⟩

end Form

end ReactiveForm
