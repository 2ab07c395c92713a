import Mathlib.Data.List.Perm.Basic
import ReactiveForm.Proofs.Form.Grafts
import ReactiveForm.Proofs.Model.Names

/-!
# Forms whose names may repeat

Of several parts with one name only the last one is listed. The controls of the others are there all
the same, and they can outlive what is above them: when an item is taken out of an array, what it
does not list stays behind. So the controls of a form need not be a tree. What holds in every form
is less (`Rooted`): whatever a control lists knows it as the parent, and can be told apart from the
rest by a name or an index, where no name has a fault. Every control other than the root has, or
had, one above it.
-/

namespace ReactiveForm

/-! ## Children that can be told apart -/

/-- The parts have different names, none of them with a fault, and the items are different
controls. -/
inductive Children.Marked : Children → Prop where
  | none : Marked .none
  | named {parts : List (String × ControlId)} (hnodup : (parts.map Prod.fst).Nodup)
      (hfaultless : ∀ name ∈ parts.map Prod.fst, Property.nameFault? name = Option.none) :
      Marked (.named parts)
  | indexed {items : List ControlId} (hnodup : items.Nodup) : Marked (.indexed items)

namespace Shape

/-- What is directly below a shape without faulty names has none either. -/
theorem WellNamed.entries {shape : Shape} (h : shape.WellNamed) {data : Json} :
    ∀ e ∈ shape.entries data, e.1.shape.WellNamed := by
  intro e he
  cases h with
  | value => cases he
  | object _ hparts =>
      obtain ⟨p, hp, hentry⟩ := List.mem_filterMap.1 he
      obtain ⟨_, -, rfl⟩ := Option.map_eq_some_iff.1 hentry
      exact hparts p hp
  | array hitem =>
      obtain ⟨_, -, rfl⟩ := List.mem_map.1 he
      exact hitem

theorem WellNamed.marked {shape : Shape} (h : shape.WellNamed) {below : List Nat}
    (hbelow : below.Nodup) : (shape.arrange below).Marked := by
  cases h with
  | value => exact .none
  | @object children hnames _ =>
      refine .named (Keyed.nodup_keys_ofList _) fun name hname => ?_
      obtain ⟨⟨_, id⟩, hentry, rfl⟩ := List.mem_map.1 (Keyed.mem_keys_ofList.1 hname)
      obtain ⟨p, hp, hpart⟩ := List.mem_filterMap.1 (List.of_mem_zip hentry).1
      exact hnames p hp _ hpart
  | array => exact .indexed hbelow

end Shape

namespace Form

variable {f g : Form} {m : Model} {id array : Nat} {items : List Nat} {index : Nat}

/-- A control of a row has one above it, a property without faulty names, and children that can be
told apart. -/
theorem Laid.marked {parent first stop : Nat} {entries : List (Property × Json)} {ids : List Nat}
    (h : f.Laid parent first entries ids stop) (hentries : ∀ e ∈ entries, e.1.shape.WellNamed)
    {c : Control} (hc : f.control? id = some c) (hfirst : first ≤ id) (hstop : id < stop) :
    c.parent.isSome = true ∧ (∀ p, c.property = some p → p.shape.WellNamed) ∧
      c.children.Marked := by
  induction h with
  | nil => omega
  | @cons _ first middle _ p data below _ _ hcontrol hbelow _ ihbelow ihrest =>
      have hp : p.shape.WellNamed := hentries (p, data) List.mem_cons_self
      rcases Nat.lt_or_ge id middle with hlt | hge
      · rcases Nat.eq_or_lt_of_le hfirst with rfl | hgt
        · cases hcontrol.symm.trans hc
          refine ⟨rfl, fun q hq => ?_, hp.marked hbelow.nodup⟩
          cases hq
          exact hp
        · exact ihbelow hp.entries hgt hlt
      · exact ihrest (fun e he => hentries e (List.mem_cons_of_mem _ he)) hge hstop

/-! ## The invariant -/

/-- The root has nothing above it, all other controls have. What a control lists has it as the
parent, and can be told apart. -/
structure Rooted (f : Form) : Prop where
  root : f.contains root = true ∧ f.parent? root = none
  eq_root : ∀ {id : Nat}, f.contains id = true → f.parent? id = none → id = Form.root
  before : f.ParentsBefore
  child : ∀ {id : Nat} {c : Control}, f.control? id = some c →
    ∀ x ∈ c.children.ids, f.parent? x = some id
  marked : ∀ {id : Nat} {c : Control}, f.control? id = some c → c.children.Marked
  wellNamed : ∀ {id : Nat} {p : Property}, f.property? id = some p → p.shape.WellNamed

namespace Rooted

theorem sameTree (h : f.Rooted) (t : SameTree f g) : g.Rooted where
  root := by
    rw [← t.contains, ← t.parent?]
    exact h.root
  eq_root {id} hid hnone := h.eq_root ((t.contains id).trans hid) ((t.parent? id).trans hnone)
  before := t.parentsBefore h.before
  child {id d} hd x hx := by
    obtain ⟨c, hc, hlinks⟩ := t.symm.exists_control hd
    exact (t.parent? x).symm.trans (h.child hc x (hlinks.children ▸ hx))
  marked {id d} hd := by
    obtain ⟨c, hc, hlinks⟩ := t.symm.exists_control hd
    exact hlinks.children ▸ h.marked hc
  wellNamed {id p} hp := h.wellNamed ((t.property? id).trans hp)

theorem lt_size_of_mem (h : f.Rooted) {c : Control} (hc : f.control? id = some c) {x : Nat}
    (hx : x ∈ c.children.ids) : x < f.slots.size :=
  lt_size_of_contains (contains_of_parent? (h.child hc x hx))

/-- An array has each of its items once. -/
theorem nodup_items (h : f.Rooted) (hitems : f.items? array = some items) : items.Nodup := by
  obtain ⟨c, hc, hchildren⟩ := items?_eq_some.1 hitems
  have hmarked := h.marked hc
  rw [hchildren] at hmarked
  cases hmarked with
  | indexed hnodup => exact hnodup

end Rooted

/-! ## Built forms -/

private theorem marked_sprout (hm : m.WellNamed) {data : Json} {c : Config} {k : Control}
    (hk : (sprout m data c).control? id = some k) :
    (∀ p, k.property = some p → p.shape.WellNamed) ∧ k.children.Marked := by
  obtain ⟨below, hroot, hrow⟩ := Shape.laid_block none none root _ data (holds_sprout m data c)
  by_cases hne : id = root
  · subst hne
    cases hroot.symm.trans hk
    exact ⟨fun _ hp => (nomatch hp), Shape.WellNamed.marked hm hrow.nodup⟩
  · exact (hrow.marked (Shape.WellNamed.entries hm) hk (Nat.pos_of_ne_zero hne)
      (lt_of_control?_sprout hk)).2

theorem rooted_build (hm : m.WellNamed) (data : Json) (c : Config) : (build m data c).Rooted where
  root := by
    have sound := soundTree_build m data c
    refine ⟨sound.root_contained, Option.eq_none_iff_forall_ne_some.2 fun parent hparent => ?_⟩
    exact Nat.not_lt_zero _ (sound.parent_lt hparent)
  eq_root := (soundTree_build m data c).eq_root
  before := parentsBefore_build m data c
  child := (soundTree_build m data c).parent_of_child
  marked {id k} hk := by
    obtain ⟨c', hc', hlinks⟩ := (sameDocument_build m data c).sameTree.exists_control hk
    exact hlinks.children ▸ (marked_sprout hm hc').2
  wellNamed {id p} hp := by
    rw [(sameDocument_build m data c).sameTree.property?] at hp
    obtain ⟨k, hk, hp⟩ := Option.bind_eq_some_iff.1 hp
    exact (marked_sprout hm hk).1 p hp

/-! ## An item more -/

/-- The template of an array has no faulty names, so neither has a new item. -/
theorem Rooted.wellNamed_template (h : f.Rooted) {item : Property}
    (hitem : f.template? array = some item) : item.shape.WellNamed := by
  obtain ⟨p, hp, hshape⟩ := Option.bind_eq_some_iff.1 hitem
  have hwell := h.wellNamed hp
  unfold Property.item? at hshape
  split at hshape
  · rename_i template htemplate
    cases hshape
    rw [htemplate] at hwell
    cases hwell with
    | array hwell => exact hwell
  · cases hshape

/-- A form in which an array gets an item stays as it has to be. -/
theorem Rooted.grown (h : f.Rooted) {item : Property} (hitems : f.items? array = some items)
    (hitem : f.template? array = some item) (index : Nat) (value : Json) :
    (f.grown array items index item value).Rooted := by
  obtain ⟨c, hc, hchildren⟩ := items?_eq_some.1 hitems
  have hlive := contains_of_items? hitems
  have harray := lt_size_of_contains hlive
  have hroot := lt_size_of_contains h.root.1
  have hentries : ∀ e ∈ [(item, value)], e.1.shape.WellNamed :=
    List.forall_mem_singleton.2 (h.wellNamed_template hitem)
  have hnew : f.slots.size ∉ items := fun hin =>
    absurd (h.lt_size_of_mem hc (by rw [hchildren]; exact hin)) (Nat.lt_irrefl _)
  refine ⟨⟨?_, ?_⟩, fun {id} hid hnone => ?_, ?_, child_grown h.child hc hchildren,
    fun {id k} hk => ?_, fun {id p} hp => ?_⟩
  · rw [contains_grown_of_lt hroot]
    exact h.root.1
  · rw [parent?_grown_of_lt hroot]
    exact h.root.2
  · rcases Nat.lt_or_ge id f.slots.size with hlt | hge
    · rw [contains_grown_of_lt hlt] at hid
      rw [parent?_grown_of_lt hlt] at hnone
      exact h.eq_root hid hnone
    · obtain ⟨k, hk⟩ := Option.isSome_iff_exists.1 hid
      have hstop := size_grown f array items index item value ▸ lt_size_of_contains hid
      have hparent := ((laid_grown harray).marked hentries hk hge hstop).1
      rw [parent?, hk, Option.bind_some] at hnone
      simp [hnone] at hparent
  · have hprepared := Prepared.inserted items index item value hlive
    exact (sameDocument_growth f array items index item value).sameTree.parentsBefore
      (hprepared.parentsBefore h.before)
  · rcases cases_of_control?_grown hk with ⟨c', hc', rfl⟩ | ⟨hge, hstop⟩
    · dsimp only
      split
      · refine .indexed (List.perm_middle.nodup_iff.2 (List.nodup_cons.2 ?_))
        rw [List.take_append_drop]
        exact ⟨hnew, h.nodup_items hitems⟩
      · exact h.marked hc'
    · exact ((laid_grown harray).marked hentries hk hge hstop).2.2
  · obtain ⟨k, hk, hp⟩ := Option.bind_eq_some_iff.1 hp
    rcases cases_of_control?_grown hk with ⟨c', hc', rfl⟩ | ⟨hge, hstop⟩
    · exact h.wellNamed (by rw [property?, hc']; exact hp)
    · exact ((laid_grown harray).marked hentries hk hge hstop).2.1 p hp

/-! ## An item less -/

/-- A control that is gone with an item is the item, or is listed by another one that is gone. -/
theorem cases_of_mem_subtreeWithin {n top : Nat} (hid : id ∈ f.subtreeWithin n top) :
    id = top ∨ ∃ up c, up ∈ f.subtreeWithin n top ∧ f.control? up = some c ∧
      id ∈ c.children.ids := by
  induction n generalizing top with
  | zero => cases hid
  | succ n ih =>
      rw [subtreeWithin_succ] at hid ⊢
      cases hc : f.control? top with
      | none =>
          rw [hc] at hid
          cases hid
      | some c =>
          rw [hc, Option.map_some, Option.getD_some] at hid
          rcases List.mem_cons.1 hid with rfl | hbelow
          · exact .inl rfl
          · refine .inr ?_
            obtain ⟨child, hchild, hmem⟩ := List.mem_flatMap.1 hbelow
            rcases ih hmem with rfl | ⟨up, d, hup, hd, hlisted⟩
            · exact ⟨top, c, List.mem_cons_self, hc, hchild⟩
            · exact ⟨up, d, List.mem_cons_of_mem _ (List.mem_flatMap.2 ⟨child, hchild, hup⟩), hd,
                hlisted⟩

section Shrunk

variable {gone x : Nat}

/-- The controls that are left are the former ones, and only the array has other items. -/
private theorem cases_of_control?_shrunk {k : Control}
    (hk : (f.shrunk array items index gone).control? x = some k) :
    x ∉ f.subtree gone ∧ ∃ c, f.control? x = some c ∧
      k = { c with
        children := if x = array then .indexed (items.eraseIdx index) else c.children } := by
  rw [control?_shrunk_eq] at hk
  split at hk
  · cases hk
  · rename_i hmem
    obtain ⟨c, hc, rfl⟩ := Option.map_eq_some_iff.1 hk
    exact ⟨hmem, c, hc, rfl⟩

private theorem parent?_shrunk_of_notMem (hx : x ∉ f.subtree gone) :
    (f.shrunk array items index gone).parent? x = f.parent? x := by
  rw [parent?, parent?, control?_shrunk_eq, if_neg hx, Option.bind_map]
  rfl

variable (h : f.Rooted)

include h

/-- What goes with an item is the item itself, or is below something that goes. -/
private theorem Rooted.cases_of_mem_subtree (hx : x ∈ f.subtree gone) :
    x = gone ∨ ∃ up ∈ f.subtree gone, f.parent? x = some up := by
  refine (cases_of_mem_subtreeWithin hx).imp_right ?_
  rintro ⟨up, c, hup, hc, hmem⟩
  exact ⟨up, hup, h.child hc x hmem⟩

variable (hitems : f.items? array = some items) (hget : items[index]? = some gone)

include hitems hget

private theorem Rooted.parent?_item : f.parent? gone = some array := by
  obtain ⟨c, hc, hchildren⟩ := items?_eq_some.1 hitems
  exact h.child hc gone (by rw [hchildren]; exact List.mem_of_getElem? hget)

private theorem Rooted.notMem_eraseIdx : gone ∉ items.eraseIdx index := fun hmem => by
  obtain ⟨hlt, rfl⟩ := List.getElem?_eq_some_iff.1 hget
  have hnodup := (List.getElem_cons_eraseIdx_perm hlt).nodup_iff.2 (h.nodup_items hitems)
  exact (List.nodup_cons.1 hnodup).1 hmem

private theorem Rooted.root_notMem_subtree : Form.root ∉ f.subtree gone := fun hmem => by
  rcases h.cases_of_mem_subtree hmem with heq | ⟨up, -, hup⟩
  · cases h.root.2.symm.trans (heq ▸ h.parent?_item hitems hget)
  · cases h.root.2.symm.trans hup

/-- What is listed and is not the item goes only if what lists it goes. -/
private theorem Rooted.child_shrunk {id : Nat} {k : Control}
    (hk : (f.shrunk array items index gone).control? id = some k) (hx : x ∈ k.children.ids) :
    (f.shrunk array items index gone).parent? x = some id := by
  obtain ⟨hmem, c, hc, rfl⟩ := cases_of_control?_shrunk hk
  have hold : x ∈ c.children.ids ∧ x ≠ gone := by
    dsimp only at hx
    split at hx
    · rename_i heq
      subst heq
      obtain ⟨c', hc', hchildren⟩ := items?_eq_some.1 hitems
      cases hc.symm.trans hc'
      rw [hchildren]
      exact ⟨List.mem_of_mem_eraseIdx hx, fun heq => h.notMem_eraseIdx hitems hget (heq ▸ hx)⟩
    · rename_i hne
      refine ⟨hx, fun heq => hne ?_⟩
      have hboth := h.child hc x hx
      rw [heq, h.parent?_item hitems hget] at hboth
      exact (Option.some.inj hboth).symm
  have hkept : x ∉ f.subtree gone := fun hgoes => by
    rcases h.cases_of_mem_subtree hgoes with heq | ⟨up, hup, hparent⟩
    · exact hold.2 heq
    · rw [h.child hc x hold.1] at hparent
      exact hmem (Option.some.inj hparent ▸ hup)
  exact (parent?_shrunk_of_notMem hkept).trans (h.child hc x hold.1)

/-- A form in which an array loses an item stays as it has to be. -/
theorem Rooted.shrunk : (f.shrunk array items index gone).Rooted where
  root := by
    have hroot := h.root_notMem_subtree hitems hget
    refine ⟨?_, (parent?_shrunk_of_notMem hroot).trans h.root.2⟩
    rw [contains, control?_shrunk_eq, if_neg hroot, Option.isSome_map]
    exact h.root.1
  eq_root {id} hid hnone := by
    obtain ⟨k, hk⟩ := Option.isSome_iff_exists.1 hid
    obtain ⟨hmem, c, hc, -⟩ := cases_of_control?_shrunk hk
    exact h.eq_root (by rw [contains, hc]; rfl) ((parent?_shrunk_of_notMem hmem).symm.trans hnone)
  before := by
    have hprepared := Prepared.removed items index gone (contains_of_items? hitems)
    exact (sameDocument_shrinkage f array items index gone).sameTree.parentsBefore
      (hprepared.parentsBefore h.before)
  child hk _ := h.child_shrunk hitems hget hk
  marked {id k} hk := by
    obtain ⟨-, c, hc, rfl⟩ := cases_of_control?_shrunk hk
    dsimp only
    split
    · exact .indexed ((h.nodup_items hitems).eraseIdx index)
    · exact h.marked hc
  wellNamed {id p} hp := by
    obtain ⟨k, hk, hp⟩ := Option.bind_eq_some_iff.1 hp
    obtain ⟨-, c, hc, rfl⟩ := cases_of_control?_shrunk hk
    exact h.wellNamed (by rw [property?, hc]; exact hp)

end Shrunk

theorem lasting_rooted : Lasting Rooted :=
  ⟨Rooted.sameTree, fun h hitems hitem => h.grown hitems hitem,
    fun h hitems hget => h.shrunk hitems hget⟩

end Form

end ReactiveForm
