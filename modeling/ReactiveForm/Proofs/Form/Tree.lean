import ReactiveForm.Form.Edit
import ReactiveForm.Recompute.Scheduler

/-!
# The tree of controls

Setting a value and running tests leave the tree of a form as it is: which controls there are, what
is above and below each of them, and by which property it is described. `SameTree` says that two
forms have the same tree. Paths then lead to the same controls in both, and the same controls have
the same policies and ancestors.

A form is a `SoundTree` if what is above and what is below a control fit together. Then the way up
from a control ends at the root, and the lineage of a control holds the parent of each of its
members (`mem_lineage_of_parent?`).
-/

namespace ReactiveForm

/-- What is above and what is below a control. -/
def Control.links (c : Control) : Option ControlId × Children := (c.parent, c.children)

/-- What setting values and running tests leave of a control. -/
def Control.skeleton (c : Control) : Control := { c with value := .null, state := .initial }

namespace Form

variable {f g h : Form} {id : Nat}

/-! ## Forms of the same shape -/

/-- The forms have the same controls, arranged in the same way. -/
structure SameShape (f g : Form) : Prop where
  size : f.slots.size = g.slots.size
  links : ∀ id, (f.control? id).map Control.links = (g.control? id).map Control.links

namespace SameShape

theorem symm (t : SameShape f g) : SameShape g f := ⟨t.size.symm, fun id => (t.links id).symm⟩

theorem trans (t : SameShape f g) (u : SameShape g h) : SameShape f h :=
  ⟨t.size.trans u.size, fun id => (t.links id).trans (u.links id)⟩

theorem contains (t : SameShape f g) (id : ControlId) : f.contains id = g.contains id := by
  have hsome := congrArg Option.isSome (t.links id)
  simpa only [Form.contains, Option.isSome_map] using hsome

theorem parent? (t : SameShape f g) (id : ControlId) : f.parent? id = g.parent? id := by
  have hparent := congrArg (fun o => Option.bind o Prod.fst) (t.links id)
  rw [Option.bind_map, Option.bind_map] at hparent
  exact hparent

theorem children (t : SameShape f g) (id : ControlId) :
    (f.control? id).map Control.children = (g.control? id).map Control.children := by
  have hchildren := congrArg (Option.map Prod.snd) (t.links id)
  rw [Option.map_map, Option.map_map] at hchildren
  exact hchildren

theorem child? (t : SameShape f g) (id : ControlId) (segment : String) :
    f.child? id segment = g.child? id segment := by
  have hchildren := congrArg (fun o => Option.bind o (Children.find? segment)) (t.children id)
  simpa only [Form.child?, Option.bind_map, Function.comp_def] using hchildren

theorem resolve (t : SameShape f g) (anchor : ControlId) (path : String) :
    f.resolve anchor path = g.resolve anchor path := by
  have hparent : f.parent? = g.parent? := funext t.parent?
  have hchild : f.child? = g.child? := funext fun id => funext (t.child? id)
  rw [Form.resolve, Form.resolve, navigator, navigator, hparent, hchild]

theorem anchor (t : SameShape f g) (id : ControlId) :
    Scheduler.anchor f id = Scheduler.anchor g id := by
  rw [Scheduler.anchor, Scheduler.anchor, t.parent? id]

end SameShape

/-! ## Forms with the same tree -/

/-- The forms have the same controls, described and arranged in the same way. -/
structure SameTree (f g : Form) : Prop where
  defaults : f.defaults = g.defaults
  size : f.slots.size = g.slots.size
  skeleton : ∀ id, (f.control? id).map Control.skeleton = (g.control? id).map Control.skeleton

namespace SameTree

theorem refl (f : Form) : SameTree f f := ⟨rfl, rfl, fun _ => rfl⟩

theorem symm (t : SameTree f g) : SameTree g f :=
  ⟨t.defaults.symm, t.size.symm, fun id => (t.skeleton id).symm⟩

theorem trans (t : SameTree f g) (u : SameTree g h) : SameTree f h :=
  ⟨t.defaults.trans u.defaults, t.size.trans u.size,
    fun id => (t.skeleton id).trans (u.skeleton id)⟩

theorem shape (t : SameTree f g) : SameShape f g where
  size := t.size
  links id := by
    have hlinks := congrArg (Option.map Control.links) (t.skeleton id)
    rw [Option.map_map, Option.map_map] at hlinks
    exact hlinks

theorem contains (t : SameTree f g) (id : ControlId) : f.contains id = g.contains id :=
  t.shape.contains id

theorem parent? (t : SameTree f g) (id : ControlId) : f.parent? id = g.parent? id :=
  t.shape.parent? id

theorem resolve (t : SameTree f g) (anchor : ControlId) (path : String) :
    f.resolve anchor path = g.resolve anchor path :=
  t.shape.resolve anchor path

theorem anchor (t : SameTree f g) (id : ControlId) :
    Scheduler.anchor f id = Scheduler.anchor g id :=
  t.shape.anchor id

theorem property? (t : SameTree f g) (id : ControlId) : f.property? id = g.property? id := by
  have hproperty := congrArg (fun o => Option.bind o Control.property) (t.skeleton id)
  rw [Option.bind_map, Option.bind_map] at hproperty
  exact hproperty

theorem policy (t : SameTree f g) (id : ControlId) : f.policy id = g.policy id := by
  rw [Form.policy, Form.policy, t.property? id, t.defaults]

end SameTree

/-! ## Lineages -/

theorem lineageWithin_succ (f : Form) (n : Nat) (id : ControlId) :
    f.lineageWithin (n + 1) id =
      if f.contains id then
        match f.parent? id with
        | none => [id]
        | some parent => id :: f.lineageWithin n parent
      else [] := by
  cases hc : f.control? id with
  | none => simp [lineageWithin, contains, hc]
  | some c =>
      cases hparent : c.parent with
      | none => simp [lineageWithin, contains, parent?, hc, hparent]
      | some parent => simp [lineageWithin, contains, parent?, hc, hparent]

/-- What is above and what is below the controls fit together: parents have smaller numbers, what a
control has below it has it as the parent, no name stands twice, and there is a root. -/
structure SoundTree (f : Form) : Prop where
  root_contained : f.contains root = true
  eq_root : ∀ {id : Nat}, f.contains id = true → f.parent? id = none → id = root
  parent_lt : ∀ {id parent : Nat}, f.parent? id = some parent → parent < id
  parent_contained : ∀ {id parent : Nat}, f.parent? id = some parent → f.contains parent = true
  parent_of_child : ∀ {id : ControlId} {c : Control}, f.control? id = some c →
    ∀ child ∈ c.children.ids, f.parent? child = some id
  names_nodup : ∀ {id : ControlId} {c : Control}, f.control? id = some c →
    ∀ parts, c.children = .named parts → (parts.map Prod.fst).Nodup

theorem lt_size_of_contains (hid : f.contains id = true) : id < f.slots.size := by
  refine Nat.lt_of_not_le fun hge => ?_
  have hnone : f.slots[id]? = none := Array.getElem?_eq_none hge
  simp [contains, control?, hnone] at hid

theorem isSome_state? (f : Form) (id : ControlId) : (f.state? id).isSome = f.contains id := by
  rw [state?, Option.isSome_map, contains]

theorem contains_of_parent? {parent : ControlId} (hparent : f.parent? id = some parent) :
    f.contains id = true := by
  unfold parent? at hparent
  obtain ⟨c, hc, -⟩ := Option.bind_eq_some_iff.1 hparent
  simp [contains, hc]

theorem mem_lineage_self (hid : f.contains id = true) : id ∈ f.lineage id := by
  obtain ⟨n, hn⟩ := Nat.exists_eq_succ_of_ne_zero (Nat.ne_of_gt (Nat.zero_lt_of_lt
    (lt_size_of_contains hid)))
  rw [lineage, hn, lineageWithin_succ, if_pos hid]
  split <;> simp

theorem contains_of_mem_lineageWithin {n : Nat} {member : ControlId}
    (hmem : member ∈ f.lineageWithin n id) : f.contains member = true := by
  induction n generalizing id with
  | zero => simp [lineageWithin] at hmem
  | succ n ih =>
      rw [lineageWithin_succ] at hmem
      split at hmem
      · rename_i hid
        split at hmem
        · rw [List.mem_singleton.1 hmem]
          exact hid
        · rcases List.mem_cons.1 hmem with rfl | hmem
          · exact hid
          · exact ih hmem
      · cases hmem

/-- The lineage of a control consists of controls of the form. -/
theorem contains_of_mem_lineage {member : ControlId} (hmem : member ∈ f.lineage id) :
    f.contains member = true :=
  contains_of_mem_lineageWithin hmem

private theorem mem_lineageWithin_of_parent? (sound : f.SoundTree) {n : Nat}
    {member parent : Nat} (hid : id < n) (hmem : member ∈ f.lineageWithin n id)
    (hparent : f.parent? member = some parent) : parent ∈ f.lineageWithin n id := by
  induction n generalizing id with
  | zero => omega
  | succ n ih =>
      rw [lineageWithin_succ] at hmem ⊢
      split at hmem
      · rename_i hcontained
        rw [if_pos hcontained]
        cases hup : f.parent? id with
        | none =>
            simp only [hup, List.mem_singleton] at hmem
            rw [hmem, hup] at hparent
            cases hparent
        | some up =>
            have hlt := sound.parent_lt hup
            simp only [hup, List.mem_cons] at hmem ⊢
            rcases hmem with rfl | hmem
            · -- the walk has just started, and its next step is the parent
              rw [hup] at hparent
              cases hparent
              obtain ⟨m, rfl⟩ : ∃ m, n = m + 1 := ⟨n - 1, by omega⟩
              refine .inr ?_
              rw [lineageWithin_succ, if_pos (sound.parent_contained hup)]
              split <;> simp
            · exact .inr (ih (by omega) hmem)
      · cases hmem

/-- With a control its lineage holds the parent of the control. -/
theorem SoundTree.mem_lineage_of_parent? (sound : f.SoundTree) {member parent : Nat}
    (hmem : member ∈ f.lineage id) (hparent : f.parent? member = some parent) :
    parent ∈ f.lineage id := by
  by_cases hid : f.contains id = true
  · exact mem_lineageWithin_of_parent? sound (lt_size_of_contains hid) hmem hparent
  · unfold lineage at hmem
    cases hsize : f.slots.size with
    | zero => simp [hsize, lineageWithin] at hmem
    | succ n => simp [hsize, lineageWithin_succ, hid] at hmem

theorem SameShape.soundTree (t : SameShape f g) (sound : f.SoundTree) : g.SoundTree where
  root_contained := t.contains root ▸ sound.root_contained
  eq_root hid hparent := sound.eq_root (t.contains _ ▸ hid) (t.parent? _ ▸ hparent)
  parent_lt hparent := sound.parent_lt (t.parent? _ ▸ hparent)
  parent_contained hparent :=
    t.contains _ ▸ sound.parent_contained (t.parent? _ ▸ hparent)
  parent_of_child {id c} hc child hchild := by
    obtain ⟨d, hd, hchildren⟩ := Option.map_eq_some_iff.1
      ((t.children id).trans (congrArg (Option.map Control.children) hc))
    rw [← t.parent? child]
    exact sound.parent_of_child hd child (hchildren ▸ hchild)
  names_nodup {id c} hc parts hparts := by
    obtain ⟨d, hd, hchildren⟩ := Option.map_eq_some_iff.1
      ((t.children id).trans (congrArg (Option.map Control.children) hc))
    exact sound.names_nodup hd parts (hchildren.trans hparts)

theorem SameTree.soundTree (t : SameTree f g) (sound : f.SoundTree) : g.SoundTree :=
  t.shape.soundTree sound

/-! ## Paths -/

theorem SoundTree.contains_of_child? (sound : f.SoundTree) {segment : String} {child : ControlId}
    (hchild : f.child? id segment = some child) : f.contains child = true := by
  unfold child? at hchild
  obtain ⟨c, hc, hfind⟩ := Option.bind_eq_some_iff.1 hchild
  have hmem : child ∈ c.children.ids := by
    cases hkids : c.children with
    | none => simp [hkids, Children.find?] at hfind
    | named parts =>
        rw [hkids, Children.find?] at hfind
        obtain ⟨before, after, hparts, -⟩ := List.lookup_eq_some_iff.1 hfind
        simp [Children.ids, hparts]
    | indexed items =>
        rw [hkids, Children.find?] at hfind
        obtain ⟨i, -, hget⟩ := Option.bind_eq_some_iff.1 hfind
        exact List.mem_of_getElem? hget
  exact contains_of_parent? (sound.parent_of_child hc child hmem)

/-- A path that starts at a control of the form leads to a control of the form. -/
theorem SoundTree.contains_of_resolve (sound : f.SoundTree) {anchor target : ControlId}
    {path : String} (hanchor : f.contains anchor = true)
    (hresolve : f.resolve anchor path = some target) : f.contains target = true := by
  unfold resolve Navigator.resolve at hresolve
  generalize Step.ofPath path = steps at hresolve
  induction steps generalizing anchor with
  | nil =>
      cases hresolve
      exact hanchor
  | cons step steps ih =>
      simp only [Navigator.follow] at hresolve
      obtain ⟨next, hstep, hrest⟩ := Option.bind_eq_some_iff.1 hresolve
      refine ih ?_ hrest
      cases step with
      | root =>
          cases hstep
          exact sound.root_contained
      | parent => exact sound.parent_contained hstep
      | current =>
          cases hstep
          exact hanchor
      | child name => exact sound.contains_of_child? hstep

theorem SoundTree.contains_anchor (sound : f.SoundTree) (id : ControlId) :
    f.contains (Scheduler.anchor f id) = true := by
  unfold Scheduler.anchor
  cases hparent : f.parent? id with
  | none => exact sound.root_contained
  | some parent => exact sound.parent_contained hparent

end Form

end ReactiveForm
