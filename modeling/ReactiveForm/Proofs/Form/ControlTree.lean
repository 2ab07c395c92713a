import ReactiveForm.Proofs.Form.Layout

/-!
# The controls of a form are a tree

What is above and what is below a control is recorded twice, in the parent of each control and in
the children that each control lists. `Form.ControlTree` says that the two records agree, that the
root is above everything, and that the children of a control are those that the shape of its
property asks for. It needs that no two parts of one object have the same name
(`Model.DistinctNames`): of several parts with one name only the last one is listed.

The invariant holds of every built form (`controlTree_build`). From it come the facts that walks
rely on: the controls of the form are the descendants of the root (`contains_iff_descends`), and the
subtree of a control are its descendants (`mem_subtree`).
-/

namespace ReactiveForm

/-! ## Shapes with distinct names -/

/-- No two parts of an object have the same name, here and everywhere below. -/
inductive Shape.DistinctNames : Shape → Prop where
  | value : DistinctNames .value
  | object {children : List Property} (hnodup : (children.filterMap Property.name).Nodup)
      (hparts : ∀ p ∈ children, p.shape.DistinctNames) : DistinctNames (.object children)
  | array {item : Property} (hitem : item.shape.DistinctNames) : DistinctNames (.array item)

/-- No two properties at the top have the same name, and no two parts of one object do. -/
def Model.DistinctNames (m : Model) : Prop := (Shape.object m.properties).DistinctNames

namespace Shape

theorem DistinctNames.names_nodup {shape : Shape} (h : shape.DistinctNames) :
    shape.names.Nodup := by
  cases h with
  | object hnodup => exact hnodup
  | _ => exact .nil

/-- The entries of an object are those of its parts that have a name. -/
theorem map_name_entries (children : List Property) (data : Json) :
    ((object children).entries data).map (fun e => e.1.name) =
      (children.filterMap Property.name).map some := by
  rw [entries]
  induction children with
  | nil => rfl
  | cons p children ih =>
      cases hname : p.name with
      | none => simpa only [List.filterMap_cons, hname, Option.map_none] using ih
      | some name => simp only [List.filterMap_cons, hname, Option.map_some, List.map_cons, ih]

/-- What is below a shape is described by properties with distinct names again. -/
theorem DistinctNames.entries {shape : Shape} (h : shape.DistinctNames) {data : Json}
    {e : Property × Json} (he : e ∈ shape.entries data) : e.1.shape.DistinctNames := by
  cases h with
  | value => cases he
  | object _ hparts =>
      obtain ⟨p, hp, hname⟩ := List.mem_filterMap.1 he
      obtain ⟨_, -, rfl⟩ := Option.map_eq_some_iff.1 hname
      exact hparts p hp
  | array hitem =>
      obtain ⟨_, -, rfl⟩ := List.mem_map.1 he
      exact hitem

theorem length_names (children : List Property) (data : Json) :
    (children.filterMap Property.name).length = ((object children).entries data).length := by
  have hlength := congrArg List.length (map_name_entries children data)
  rw [List.length_map, List.length_map] at hlength
  exact hlength.symm

/-- If the names are distinct, every control of an entry is found from above. -/
theorem DistinctNames.perm_arrange {shape : Shape} (h : shape.DistinctNames) {data : Json}
    {below : List Nat} (hlength : below.length = (shape.entries data).length) :
    (shape.arrange below).ids.Perm below := by
  cases h with
  | value =>
      rw [List.length_eq_zero_iff.1 hlength]
      exact .refl _
  | @object children hnodup _ =>
      have hsame : below.length = (children.filterMap Property.name).length :=
        hlength.trans (length_names children data).symm
      have hfst : ((children.filterMap Property.name).zip below).map Prod.fst =
          children.filterMap Property.name := List.map_fst_zip (Nat.le_of_eq hsame.symm)
      have hperm := (Keyed.perm_ofList (hfst ▸ hnodup)).map Prod.snd
      rwa [List.map_snd_zip (Nat.le_of_eq hsame)] at hperm
  | array => exact .refl _

theorem mem_of_mem_arrange {shape : Shape} {below : List Nat} {id : Nat}
    (hid : id ∈ (shape.arrange below).ids) : id ∈ below := by
  cases shape with
  | value => cases hid
  | object children =>
      obtain ⟨⟨name, _⟩, hmem, rfl⟩ := List.mem_map.1 hid
      exact (List.of_mem_zip (Keyed.mem_of_mem_ofList hmem)).2
  | array item => exact hid

end Shape

/-- The shape that describes a control: that of its property, or that of the whole model. -/
def Control.shape (m : Model) (c : Control) : Shape :=
  (c.property.map Property.shape).getD (.object m.properties)

/-- A control is described in the same way as another one, and has the same above and below it. -/
structure Control.Replaces (d c : Control) : Prop where
  parent : d.parent = c.parent
  children : d.children = c.children
  property : d.property = c.property

namespace Form

variable {f g : Form} {m : Model} {id : Nat}

theorem SameTree.exists_control (t : SameTree f g) {c : Control} (hc : f.control? id = some c) :
    ∃ d, g.control? id = some d ∧ d.Replaces c := by
  obtain ⟨d, hd, hskeleton⟩ := Option.map_eq_some_iff.1
    ((t.skeleton id).symm.trans (congrArg (Option.map Control.skeleton) hc))
  simp only [Control.skeleton, Control.mk.injEq] at hskeleton
  obtain ⟨hparent, hchildren, -, hproperty, -⟩ := hskeleton
  exact ⟨d, hd, hparent, hchildren, hproperty⟩

/-! ## Children that fit a shape -/

/-- The children of a control are those that a shape asks for: none for a value, one for each named
part of an object under its name, and items that are all described by the template of an array. -/
inductive Fits (f : Form) : Shape → Children → Prop where
  | value : Fits f .value .none
  | object {children : List Property} {parts : List (String × ControlId)}
      (hsorted : Keyed.Ascending parts)
      (hkeys : ∀ name, name ∈ parts.map Prod.fst ↔ ∃ p ∈ children, p.name = some name)
      (hparts : ∀ name id, (name, id) ∈ parts →
        ∃ p ∈ children, p.name = some name ∧ f.property? id = some p) :
      Fits f (.object children) (.named parts)
  | array {item : Property} {items : List ControlId}
      (hitems : ∀ id ∈ items, f.property? id = some item) : Fits f (.array item) (.indexed items)

theorem Fits.congr {shape : Shape} {children : Children} (h : f.Fits shape children)
    (hsame : ∀ id ∈ children.ids, g.property? id = f.property? id) : g.Fits shape children := by
  cases h with
  | value => exact .value
  | object hsorted hkeys hparts =>
      refine .object hsorted hkeys fun name id hmem => ?_
      rw [hsame id (List.mem_map.2 ⟨_, hmem, rfl⟩)]
      exact hparts name id hmem
  | array hitems => exact .array fun id hmem => (hsame id hmem).trans (hitems id hmem)

theorem Fits.names_nodup {shape : Shape} {children : Children} (h : f.Fits shape children) :
    ∀ parts, children = .named parts → (parts.map Prod.fst).Nodup := by
  rintro parts rfl
  cases h with
  | object hsorted => exact hsorted.nodup_keys

/-- The property of a listed control has a shape with distinct names if the shape above has. -/
theorem Fits.exists_property {shape : Shape} {children : Children} (h : f.Fits shape children)
    (hshape : shape.DistinctNames) (hid : id ∈ children.ids) :
    ∃ p, f.property? id = some p ∧ p.shape.DistinctNames := by
  cases h with
  | value => cases hid
  | object _ _ hparts =>
      obtain ⟨⟨name, _⟩, hmem, rfl⟩ := List.mem_map.1 hid
      obtain ⟨p, hp, -, hproperty⟩ := hparts name _ hmem
      cases hshape with
      | object _ hdistinct => exact ⟨p, hproperty, hdistinct p hp⟩
  | @array item _ hitems =>
      cases hshape with
      | array hitem => exact ⟨item, hitems id hid, hitem⟩

/-- What is described by a shape has the children in place that the shape asks for. -/
theorem Laid.fits {shape : Shape} {data : Json} {parent first stop : Nat} {below : List Nat}
    (h : f.Laid parent first (shape.entries data) below stop) :
    f.Fits shape (shape.arrange below) := by
  have hproperty := h.map_property?
  cases shape with
  | value => exact .value
  | object children =>
      have hlength := congrArg List.length hproperty
      rw [List.length_map, List.length_map, ← Shape.length_names] at hlength
      refine .object (Keyed.ascending_ofList _) (fun name => ?_) fun name id hmem => ?_
      · rw [Keyed.mem_keys_ofList, List.map_fst_zip (Nat.le_of_eq hlength.symm),
          List.mem_filterMap]
      · -- the name and the control stand at one index, where the entry stands too
        obtain ⟨i, hi⟩ := List.mem_iff_getElem?.1 (Keyed.mem_of_mem_ofList hmem)
        obtain ⟨hname, hid⟩ := List.getElem?_zip_eq_some.1 hi
        have hnames := congrArg (·[i]?) (Shape.map_name_entries children data)
        have hproperties := congrArg (·[i]?) hproperty
        simp only [List.getElem?_map, hname, hid, Option.map_some] at hnames hproperties
        obtain ⟨e, he, hpart⟩ := Option.map_eq_some_iff.1 hnames
        rw [he] at hproperties
        obtain ⟨p, hp, hentry⟩ := List.mem_filterMap.1 (List.mem_of_getElem? he)
        obtain ⟨_, -, rfl⟩ := Option.map_eq_some_iff.1 hentry
        exact ⟨p, hp, hpart, Option.some.inj hproperties⟩
  | array item =>
      refine .array fun id hmem => ?_
      obtain ⟨i, hi⟩ := List.mem_iff_getElem?.1 hmem
      have hproperties := congrArg (·[i]?) hproperty
      simp only [Shape.entries, List.getElem?_map, hi, Option.map_some, Option.map_map] at hproperties
      obtain ⟨_, -, heq⟩ := Option.map_eq_some_iff.1 hproperties.symm
      exact heq.symm

/-! ## The invariant -/

/-- The control above a control has the smaller number and lists it exactly once. -/
def Listed (f : Form) (id : Nat) : Prop :=
  ∃ parent c, f.parent? id = some parent ∧ parent < id ∧ f.control? parent = some c ∧
    c.children.ids.count id = 1

/-- The controls are a tree of the shapes of a model, and what is above and what is below them
agrees. -/
structure ControlTree (m : Model) (f : Form) : Prop where
  /-- The root is a group with nothing above it. -/
  root : ∃ c, f.control? root = some c ∧ c.kind = .group ∧ c.parent = none ∧ c.property = none
  /-- Every other control is listed by the control above it. -/
  listed : ∀ {id : Nat}, f.contains id = true → id ≠ Form.root → f.Listed id
  /-- Whatever a control lists is there and has it as the parent. -/
  child : ∀ {id : Nat} {c : Control}, f.control? id = some c →
    ∀ x ∈ c.children.ids, f.parent? x = some id
  /-- The children of a control fit its shape. -/
  fits : ∀ {id : Nat} {c : Control}, f.control? id = some c → f.Fits (c.shape m) c.children

namespace ControlTree

theorem parent?_root (h : f.ControlTree m) : f.parent? Form.root = none := by
  obtain ⟨c, hc, -, hparent, -⟩ := h.root
  rw [parent?, hc]
  exact hparent

theorem soundTree (h : f.ControlTree m) : f.SoundTree where
  root_contained := by
    obtain ⟨c, hc, -⟩ := h.root
    rw [contains, hc]
    rfl
  eq_root hid hnone := by
    refine Classical.byContradiction fun hne => ?_
    obtain ⟨_, _, hparent, -⟩ := h.listed hid hne
    cases hnone.symm.trans hparent
  parent_lt {id parent} hparent := by
    have hne : id ≠ Form.root := by
      rintro rfl
      cases h.parent?_root.symm.trans hparent
    obtain ⟨_, _, hup, hlt, -⟩ := h.listed (contains_of_parent? hparent) hne
    cases hparent.symm.trans hup
    exact hlt
  parent_contained {id parent} hparent := by
    have hne : id ≠ Form.root := by
      rintro rfl
      cases h.parent?_root.symm.trans hparent
    obtain ⟨_, c, hup, -, hc, -⟩ := h.listed (contains_of_parent? hparent) hne
    cases hparent.symm.trans hup
    rw [contains, hc]
    rfl
  parent_of_child := h.child
  names_nodup hc := (h.fits hc).names_nodup

/-- The tree is there as long as nothing of it changes. -/
theorem sameTree (h : f.ControlTree m) (t : SameTree f g) : g.ControlTree m := by
  refine ⟨?_, fun {id} hid hne => ?_, fun {id d} hd x hx => ?_, fun {id d} hd => ?_⟩
  · obtain ⟨c, hc, hkind, hparent, hproperty⟩ := h.root
    obtain ⟨d, hd, hlinks⟩ := t.exists_control hc
    refine ⟨d, hd, ?_, hlinks.parent.trans hparent, hlinks.property.trans hproperty⟩
    rw [Control.kind, hlinks.children]
    exact hkind
  · obtain ⟨parent, c, hparent, hlt, hc, hcount⟩ := h.listed ((t.contains id).trans hid) hne
    obtain ⟨d, hd, hlinks⟩ := t.exists_control hc
    exact ⟨parent, d, (t.parent? id).symm.trans hparent, hlt, hd, hlinks.children ▸ hcount⟩
  · obtain ⟨c, hc, hlinks⟩ := t.symm.exists_control hd
    exact (t.parent? x).symm.trans (h.child hc x (hlinks.children ▸ hx))
  · obtain ⟨c, hc, hlinks⟩ := t.symm.exists_control hd
    have hfits := (h.fits hc).congr fun id _ => (t.property? id).symm
    rwa [Control.shape, hlinks.children, hlinks.property, ← Control.shape] at hfits

/-- What a control lists is there. -/
theorem lt_size_of_mem (h : f.ControlTree m) {c : Control} {x : Nat} (hc : f.control? id = some c)
    (hx : x ∈ c.children.ids) : x < f.slots.size :=
  lt_size_of_contains (contains_of_parent? (h.child hc x hx))

theorem contains_root (h : f.ControlTree m) : f.contains Form.root = true :=
  h.soundTree.root_contained

/-- If the names of the model are distinct, those of every shape in the form are. -/
theorem distinctNames (h : f.ControlTree m) (hm : m.DistinctNames) {c : Control}
    (hc : f.control? id = some c) : (c.shape m).DistinctNames := by
  -- a shape is reached from above, so the induction is on the number
  induction id using Nat.strongRecOn generalizing c with
  | ind id ih =>
    by_cases hroot : id = Form.root
    · obtain ⟨r, hr, -, -, hproperty⟩ := h.root
      subst hroot
      cases hc.symm.trans hr
      rw [Control.shape, hproperty]
      exact hm
    · obtain ⟨parent, p, -, hlt, hp, hcount⟩ :=
        h.listed (by rw [contains, hc]; rfl) hroot
      have hmem : id ∈ p.children.ids := List.count_pos_iff.1 (by omega)
      have hproperty : f.property? id = c.property := by rw [property?, hc]; rfl
      obtain ⟨q, hq, hshape⟩ := (h.fits hp).exists_property (ih parent hlt hp) hmem
      rw [Control.shape, ← hproperty, hq]
      exact hshape

end ControlTree

/-! ## Built forms -/

namespace Laid

variable {parent first stop : Nat} {entries : List (Property × Json)} {ids : List Nat}

theorem length (h : f.Laid parent first entries ids stop) : ids.length = entries.length := by
  have hlength := congrArg List.length h.map_property?
  rwa [List.length_map, List.length_map] at hlength

/-- A control lists each control of the row below it once. -/
theorem listed_of_mem {shape : Shape} {data : Json} {c : Control}
    (h : f.Laid parent first (shape.entries data) ids stop) (hshape : shape.DistinctNames)
    (hc : f.control? parent = some c) (hchildren : c.children = shape.arrange ids)
    (hlt : parent < first) (hid : id ∈ ids) : f.Listed id := by
  refine ⟨parent, c, h.parent? hid, Nat.lt_of_lt_of_le hlt (h.mem_range hid).1, hc, ?_⟩
  rw [hchildren, (hshape.perm_arrange h.length).count_eq]
  exact h.nodup.count.trans (if_pos hid)

/-- Whatever is in the row but is not the control of an entry is listed by the control above it. -/
theorem listed (h : f.Laid parent first entries ids stop)
    (hdistinct : ∀ e ∈ entries, e.1.shape.DistinctNames) (hfirst : first ≤ id) (hstop : id < stop) :
    id ∈ ids ∨ f.Listed id := by
  induction h with
  | nil => omega
  | @cons _ first middle _ p data _ _ _ hcontrol hbelow _ ihbelow ihrest =>
      have hshape := hdistinct (p, data) List.mem_cons_self
      rcases Nat.lt_or_ge id middle with hlt | hge
      · rcases Nat.eq_or_lt_of_le hfirst with rfl | hgt
        · exact .inl List.mem_cons_self
        · rcases ihbelow (fun e he => hshape.entries he) hgt hlt with hmem | hlisted
          · exact .inr (hbelow.listed_of_mem hshape hcontrol rfl (Nat.lt_succ_self _) hmem)
          · exact .inr hlisted
      · exact (ihrest (fun e he => hdistinct e (List.mem_cons_of_mem _ he)) hge hstop).imp_left
          (List.mem_cons_of_mem _)

end Laid

/-- A control stands in front of the row of what is below it. -/
def Heads (m : Model) (f : Form) (id : Nat) (c : Control) : Prop :=
  ∃ data below stop, c.children = (c.shape m).arrange below ∧
    f.Laid id (id + 1) ((c.shape m).entries data) below stop

/-- Every control of a row stands in front of what is below it. -/
theorem Laid.heads {parent first stop : Nat} {entries : List (Property × Json)} {ids : List Nat}
    (h : f.Laid parent first entries ids stop) {c : Control} (hc : f.control? id = some c)
    (hfirst : first ≤ id) (hstop : id < stop) : f.Heads m id c := by
  induction h with
  | nil => omega
  | @cons _ first middle _ p data below _ _ hcontrol hbelow _ ihbelow ihrest =>
      rcases Nat.lt_or_ge id middle with hlt | hge
      · rcases Nat.eq_or_lt_of_le hfirst with rfl | hgt
        · cases hcontrol.symm.trans hc
          exact ⟨data, below, middle, rfl, hbelow⟩
        · exact ihbelow hgt hlt
      · exact ihrest hge hstop

theorem Heads.child {c : Control} (h : f.Heads m id c) :
    ∀ x ∈ c.children.ids, f.parent? x = some id := by
  obtain ⟨data, below, stop, hchildren, hrow⟩ := h
  intro x hx
  exact hrow.parent? (Shape.mem_of_mem_arrange (hchildren ▸ hx))

theorem Heads.fits {c : Control} (h : f.Heads m id c) : f.Fits (c.shape m) c.children := by
  obtain ⟨data, below, stop, hchildren, hrow⟩ := h
  exact hchildren ▸ hrow.fits

variable {data : Json} {c : Config}

theorem holds_sprout (m : Model) (data : Json) (c : Config) :
    (sprout m data c).Holds root
      ((Shape.object m.properties).block none none root data) := by
  intro i k hk
  rw [control?_sprout, root, Nat.zero_add]
  exact hk

theorem lt_of_control?_sprout {k : Control} (hk : (sprout m data c).control? id = some k) :
    id < root + ((Shape.object m.properties).block none none root data).length := by
  rw [control?_sprout] at hk
  have := (List.getElem?_eq_some_iff.1 hk).1
  omega

private theorem controlTree_sprout (hm : m.DistinctNames) : (sprout m data c).ControlTree m := by
  obtain ⟨below, hroot, hrow⟩ := Shape.laid_block none none root _ data (holds_sprout m data c)
  have hheads : ∀ {id : Nat} {k : Control}, (sprout m data c).control? id = some k →
      (sprout m data c).Heads m id k := by
    intro id k hk
    rcases Nat.eq_zero_or_pos id with rfl | hpos
    · cases hroot.symm.trans hk
      exact ⟨data, below, _, rfl, hrow⟩
    · exact hrow.heads hk hpos (lt_of_control?_sprout hk)
  refine ⟨⟨_, hroot, rfl, rfl, rfl⟩, fun {id} hid hne => ?_, fun hk => (hheads hk).child,
    fun hk => (hheads hk).fits⟩
  obtain ⟨k, hk⟩ := Option.isSome_iff_exists.1 hid
  rcases hrow.listed (fun e he => Shape.DistinctNames.entries hm he) (Nat.pos_of_ne_zero hne)
    (lt_of_control?_sprout hk) with hmem | hlisted
  · exact hrow.listed_of_mem hm hroot rfl (Nat.lt_succ_self _) hmem
  · exact hlisted

/-- The controls of a built form are a tree. -/
theorem controlTree_build (hm : m.DistinctNames) : (build m data c).ControlTree m :=
  (controlTree_sprout hm).sameTree (sameDocument_build m data c).sameTree.symm

/-! ## Descendants -/

/-- A control lists another one below it. -/
def Lists (f : Form) (id child : Nat) : Prop :=
  ∃ c, f.control? id = some c ∧ child ∈ c.children.ids

/-- What a control and the controls below it list, again and again. The control is among it. -/
inductive Descends (f : Form) (top : Nat) : Nat → Prop where
  | self (hlive : f.contains top = true) : Descends f top top
  | child {id child : Nat} (h : Descends f top id) (hchild : f.Lists id child) :
      Descends f top child

namespace Descends

variable {top : Nat}

theorem head {child : Nat} (hchild : f.Lists top child) (h : f.Descends child id) :
    f.Descends top id := by
  induction h with
  | self hlive =>
      obtain ⟨c, hc, hmem⟩ := hchild
      exact .child (.self (by rw [Form.contains, hc]; rfl)) ⟨c, hc, hmem⟩
  | child _ hnext ih => exact .child ih hnext

/-- A descendant is the control itself, or the descendant of a control that it lists. -/
theorem cases_head (sound : f.SoundTree) (h : f.Descends top id) :
    id = top ∨ ∃ child, f.Lists top child ∧ f.Descends child id := by
  induction h with
  | self => exact .inl rfl
  | @child id child _ hchild ih =>
      refine .inr ?_
      rcases ih with rfl | ⟨first, hfirst, hbelow⟩
      · have hlive : f.contains child = true := by
          obtain ⟨c, hc, hmem⟩ := hchild
          exact contains_of_parent? (sound.parent_of_child hc child hmem)
        exact ⟨child, hchild, .self hlive⟩
      · exact ⟨first, hfirst, .child hbelow hchild⟩

theorem contains (sound : f.SoundTree) (h : f.Descends top id) : f.contains id = true := by
  cases h with
  | self hlive => exact hlive
  | child _ hchild =>
      obtain ⟨c, hc, hmem⟩ := hchild
      exact contains_of_parent? (sound.parent_of_child hc _ hmem)

theorem le (sound : f.SoundTree) (h : f.Descends top id) : top ≤ id := by
  induction h with
  | self => exact Nat.le_refl _
  | child _ hchild ih =>
      obtain ⟨c, hc, hmem⟩ := hchild
      exact Nat.le_trans ih (Nat.le_of_lt (sound.parent_lt (sound.parent_of_child hc _ hmem)))

end Descends

/-- The controls of a tree are the descendants of its root. -/
theorem ControlTree.contains_iff_descends (h : f.ControlTree m) (id : Nat) :
    f.contains id = true ↔ f.Descends Form.root id := by
  refine ⟨fun hid => ?_, fun hid => hid.contains h.soundTree⟩
  induction id using Nat.strongRecOn with
  | ind id ih =>
    by_cases hroot : id = Form.root
    · rw [hroot]
      exact .self h.contains_root
    · obtain ⟨parent, c, -, hlt, hc, hcount⟩ := h.listed hid hroot
      exact .child (ih parent hlt (by rw [contains, hc]; rfl))
        ⟨c, hc, List.count_pos_iff.1 (by omega)⟩

theorem subtreeWithin_succ (f : Form) (n : Nat) (id : Nat) :
    f.subtreeWithin (n + 1) id =
      ((f.control? id).map fun c => id :: c.children.ids.flatMap (f.subtreeWithin n)).getD [] := by
  rw [subtreeWithin]
  cases f.control? id <;> rfl

/-- The subtree of a control consists of its descendants. -/
theorem SoundTree.mem_subtree (sound : f.SoundTree) {top : Nat} :
    id ∈ f.subtree top ↔ f.Descends top id := by
  -- below a control the numbers rise, so the steps that are left reach the end of the slots
  have hwithin : ∀ n top : Nat, f.slots.size ≤ top + n →
      (id ∈ f.subtreeWithin n top ↔ f.Descends top id) := by
    intro n
    induction n with
    | zero =>
        intro top hsize
        refine ⟨fun hmem => absurd hmem List.not_mem_nil, fun hid => ?_⟩
        have hle := hid.le sound
        have hlt := lt_size_of_contains (hid.contains sound)
        omega
    | succ n ih =>
        intro top hsize
        rw [subtreeWithin_succ]
        cases hc : f.control? top with
        | none =>
            refine ⟨fun hmem => absurd hmem List.not_mem_nil, fun hid => ?_⟩
            rcases hid.cases_head sound with rfl | ⟨child, ⟨c, hc', -⟩, -⟩
            · have hlive := hid.contains sound
              simp [contains, hc] at hlive
            · cases hc.symm.trans hc'
        | some c =>
            have hrec : ∀ child ∈ c.children.ids,
                (id ∈ f.subtreeWithin n child ↔ f.Descends child id) := fun child hchild => by
              have hlt := sound.parent_lt (sound.parent_of_child hc child hchild)
              exact ih child (by omega)
            rw [Option.map_some, Option.getD_some, List.mem_cons, List.mem_flatMap]
            constructor
            · rintro (rfl | ⟨child, hchild, hmem⟩)
              · exact .self (by rw [contains, hc]; rfl)
              · exact .head ⟨c, hc, hchild⟩ ((hrec child hchild).1 hmem)
            · intro hid
              rcases hid.cases_head sound with hself | ⟨child, ⟨c', hc', hchild⟩, hbelow⟩
              · exact .inl hself
              · cases hc.symm.trans hc'
                exact .inr ⟨child, hchild, (hrec child hchild).2 hbelow⟩
  exact hwithin _ top (Nat.le_add_left _ _)

end Form

end ReactiveForm
