import ReactiveForm.Proofs.Form.Replacement

/-!
# Forms with the same document

The numbers of controls depend on what was done with a form, but what can be seen of a form by its
paths does not. Two controls of two forms match if the same steps lead to them from the roots
(`Matches`). If the forms are trees of the same model and have the same document, then matching
controls are described by the same shape and have the same value (`Matches.same`), and every control
has a match (`exists_matches`). So the same paths are resolved in both forms, to controls that look
the same (`look_get?`).
-/

namespace ReactiveForm

/-! ## Steps between controls -/

/-- The control below a control that a step leads to. -/
def Children.at? (step : Segment) : Children → Option ControlId
  | none => Option.none
  | named parts =>
    match step with
    | .key name => parts.lookup name
    | _ => Option.none
  | indexed items =>
    match step with
    | .index n => items[n]?
    | _ => Option.none

theorem Children.at?_cases {children : Children} {step : Segment} {id : ControlId}
    (h : children.at? step = some id) :
    (∃ parts name, children = .named parts ∧ step = .key name ∧ parts.lookup name = some id) ∨
      ∃ items n, children = .indexed items ∧ step = .index n ∧ items[n]? = some id := by
  cases children with
  | none => cases h
  | named parts =>
      cases step with
      | key name => exact .inl ⟨parts, name, rfl, rfl, h⟩
      | _ => cases h
  | indexed items =>
      cases step with
      | index n => exact .inr ⟨items, n, rfl, rfl, h⟩
      | _ => cases h

theorem Children.mem_ids_of_at? {children : Children} {step : Segment} {id : ControlId}
    (h : children.at? step = some id) : id ∈ children.ids := by
  obtain ⟨parts, name, rfl, rfl, hlookup⟩ | ⟨items, n, rfl, rfl, hget⟩ := at?_cases h
  · exact List.mem_map.2 ⟨_, Keyed.mem_of_lookup hlookup, rfl⟩
  · exact List.mem_of_getElem? hget

/-- The step that leads to a control is the one that the control is found by. -/
theorem Children.place?_of_at? {children : Children} {step : Segment} {id : ControlId}
    (honce : children.ids.Nodup) (h : children.at? step = some id) :
    children.place? id = some step := by
  obtain ⟨parts, name, rfl, rfl, hlookup⟩ | ⟨items, n, rfl, rfl, hget⟩ := at?_cases h
  · have hmem := Keyed.mem_of_lookup hlookup
    have hsome : (parts.find? fun p => p.2 == id).isSome = true :=
      List.find?_isSome.2 ⟨_, hmem, beq_self_eq_true _⟩
    obtain ⟨found, hfind⟩ := Option.isSome_iff_exists.1 hsome
    have hid : found.2 = id := by simpa using List.find?_some hfind
    have heq := List.inj_on_of_nodup_map honce (List.mem_of_find?_eq_some hfind) hmem hid
    rw [place?, hfind, heq]
    rfl
  · obtain ⟨hlt, rfl⟩ := List.getElem?_eq_some_iff.1 hget
    rw [place?, Option.map_eq_some_iff]
    refine ⟨n, List.findIdx?_eq_some_iff_getElem.2 ⟨hlt, beq_self_eq_true _, fun j hj => ?_⟩, rfl⟩
    have hne : items[j] ≠ items[n] := fun heq =>
      absurd ((honce.getElem_inj_iff).1 heq) (Nat.ne_of_lt hj)
    simpa using hne

/-- Some step leads to every listed control. -/
theorem Children.exists_at? {children : Children} {id : ControlId}
    (hnames : ∀ parts, children = .named parts → (parts.map Prod.fst).Nodup)
    (hid : id ∈ children.ids) : ∃ step, children.at? step = some id := by
  cases children with
  | none => cases hid
  | named parts =>
      obtain ⟨part, hpart, rfl⟩ := List.mem_map.1 hid
      exact ⟨.key part.1, Keyed.lookup_of_mem (hnames parts rfl) hpart⟩
  | indexed items =>
      obtain ⟨n, hn⟩ := List.mem_iff_getElem?.1 hid
      exact ⟨.index n, hn⟩

/-- A segment of a path is the key of a part or the index of an item. -/
theorem Children.find?_eq (children : Children) (segment : String) :
    children.find? segment = (children.at? (.key segment)).or
      ((Text.readWord? segment).bind fun n => children.at? (.index n)) := by
  cases children with
  | none => cases Text.readWord? segment <;> rfl
  | named parts =>
      simp only [find?, at?]
      cases parts.lookup segment <;> cases Text.readWord? segment <;> rfl
  | indexed items => rfl

/-- The shape that a step leads to from a shape. -/
def Shape.next? (step : Segment) : Shape → Option Shape
  | object children =>
    match step with
    | .key name => (children.find? fun p => p.name == some name).map Property.shape
    | _ => Option.none
  | array item =>
    match step with
    | .index _ => some item.shape
    | _ => Option.none
  | value => Option.none

namespace Form

variable {f g : Form} {m : Model} {x y : Nat} {step : Segment}

/-- The control that one step leads to. -/
def step? (f : Form) (id : ControlId) (step : Segment) : Option ControlId :=
  (f.control? id).bind fun c => c.children.at? step

theorem child?_eq (f : Form) (id : ControlId) (segment : String) :
    f.child? id segment = (f.step? id (.key segment)).or
      ((Text.readWord? segment).bind fun n => f.step? id (.index n)) := by
  unfold child? step?
  cases f.control? id with
  | none => cases Text.readWord? segment <;> rfl
  | some c => exact c.children.find?_eq segment

namespace ControlTree

variable (h : f.ControlTree m)

include h

theorem parent?_of_step {x' : Nat} (hstep : f.step? x step = some x') :
    f.parent? x' = some x := by
  obtain ⟨c, hc, hat⟩ := Option.bind_eq_some_iff.1 hstep
  exact h.child hc x' (Children.mem_ids_of_at? hat)

/-- The value that a step leads to is the value of the control that it leads to. -/
theorem enter_value {x' : Nat} (hstep : f.step? x step = some x') :
    (f.value x).enter step = f.value x' := by
  obtain ⟨c, hc, hat⟩ := Option.bind_eq_some_iff.1 hstep
  have hfits := h.fits hc
  rw [h.soundTree.value_eq hc]
  obtain ⟨parts, name, hchildren, rfl, hlookup⟩ | ⟨items, n, hchildren, rfl, hget⟩ :=
    Children.at?_cases hat
  · rw [hchildren] at hfits
    simp only [Control.assemble, hchildren, Json.enter]
    generalize c.shape m = shape at hfits
    cases hfits with
    | object hsorted =>
        exact Json.field_of_mem (hsorted.map f.value)
          (List.mem_map.2 ⟨_, Keyed.mem_of_lookup hlookup, rfl⟩)
  · simp only [Control.assemble, hchildren, Json.enter, Json.item, Json.items, List.getElem?_map,
      hget]
    rfl

/-- The shape that a step leads to is the shape of the control that it leads to. -/
theorem next?_shape (hm : m.DistinctNames) {c : Control} {x' : Nat} (hc : f.control? x = some c)
    (hstep : f.step? x step = some x') :
    ∃ c', f.control? x' = some c' ∧ (c.shape m).next? step = some (c'.shape m) := by
  obtain ⟨k, hk, hat⟩ := Option.bind_eq_some_iff.1 hstep
  cases hk.symm.trans hc
  have hfits := h.fits hc
  have hdistinct := h.distinctNames hm hc
  -- the step leads to a control that is described by a property of the shape
  have hdescribed : ∀ {p : Property}, f.property? x' = some p →
      ∃ c', f.control? x' = some c' ∧ c'.shape m = p.shape := by
    intro p hp
    obtain ⟨c', hc', hproperty⟩ := Option.bind_eq_some_iff.1 hp
    exact ⟨c', hc', by rw [Control.shape, hproperty]; rfl⟩
  generalize c.shape m = shape at hfits hdistinct
  obtain ⟨parts, name, hchildren, rfl, hlookup⟩ | ⟨items, n, hchildren, rfl, hget⟩ :=
    Children.at?_cases hat
  · rw [hchildren] at hfits
    cases hfits with
    | @object children _ _ _ hparts =>
        cases hdistinct with
        | object hnodup =>
            obtain ⟨p, hp, hname, hproperty⟩ := hparts name x' (Keyed.mem_of_lookup hlookup)
            obtain ⟨c', hc', hshape⟩ := hdescribed hproperty
            have hsome : (children.find? fun p => p.name == some name).isSome = true :=
              List.find?_isSome.2 ⟨p, hp, beq_iff_eq.2 hname⟩
            obtain ⟨q, hq⟩ := Option.isSome_iff_exists.1 hsome
            have hqname : q.name = some name := by simpa using List.find?_some hq
            cases Shape.eq_of_name hnodup hp (List.mem_of_find?_eq_some hq) hname hqname
            exact ⟨c', hc', by rw [Shape.next?, hq, hshape]; rfl⟩
  · rw [hchildren] at hfits
    cases hfits with
    | array hitems =>
        obtain ⟨c', hc', hshape⟩ := hdescribed (hitems x' (List.mem_of_getElem? hget))
        exact ⟨c', hc', by rw [Shape.next?, hshape]⟩

end ControlTree

/-! ## Matching controls -/

/-- The same steps lead to two controls from the roots of two forms. -/
inductive Matches (f g : Form) : Nat → Nat → Prop where
  | root : Matches f g Form.root Form.root
  | step {x y x' y' : Nat} {step : Segment} (h : Matches f g x y) (hx : f.step? x step = some x')
      (hy : g.step? y step = some y') : Matches f g x' y'

theorem Matches.symm (h : Matches f g x y) : Matches g f y x := by
  induction h with
  | root => exact .root
  | step _ hx hy ih => exact .step ih hy hx

/-- What is seen of a control: its kind and its value. -/
def look (f : Form) (id : ControlId) : Option ControlKind × Json := (f.kind? id, f.value id)

/-- Two trees of the same model with the same document. -/
structure Alike (m : Model) (f g : Form) : Prop where
  distinct : m.DistinctNames
  left : f.ControlTree m
  right : g.ControlTree m
  rootValue : f.rootValue = g.rootValue

namespace Alike

variable (a : Alike m f g)

include a

theorem symm : Alike m g f := ⟨a.distinct, a.right, a.left, a.rootValue.symm⟩

/-- Matching controls have the same shape and the same value. -/
theorem same_of_matches (h : Matches f g x y) :
    ∃ c d, f.control? x = some c ∧ g.control? y = some d ∧ c.shape m = d.shape m ∧
      f.value x = g.value y := by
  induction h with
  | root =>
      obtain ⟨c, hc, -, -, hcproperty⟩ := a.left.root
      obtain ⟨d, hd, -, -, hdproperty⟩ := a.right.root
      exact ⟨c, d, hc, hd, by rw [Control.shape, hcproperty, Control.shape, hdproperty],
        a.rootValue⟩
  | step _ hx hy ih =>
      obtain ⟨c, d, hc, hd, hshape, hvalue⟩ := ih
      obtain ⟨c', hc', hcnext⟩ := a.left.next?_shape a.distinct hc hx
      obtain ⟨d', hd', hdnext⟩ := a.right.next?_shape a.distinct hd hy
      refine ⟨c', d', hc', hd', ?_, ?_⟩
      · rw [hshape, hdnext] at hcnext
        exact (Option.some.inj hcnext).symm
      · rw [← a.left.enter_value hx, ← a.right.enter_value hy, hvalue]

/-- A step from one of two matching controls can be made from the other one. -/
theorem exists_step (h : Matches f g x y) {x' : Nat} (hx : f.step? x step = some x') :
    ∃ y', g.step? y step = some y' := by
  obtain ⟨c, d, hc, hd, hshape, hvalue⟩ := a.same_of_matches h
  obtain ⟨k, hk, hat⟩ := Option.bind_eq_some_iff.1 hx
  cases hk.symm.trans hc
  have hcfits := a.left.fits hc
  have hdfits := a.right.fits hd
  rw [a.left.soundTree.value_eq hc, a.right.soundTree.value_eq hd] at hvalue
  rw [step?, hd, Option.bind_some]
  unfold Control.assemble at hvalue
  rw [hshape] at hcfits
  generalize d.shape m = shape at hcfits hdfits
  generalize d.children = others at hdfits hvalue ⊢
  obtain ⟨parts, name, hchildren, rfl, hlookup⟩ | ⟨items, n, hchildren, rfl, hget⟩ :=
    Children.at?_cases hat
  · rw [hchildren] at hcfits hvalue
    cases hcfits with
    | object _ hkeys =>
        cases hdfits with
        | @object _ parts' hsorted' hkeys' =>
            -- both groups have a control for each named part
            have hname := (hkeys' name).2
              ((hkeys name).1 (List.mem_map.2 ⟨_, Keyed.mem_of_lookup hlookup, rfl⟩))
            obtain ⟨⟨_, y'⟩, hmem, rfl⟩ := List.mem_map.1 hname
            exact ⟨y', Keyed.lookup_of_mem hsorted'.nodup_keys hmem⟩
  · rw [hchildren] at hcfits hvalue
    cases hcfits with
    | array =>
        cases hdfits with
        | @array _ items' =>
            -- both arrays have as many items as the value that they share
            have hlength := congrArg List.length (Json.array.inj hvalue)
            rw [List.length_map, List.length_map] at hlength
            have hlt := (List.getElem?_eq_some_iff.1 hget).1
            exact ⟨_, List.getElem?_eq_getElem (hlength ▸ hlt)⟩

theorem look_of_matches (h : Matches f g x y) : f.look x = g.look y := by
  obtain ⟨c, d, hc, hd, hshape, hvalue⟩ := a.same_of_matches h
  have hcfits := a.left.fits hc
  have hdfits := a.right.fits hd
  rw [hshape] at hcfits
  have hkind : c.kind = d.kind := by
    unfold Control.kind
    generalize d.shape m = shape at hcfits hdfits
    generalize d.children = others at hdfits
    generalize c.children = children at hcfits
    cases hcfits <;> cases hdfits <;> rfl
  rw [look, look, hvalue, kind?, kind?, hc, hd, Option.map_some, Option.map_some, hkind]

/-- Every control has a match. -/
theorem exists_matches (hid : f.contains x = true) : ∃ y, Matches f g x y := by
  have hdescends := (a.left.contains_iff_descends x).1 hid
  clear hid
  induction hdescends with
  | self => exact ⟨_, .root⟩
  | child _ hchild ih =>
      obtain ⟨y, hy⟩ := ih
      obtain ⟨c, hc, hmem⟩ := hchild
      obtain ⟨step, hat⟩ := Children.exists_at? (a.left.soundTree.names_nodup hc) hmem
      have hstep : f.step? _ step = some _ := Option.bind_eq_some_iff.2 ⟨c, hc, hat⟩
      obtain ⟨y', hy'⟩ := a.exists_step hy hstep
      exact ⟨y', .step hy hstep hy'⟩

/-- Matching controls have the same path. -/
theorem path?_of_matches (h : Matches f g x y) : f.path? x = g.path? y := by
  rw [path?_eq, path?_eq]
  refine congrArg (Option.map Segment.path) ?_
  induction h with
  | root =>
      rw [a.left.soundTree.place?_root a.left.parent?_root,
        a.right.soundTree.place?_root a.right.parent?_root]
  | step _ hx hy ih =>
      obtain ⟨c, hc, hcat⟩ := Option.bind_eq_some_iff.1 hx
      obtain ⟨d, hd, hdat⟩ := Option.bind_eq_some_iff.1 hy
      rw [a.left.soundTree.place?_of_child hc (Children.mem_ids_of_at? hcat)
          (Children.place?_of_at? (a.left.nodup_ids hc) hcat),
        a.right.soundTree.place?_of_child hd (Children.mem_ids_of_at? hdat)
          (Children.place?_of_at? (a.right.nodup_ids hd) hdat), ih]

/-! ## Resolving paths -/

/-- A child of one of two matching controls is found below the other one, too. -/
theorem child?_of_matches (h : Matches f g x y) {segment : String} {x' : Nat}
    (hx : f.child? x segment = some x') : ∃ y', g.child? y segment = some y' ∧ Matches f g x' y' := by
  rw [child?_eq] at hx ⊢
  rcases Option.or_eq_some_iff.1 hx with hkey | ⟨hnokey, hindex⟩
  · obtain ⟨y', hy'⟩ := a.exists_step h hkey
    exact ⟨y', by rw [hy', Option.some_or], .step h hkey hy'⟩
  · obtain ⟨n, hn, hx'⟩ := Option.bind_eq_some_iff.1 hindex
    obtain ⟨y', hy'⟩ := a.exists_step h hx'
    refine ⟨y', ?_, .step h hx' hy'⟩
    have hnone : g.step? y (.key segment) = none := by
      refine Option.eq_none_iff_forall_ne_some.2 fun z hz => ?_
      obtain ⟨z', hz'⟩ := a.symm.exists_step h.symm hz
      cases hnokey.symm.trans hz'
    rw [hnone, hn, Option.none_or, Option.bind_some, hy']

/-- What steps lead to in one of the forms they lead to in the other one. -/
theorem follow_of_matches (h : Matches f g x y) {steps : List Step} {x' : Nat}
    (hx : f.navigator.follow x steps = some x') :
    ∃ y', g.navigator.follow y steps = some y' ∧ Matches f g x' y' := by
  induction steps generalizing x y with
  | nil =>
      cases hx
      exact ⟨y, rfl, h⟩
  | cons step steps ih =>
      obtain ⟨next, hnext, hrest⟩ := Option.bind_eq_some_iff.1 hx
      have hstep : ∃ y', g.navigator.step y step = some y' ∧ Matches f g next y' := by
        cases step with
        | root =>
            cases hnext
            exact ⟨_, rfl, .root⟩
        | parent =>
            cases h with
            | root => cases a.left.parent?_root.symm.trans hnext
            | step h hx hy =>
                cases (a.left.parent?_of_step hx).symm.trans hnext
                exact ⟨_, a.right.parent?_of_step hy, h⟩
        | current =>
            cases hnext
            exact ⟨y, rfl, h⟩
        | child name => exact a.child?_of_matches h hnext
      obtain ⟨y', hy', hmatch⟩ := hstep
      obtain ⟨z, hz, hmatch⟩ := ih hmatch hrest
      exact ⟨z, Option.bind_eq_some_iff.2 ⟨y', hy', hz⟩, hmatch⟩

/-- A path is resolved in both forms or in none, and to controls that look the same. -/
theorem look_get? (path : String) : (f.get? path).map f.look = (g.get? path).map g.look := by
  cases hf : f.get? path with
  | some x =>
      obtain ⟨y, hy, hmatch⟩ := a.follow_of_matches .root hf
      have hg : g.get? path = some y := hy
      rw [hg, Option.map_some, Option.map_some, a.look_of_matches hmatch]
  | none =>
      cases hg : g.get? path with
      | none => rfl
      | some y =>
          obtain ⟨x, hx, -⟩ := a.symm.follow_of_matches .root hg
          cases hf.symm.trans hx

/-- The controls of both forms have the same paths, and look the same there. -/
theorem exists_path_iff (path : String) (seen : Option ControlKind × Json) :
    (∃ id, f.contains id = true ∧ f.path? id = some path ∧ f.look id = seen) ↔
      ∃ id, g.contains id = true ∧ g.path? id = some path ∧ g.look id = seen := by
  have hgo : ∀ {f g : Form}, Alike m f g →
      (∃ id, f.contains id = true ∧ f.path? id = some path ∧ f.look id = seen) →
        ∃ id, g.contains id = true ∧ g.path? id = some path ∧ g.look id = seen := by
    rintro f g a ⟨x, hx, hpath, hlook⟩
    obtain ⟨y, hmatch⟩ := a.exists_matches hx
    obtain ⟨c, d, hc, hd, -⟩ := a.same_of_matches hmatch
    refine ⟨y, ?_, (a.path?_of_matches hmatch).symm.trans hpath,
      (a.look_of_matches hmatch).symm.trans hlook⟩
    rw [contains, hd]
    rfl
  exact ⟨hgo a, hgo a.symm⟩

end Alike

end Form

end ReactiveForm
