import ReactiveForm.Proofs.Model.Names

/-!
# The properties of a model

A walk through a property visits the property itself and then all those below it, where
`Shape.inner` are those one step below. What holds of a property if it holds of those one step below
holds of all properties (`Property.induction`), and what is passed on from each property to those
one step below is passed on to all properties of a model (`Model.forall_nodes`).

Placing a property in a model gives everything below it a path and an owner. So in a model that was
described step by step, the path of each property is that of the property above it and one segment
more (`Model.Built.placed`).
-/

namespace ReactiveForm

/-! ## One step below -/

/-- The properties one step below: the parts of an object, or the template of an array. -/
def Shape.inner : Shape → List Property
  | .value => []
  | .object children => children
  | .array item => [item]

namespace Property

theorem sizeOf_lt_of_mem_inner {p q : Property} (hq : q ∈ p.shape.inner) :
    sizeOf q < sizeOf p := by
  obtain ⟨name, path, owner, valid, edit, view, shape, policy⟩ := p
  have hshape : sizeOf q < sizeOf shape := by
    cases shape with
    | value => cases hq
    | object children =>
        have hlt : sizeOf q < sizeOf children := List.sizeOf_lt_of_mem hq
        simp only [Shape.object.sizeOf_spec]
        omega
    | array item =>
        rw [List.mem_singleton.1 hq]
        simp only [Shape.array.sizeOf_spec]
        omega
  simp only [mk.sizeOf_spec]
  omega

/-- What is true of a property if it is true of those one step below is true of all properties. -/
@[elab_as_elim, induction_eliminator]
theorem induction {motive : Property → Prop}
    (step : ∀ p, (∀ q ∈ p.shape.inner, motive q) → motive p) (p : Property) : motive p :=
  step p fun q _ => induction step q
termination_by sizeOf p
decreasing_by exact sizeOf_lt_of_mem_inner ‹_›

/-! ## Walks -/

theorem nodesOfAll_eq (ps : List Property) : nodesOfAll ps = ps.flatMap nodes := by
  induction ps with
  | nil => rw [nodesOfAll]; rfl
  | cons p ps ih => rw [nodesOfAll, ih, List.flatMap_cons]

/-- A walk visits a property and then walks through those one step below. -/
theorem nodes_eq (p : Property) : p.nodes = p :: p.shape.inner.flatMap nodes := by
  obtain ⟨name, path, owner, valid, edit, view, shape, policy⟩ := p
  rw [nodes]
  cases shape with
  | value => rw [nodesOfShape]; rfl
  | object children => rw [nodesOfShape, nodesOfAll_eq]; rfl
  | array item => rw [nodesOfShape]; exact congrArg _ (List.flatMap_singleton ..).symm

theorem mem_nodes_self (p : Property) : p ∈ p.nodes := by
  rw [nodes_eq]
  exact List.mem_cons_self

theorem nodes_subset_of_mem_inner {p q : Property} (hq : q ∈ p.shape.inner) :
    q.nodes ⊆ p.nodes := by
  rw [nodes_eq p]
  exact fun r hr => List.mem_cons_of_mem _ (List.mem_flatMap.2 ⟨q, hq, hr⟩)

/-- What is passed on from each property to those one step below is passed on all the way down. -/
theorem forall_nodes {P : Property → Prop} (hstep : ∀ p, P p → ∀ q ∈ p.shape.inner, P q)
    (p : Property) (hp : P p) : ∀ q ∈ p.nodes, P q := by
  induction p with
  | step p ih =>
      rw [nodes_eq]
      refine List.forall_mem_cons.2 ⟨hp, List.forall_mem_flatMap.2 fun q hq => ?_⟩
      exact ih q hq (hstep p hp q hq)

end Property

namespace Model

variable {m : Model}

/-- A walk through a model visits everything below what it visits. -/
theorem nodes_subset : ∀ p ∈ m.nodes, p.nodes ⊆ m.nodes :=
  List.forall_mem_flatMap.2 fun t ht => t.forall_nodes
    (fun _ hp _ hq => List.Subset.trans (Property.nodes_subset_of_mem_inner hq) hp)
    fun _ hp => List.mem_flatMap.2 ⟨t, ht, hp⟩

theorem mem_nodes_of_mem_properties {p : Property} (hp : p ∈ m.properties) : p ∈ m.nodes :=
  List.mem_flatMap.2 ⟨p, hp, p.mem_nodes_self⟩

theorem mem_nodes_of_mem_inner {p q : Property} (hp : p ∈ m.nodes) (hq : q ∈ p.shape.inner) :
    q ∈ m.nodes :=
  nodes_subset p hp (Property.nodes_subset_of_mem_inner hq q.mem_nodes_self)

/-- What holds at the top and is passed on to those one step below holds of all properties. -/
theorem forall_nodes {P : Property → Prop} (htop : ∀ p ∈ m.properties, P p)
    (hstep : ∀ p ∈ m.nodes, P p → ∀ q ∈ p.shape.inner, P q) : ∀ p ∈ m.nodes, P p := by
  refine List.forall_mem_flatMap.2 fun t ht p hp => ?_
  have hboth := t.forall_nodes (P := fun p => p ∈ m.nodes ∧ P p)
    (fun p hp q hq => ⟨mem_nodes_of_mem_inner hp.1 hq, hstep p hp.1 hp.2 q hq⟩)
    ⟨mem_nodes_of_mem_properties ht, htop t ht⟩
  exact (hboth p hp).2

end Model

/-! ## Placing properties -/

namespace Property

/-- The property lies one segment below a path, in the model of a name. -/
structure Lies (owner parent : String) (p : Property) : Prop where
  path : p.path = joinPath parent p.segment
  owner : p.owner = some owner

theorem placeAll_eq (owner parent : String) (ps : List Property) :
    placeAll owner parent ps = ps.map (place owner parent) := by
  induction ps with
  | nil => rw [placeAll]; rfl
  | cons p ps ih => rw [placeAll, ih, List.map_cons]

theorem lies_place (owner parent : String) (p : Property) :
    (p.place owner parent).Lies owner parent := by
  obtain ⟨name, path, owner, valid, edit, view, shape, policy⟩ := p
  rw [place]
  exact ⟨rfl, rfl⟩

theorem inner_place (owner parent : String) (p : Property) :
    (p.place owner parent).shape.inner =
      p.shape.inner.map (place owner (p.place owner parent).path) := by
  obtain ⟨name, path, owner, valid, edit, view, shape, policy⟩ := p
  rw [place]
  cases shape with
  | value => rw [placeShape]; rfl
  | object children => rw [placeShape, placeAll_eq]; rfl
  | array item => rw [placeShape]; rfl

/-- Everything below a property that was placed lies below the property above it. -/
theorem lies_of_mem_nodes_place (owner parent : String) (p : Property) :
    ∀ q ∈ (p.place owner parent).nodes, ∀ r ∈ q.shape.inner, r.Lies owner q.path := by
  induction p generalizing parent with
  | step p ih =>
      rw [nodes_eq, inner_place]
      refine List.forall_mem_cons.2 ⟨fun r hr => ?_, List.forall_mem_flatMap.2 fun q hq => ?_⟩
      · rw [inner_place] at hr
        obtain ⟨r, -, rfl⟩ := List.mem_map.1 hr
        exact r.lies_place owner _
      · obtain ⟨r, hr, rfl⟩ := List.mem_map.1 hq
        exact ih r hr _

end Property

namespace Model

/-- Every property knows the model and its path, which is one segment longer than that of the
property above it. -/
structure Placed (m : Model) : Prop where
  top : ∀ p ∈ m.properties, p.Lies m.name ""
  inner : ∀ p ∈ m.nodes, ∀ q ∈ p.shape.inner, q.Lies m.name p.path

theorem Placed.add {m : Model} (h : m.Placed) (p : Property) : (m.add p).Placed where
  top q hq := by
    rcases List.mem_append.1 hq with hq | hq
    · exact h.top q hq
    · rw [List.mem_singleton.1 hq]
      exact p.lies_place m.name ""
  inner q hq := by
    have hnodes : (m.add p).nodes = m.nodes ++ (p.place m.name "").nodes := by
      rw [nodes, Model.add, List.flatMap_append, List.flatMap_singleton]
      rfl
    rcases List.mem_append.1 (hnodes ▸ hq) with hq | hq
    · exact h.inner q hq
    · exact p.lies_of_mem_nodes_place m.name "" q hq

/-- In a model that was described step by step every property is placed. -/
theorem Built.placed {m : Model} (h : m.Built) : m.Placed :=
  h.inductionOn (fun _ => ⟨nofun, nofun⟩) (fun hm _ => hm.add _) fun _ hm => ⟨hm.top, hm.inner⟩

end Model

end ReactiveForm
