import ReactiveForm.Proofs.Form.Grafts
import ReactiveForm.Proofs.Model.Nodes

/-!
# Where the properties of a form come from

Every control that is described by a property is described by one of the model, also when the
control is one of an item that was put into an array later on. A property without a policy of its
own has the policy that the model and the configuration give it (`Form.MadeFrom`). So what is true
of all policies of a model is true of all policies of its forms, at any time.
-/

namespace ReactiveForm

/-! ## Properties below a property -/

/-- What a document has below a shape is described by the properties one step below. -/
theorem Shape.mem_inner_of_mem_entries {shape : Shape} {data : Json} {e : Property × Json}
    (he : e ∈ shape.entries data) : e.1 ∈ shape.inner := by
  cases shape with
  | value => cases he
  | object children =>
      obtain ⟨p, hp, hentry⟩ := List.mem_filterMap.1 he
      obtain ⟨_, -, rfl⟩ := Option.map_eq_some_iff.1 hentry
      exact hp
  | array item =>
      obtain ⟨_, -, rfl⟩ := List.mem_map.1 he
      exact List.mem_singleton_self item

theorem Property.mem_inner_of_item? {p item : Property} (hitem : p.item? = some item) :
    item ∈ p.shape.inner := by
  unfold item? at hitem
  split at hitem
  · rename_i hshape
    cases hitem
    rw [hshape]
    exact List.mem_singleton_self item
  · cases hitem

namespace Form

variable {f g : Form} {m : Model} {c : Config} {id : Nat}

/-- The controls of a row are described by the properties of its entries and what is below them. -/
theorem Laid.nodes_subset {parent first stop : Nat} {entries : List (Property × Json)}
    {ids : List Nat} (h : f.Laid parent first entries ids stop) {all : List Property}
    (hentries : ∀ e ∈ entries, e.1.nodes ⊆ all) {p : Property} (hp : f.property? id = some p)
    (hfirst : first ≤ id) (hstop : id < stop) : p.nodes ⊆ all := by
  induction h with
  | nil => omega
  | @cons _ first middle _ q data below _ _ hcontrol _ _ ihbelow ihrest =>
      have hq : q.nodes ⊆ all := hentries (q, data) List.mem_cons_self
      rcases Nat.lt_or_ge id middle with hlt | hge
      · rcases Nat.eq_or_lt_of_le hfirst with rfl | hgt
        · rw [Form.property?, hcontrol] at hp
          cases hp
          exact hq
        · refine ihbelow (fun e he => ?_) hgt hlt
          have hinner := Shape.mem_inner_of_mem_entries he
          exact List.Subset.trans (Property.nodes_subset_of_mem_inner hinner) hq
      · exact ihrest (fun e he => hentries e (List.mem_cons_of_mem _ he)) hge hstop

/-! ## Forms of a model -/

/-- The properties of the controls are those of the model, and its policy counts for those without
one of their own. -/
structure MadeFrom (m : Model) (c : Config) (f : Form) : Prop where
  defaults : f.defaults = m.defaultPolicy.getD (.ofConfig c)
  nodes : ∀ {id : Nat} {p : Property}, f.property? id = some p → p.nodes ⊆ m.nodes

namespace MadeFrom

theorem sameTree (h : MadeFrom m c f) (t : SameTree f g) : MadeFrom m c g where
  defaults := t.defaults.symm.trans h.defaults
  nodes {id _} hp := h.nodes ((t.property? id).trans hp)

theorem build (m : Model) (data : Json) (c : Config) : MadeFrom m c (.build m data c) := by
  refine MadeFrom.sameTree ⟨rfl, fun {id p} hp => ?_⟩ (sameDocument_build m data c).sameTree.symm
  obtain ⟨below, hroot, hrow⟩ := Shape.laid_block none none root _ data (holds_sprout m data c)
  by_cases hne : id = root
  · subst hne
    rw [property?, hroot] at hp
    cases hp
  · refine hrow.nodes_subset (fun e he => ?_) hp (Nat.pos_of_ne_zero hne) ?_
    · have hinner : e.1 ∈ m.properties := Shape.mem_inner_of_mem_entries he
      exact Model.nodes_subset _ (Model.mem_nodes_of_mem_properties hinner)
    · obtain ⟨k, hk, -⟩ := Option.bind_eq_some_iff.1 hp
      exact lt_of_control?_sprout hk

theorem grown (h : MadeFrom m c f) {array : ControlId} {items : List ControlId} {item : Property}
    (hitems : f.items? array = some items) (hitem : f.template? array = some item) (index : Nat)
    (value : Json) : MadeFrom m c (f.grown array items index item value) where
  defaults := h.defaults
  nodes {id p} hp := by
    obtain ⟨q, hq, hitem⟩ := Option.bind_eq_some_iff.1 hitem
    obtain ⟨k, hk, hkp⟩ := Option.bind_eq_some_iff.1 hp
    rcases cases_of_control?_grown hk with ⟨d, hd, rfl⟩ | ⟨hge, hstop⟩
    · exact h.nodes (by rw [property?, hd]; exact hkp)
    · have harray := lt_size_of_contains (contains_of_items? hitems)
      refine (laid_grown harray).nodes_subset (fun e he => ?_) hp hge hstop
      rw [List.mem_singleton.1 he]
      have hinner := Property.mem_inner_of_item? hitem
      exact List.Subset.trans (Property.nodes_subset_of_mem_inner hinner) (h.nodes hq)

theorem shrunk (h : MadeFrom m c f) (array : ControlId) (items : List ControlId) (index : Nat)
    (gone : ControlId) : MadeFrom m c (f.shrunk array items index gone) where
  defaults := h.defaults
  nodes {id p} hp := by
    rw [property?, control?_shrunk_eq] at hp
    split at hp
    · cases hp
    · rw [Option.bind_map] at hp
      exact h.nodes hp

end MadeFrom

theorem lasting_madeFrom (m : Model) (c : Config) : Lasting (MadeFrom m c) :=
  ⟨MadeFrom.sameTree, fun h hitems hitem => h.grown hitems hitem,
    fun {_ array gone items index} h _ _ => h.shrunk array items index gone⟩

/-- What is true of all policies in a model is true of all policies in its forms. -/
theorem MadeFrom.policy (h : MadeFrom m c f) {P : ChangePolicy → Prop}
    (hall : ∀ p ∈ m.nodes, P (p.policyOr (m.defaultPolicy.getD (.ofConfig c)))) {p : Property}
    (hp : f.property? id = some p) : P (f.policy id) := by
  rw [Form.policy, hp, h.defaults]
  exact hall p (h.nodes hp p.mem_nodes_self)

end Form

end ReactiveForm
