import Mathlib.Data.List.Basic
import ReactiveForm.Proofs.Form.Grafts

/-!
# The order in which controls are numbered

New controls are numbered in the order of a walk from the top down that takes the parts of an object
in the order in which they were declared. A group lists its children in the order of their names, so
the walk finds their order in the shape again (`Control.declared`).

The last part of the module says what a structure edit does to the tree as a whole: an item comes as
a row of new numbers behind all others (`Grafts`), and it goes with all of its descendants and
nothing else (`Prunes`).
-/

namespace ReactiveForm

/-- The controls below a control, those of an object in the order in which its parts were
declared. -/
def Control.declared (m : Model) (c : Control) : List ControlId :=
  match c.children with
  | .named parts => (c.shape m).names.filterMap fun name => parts.lookup name
  | children => children.ids

theorem Keyed.filterMap_lookup_ofList {names : List String} {ids : List ControlId}
    (hnodup : names.Nodup) (hlength : ids.length = names.length) :
    names.filterMap (fun name => (Keyed.ofList (names.zip ids)).lookup name) = ids := by
  have hfst : (names.zip ids).map Prod.fst = names := List.map_fst_zip (Nat.le_of_eq hlength.symm)
  have hsnd : (names.zip ids).map Prod.snd = ids := List.map_snd_zip (Nat.le_of_eq hlength)
  have hlookup : ∀ part ∈ names.zip ids,
      (Keyed.ofList (names.zip ids)).lookup part.1 = some part.2 := fun part hpart =>
    Keyed.lookup_of_mem (Keyed.nodup_keys_ofList _)
      ((Keyed.perm_ofList (hfst.symm ▸ hnodup)).mem_iff.2 hpart)
  calc names.filterMap (fun name => (Keyed.ofList (names.zip ids)).lookup name)
    _ = ((names.zip ids).map Prod.fst).filterMap
          (fun name => (Keyed.ofList (names.zip ids)).lookup name) := by rw [hfst]
    _ = (names.zip ids).filterMap (some ∘ Prod.snd) := by
        rw [List.filterMap_map]
        exact List.filterMap_congr hlookup
    _ = ids := by rw [List.filterMap_eq_map, hsnd]

/-- The declared order is the one in which the controls were arranged. -/
theorem Shape.DistinctNames.declared {m : Model} {c : Control} {data : Json} {below : List Nat}
    (h : (c.shape m).DistinctNames) (hchildren : c.children = (c.shape m).arrange below)
    (hlength : below.length = ((c.shape m).entries data).length) : c.declared m = below := by
  unfold Control.declared
  rw [hchildren]
  generalize c.shape m = shape at h hlength
  cases h with
  | value => exact (List.length_eq_zero_iff.1 hlength).symm
  | @object children hnodup _ =>
      exact Keyed.filterMap_lookup_ofList hnodup (hlength.trans (length_names children data).symm)
  | array => rfl

namespace Form

variable {f g : Form} {m : Model} {id array : Nat} {items : List Nat} {index gone : Nat}
  {item : Property} {value : Json}

/-- The walk through some controls and everything below them, from the top down and in declared
order. -/
inductive Preorder (m : Model) (f : Form) : List Nat → List Nat → Prop where
  | nil : Preorder m f [] []
  | cons {id : Nat} {ids below rest : List Nat} {c : Control} (hc : f.control? id = some c)
      (hbelow : Preorder m f (c.declared m) below) (hrest : Preorder m f ids rest) :
      Preorder m f (id :: ids) (id :: (below ++ rest))

theorem SameTree.preorder (t : SameTree f g) {ids walk : List Nat} (h : f.Preorder m ids walk) :
    g.Preorder m ids walk := by
  induction h with
  | nil => exact .nil
  | cons hc _ _ ihbelow ihrest =>
      obtain ⟨d, hd, hlinks⟩ := t.exists_control hc
      refine .cons hd ?_ ihrest
      rw [Control.declared, hlinks.children, Control.shape, hlinks.property]
      exact ihbelow

/-- The walk through a row takes its numbers one after the other. -/
theorem Laid.preorder {parent first stop : Nat} {entries : List (Property × Json)}
    {ids : List Nat} (h : f.Laid parent first entries ids stop)
    (hdistinct : ∀ e ∈ entries, e.1.shape.DistinctNames) :
    f.Preorder m ids (List.range' first (stop - first)) := by
  induction h with
  | nil =>
      rw [Nat.sub_self]
      exact .nil
  | @cons parent first middle stop p data below ids entries hcontrol hbelow hrest ihbelow ihrest =>
      have hshape := hdistinct (p, data) List.mem_cons_self
      rw [hbelow.range'_eq hrest.le]
      refine .cons hcontrol ?_ (ihrest fun e he => hdistinct e (List.mem_cons_of_mem _ he))
      rw [Shape.DistinctNames.declared (c := .create (some parent) (some p) (p.shape.arrange below) _)
        hshape rfl hbelow.length]
      exact ihbelow fun e he => hshape.entries he

/-! ## Structure edits as a whole -/

/-- An array has got an item at an index: its controls have the next numbers, in the order of a walk
through the item. -/
structure Grafts (m : Model) (f g : Form) (array index id : Nat) : Prop where
  first : id = f.slots.size
  items : ∃ items, f.items? array = some items ∧ index ≤ items.length ∧
    g.items? array = some (items.insertIdx index id)
  contains : ∀ x : Nat, g.contains x = true ↔
    f.contains x = true ∨ f.slots.size ≤ x ∧ x < g.slots.size
  preorder : g.Preorder m [id] (List.range' id (g.slots.size - id))

/-- An array has lost the item at an index: that control and its descendants are gone, and no
number is new. -/
structure Prunes (f g : Form) (array index gone : Nat) : Prop where
  items : ∃ items, f.items? array = some items ∧ items[index]? = some gone ∧
    g.items? array = some (items.eraseIdx index)
  contains : ∀ x : Nat, g.contains x = true ↔ f.contains x = true ∧ ¬ f.Descends gone x
  size : g.slots.size = f.slots.size

theorem SameTree.items? (t : SameTree f g) (id : Nat) : f.items? id = g.items? id := by
  refine Option.ext fun items => ?_
  rw [items?_eq_some, items?_eq_some]
  constructor
  · rintro ⟨c, hc, hchildren⟩
    obtain ⟨d, hd, hlinks⟩ := t.exists_control hc
    exact ⟨d, hd, hlinks.children.trans hchildren⟩
  · rintro ⟨d, hd, hchildren⟩
    obtain ⟨c, hc, hlinks⟩ := t.symm.exists_control hd
    exact ⟨c, hc, hlinks.children.trans hchildren⟩

theorem Grafts.congr {g' : Form} (h : Grafts m f g array index id) (t : SameTree g g') :
    Grafts m f g' array index id where
  first := h.first
  items := t.items? array ▸ h.items
  contains x := by
    rw [← t.contains, ← t.size]
    exact h.contains x
  preorder := t.size ▸ t.preorder h.preorder

theorem Prunes.congr {g' : Form} (h : Prunes f g array index gone) (t : SameTree g g') :
    Prunes f g' array index gone where
  items := t.items? array ▸ h.items
  contains x := by
    rw [← t.contains]
    exact h.contains x
  size := t.size.symm.trans h.size

theorem ControlTree.grafts (h : f.ControlTree m) (hm : m.DistinctNames)
    (hitems : f.items? array = some items) (hitem : f.template? array = some item)
    (hindex : index ≤ items.length) (value : Json) :
    Grafts m f (f.grown array items index item value) array index f.slots.size := by
  obtain ⟨c, hc, hchildren⟩ := items?_eq_some.1 hitems
  have hlive : f.contains array = true := by
    rw [contains, hc]
    rfl
  have harray := lt_size_of_contains hlive
  have hsize := size_grown f array items index item value
  refine ⟨rfl, ⟨items, hitems, hindex, items?_grown hitems hindex⟩, fun x => ?_, ?_⟩
  · rw [contains_grown_iff harray, hsize]
  · rw [hsize]
    refine (laid_grown harray).preorder fun e he => ?_
    have hshape := h.distinctNames hm hc
    rw [shape_of_template? hc hitem] at hshape
    rw [List.mem_singleton.1 he]
    cases hshape with
    | array hshape => exact hshape

theorem ControlTree.prunes (h : f.ControlTree m) (hitems : f.items? array = some items)
    (hget : items[index]? = some gone) :
    Prunes f (f.shrunk array items index gone) array index gone := by
  obtain ⟨c, hc, hchildren⟩ := items?_eq_some.1 hitems
  exact ⟨⟨items, hitems, hget, items?_shrunk h hc hchildren hget⟩,
    fun x => contains_shrunk_iff h.soundTree, size_shrunk f array items index gone⟩

end Form

end ReactiveForm
