import ReactiveForm.Form.Growth
import ReactiveForm.Proofs.Form.Refresh
import ReactiveForm.Proofs.Keyed

/-!
# Built forms are sound trees

The controls that are made for a property and a document hang together: each of them is either one
of the roots of the block or has its parent before it in the block, and whatever a control lists
below it stands in the block with this control as its parent (`SoundForest`). Blocks that follow
each other form a larger block, and so does a control in front of the block of its children. So
every built form is a `SoundTree` (`soundTree_build`), and what its tests have recorded are the
verdicts on the document it was built from (`state?_build`).
-/

namespace ReactiveForm

/-- A block of controls, the first of them with the number `first`, hangs together: `parent` is the
parent of its roots, and all other parents and children are within the block. -/
structure SoundForest (parent : Option Nat) (first : Nat) (roots : List Nat)
    (block : List Control) : Prop where
  parents : ∀ i c, block[i]? = some c →
    (first + i ∈ roots ∧ c.parent = parent) ∨
      ∃ up, c.parent = some up ∧ first ≤ up ∧ up < first + i
  roots_mem : ∀ r ∈ roots, ∃ i c, r = first + i ∧ block[i]? = some c ∧ c.parent = parent
  children : ∀ i c, block[i]? = some c → ∀ child ∈ c.children.ids,
    ∃ j d, child = first + j ∧ block[j]? = some d ∧ d.parent = some (first + i)
  names_nodup : ∀ c ∈ block, ∀ parts, c.children = .named parts → (parts.map Prod.fst).Nodup
  initial : ∀ c ∈ block, c.state = .initial

namespace SoundForest

variable {parent : Option Nat} {first : Nat} {roots roots' : List Nat} {block block' : List Control}

theorem nil (parent : Option Nat) (first : Nat) : SoundForest parent first [] [] where
  parents _ _ hc := by simp at hc
  roots_mem _ hr := absurd hr List.not_mem_nil
  children _ _ hc := by simp at hc
  names_nodup _ hc := absurd hc List.not_mem_nil
  initial _ hc := absurd hc List.not_mem_nil

private theorem getElem?_append_cases {i : Nat} {c : Control}
    (hc : (block ++ block')[i]? = some c) :
    block[i]? = some c ∨ ∃ j, i = block.length + j ∧ block'[j]? = some c := by
  by_cases hi : i < block.length
  · exact .inl (by rwa [List.getElem?_append_left hi] at hc)
  · refine .inr ⟨i - block.length, by omega, ?_⟩
    rwa [List.getElem?_append_right (by omega)] at hc

private theorem getElem?_append_of_left {i : Nat} {c : Control} (hc : block[i]? = some c) :
    (block ++ block')[i]? = some c := by
  rw [List.getElem?_append_left (List.getElem?_eq_some_iff.1 hc).1, hc]

private theorem getElem?_append_of_right {i : Nat} {c : Control} (hc : block'[i]? = some c) :
    (block ++ block')[block.length + i]? = some c := by
  rw [List.getElem?_append_right (by omega), Nat.add_sub_cancel_left, hc]

/-- Two blocks in a row. -/
theorem append (h : SoundForest parent first roots block)
    (h' : SoundForest parent (first + block.length) roots' block') :
    SoundForest parent first (roots ++ roots') (block ++ block') where
  parents i c hc := by
    rcases getElem?_append_cases hc with hleft | ⟨j, rfl, hright⟩
    · exact (h.parents i c hleft).imp_left fun ⟨hr, hp⟩ => ⟨List.mem_append_left _ hr, hp⟩
    · rcases h'.parents j c hright with ⟨hr, hp⟩ | ⟨up, hup, hle, hlt⟩
      · exact .inl ⟨List.mem_append_right _ (by rwa [Nat.add_assoc] at hr), hp⟩
      · exact .inr ⟨up, hup, by omega, by omega⟩
  roots_mem r hr := by
    rcases List.mem_append.1 hr with hr | hr
    · obtain ⟨i, c, hi, hc, hp⟩ := h.roots_mem r hr
      exact ⟨i, c, hi, getElem?_append_of_left hc, hp⟩
    · obtain ⟨i, c, hi, hc, hp⟩ := h'.roots_mem r hr
      exact ⟨block.length + i, c, by omega, getElem?_append_of_right hc, hp⟩
  children i c hc child hchild := by
    rcases getElem?_append_cases hc with hleft | ⟨j, rfl, hright⟩
    · obtain ⟨j, d, hj, hd, hp⟩ := h.children i c hleft child hchild
      exact ⟨j, d, hj, getElem?_append_of_left hd, hp⟩
    · obtain ⟨k, d, hk, hd, hp⟩ := h'.children j c hright child hchild
      exact ⟨block.length + k, d, by omega, getElem?_append_of_right hd, by rw [hp, Nat.add_assoc]⟩
  names_nodup c hc := by
    rcases List.mem_append.1 hc with hc | hc
    · exact h.names_nodup c hc
    · exact h'.names_nodup c hc
  initial c hc := by
    rcases List.mem_append.1 hc with hc | hc
    · exact h.initial c hc
    · exact h'.initial c hc

/-- A control in front of the block of what is below it. -/
theorem cons {c : Control} (h : SoundForest (some first) (first + 1) roots block)
    (hparent : c.parent = parent) (hchildren : ∀ child ∈ c.children.ids, child ∈ roots)
    (hnames : ∀ parts, c.children = .named parts → (parts.map Prod.fst).Nodup)
    (hinitial : c.state = .initial) : SoundForest parent first [first] (c :: block) where
  parents i d hd := by
    cases i with
    | zero =>
        cases hd
        exact .inl ⟨List.mem_singleton_self _, hparent⟩
    | succ i =>
        -- what was a root below has the new control as its parent
        rcases h.parents i d hd with ⟨-, hp⟩ | ⟨up, hup, hle, hlt⟩
        · exact .inr ⟨first, hp, Nat.le_refl _, by omega⟩
        · exact .inr ⟨up, hup, by omega, by omega⟩
  roots_mem r hr := ⟨0, c, List.mem_singleton.1 hr, rfl, hparent⟩
  children i d hd child hchild := by
    cases i with
    | zero =>
        cases hd
        obtain ⟨j, e, hj, he, hp⟩ := h.roots_mem child (hchildren child hchild)
        exact ⟨j + 1, e, by omega, he, hp⟩
    | succ i =>
        obtain ⟨j, e, hj, he, hp⟩ := h.children i d hd child hchild
        exact ⟨j + 1, e, by omega, he, by rw [hp]; congr 1; omega⟩
  names_nodup d hd := by
    rcases List.mem_cons.1 hd with rfl | hd
    · exact hnames
    · exact h.names_nodup d hd
  initial d hd := by
    rcases List.mem_cons.1 hd with rfl | hd
    · exact hinitial
    · exact h.initial d hd

end SoundForest

mutual

theorem Shape.soundForest_block (parent : Option Nat) (property : Option Property) (next : Nat) :
    ∀ (shape : Shape) (data : Json),
      SoundForest parent next [next] (Shape.block parent property next shape data)
  | .value, data => by
    rw [Shape.block]
    refine (SoundForest.nil (some next) (next + 1)).cons rfl ?_ ?_ rfl
    · simp [Control.create, Children.ids]
    · simp [Control.create]
  | .object children, data => by
    rw [Shape.block]
    refine (Property.soundForest_blockOfParts next (next + 1) children data).cons rfl ?_ ?_ rfl
    · intro child hchild
      simp only [Control.create, Children.ofNamed, Children.ids] at hchild
      obtain ⟨part, hpart, rfl⟩ := List.mem_map.1 hchild
      exact List.mem_map.2 ⟨part, Keyed.mem_of_mem_ofList hpart, rfl⟩
    · rintro parts hparts
      cases hparts
      exact Keyed.nodup_keys_ofList _
  | .array item, data => by
    rw [Shape.block]
    -- the items stand one after the other, each behind the block of the ones before it
    have hfold : ∀ (elements : List Json) (done : List ControlId × List Control),
        SoundForest (some next) (next + 1) done.1 done.2 →
          let all := elements.foldl
            (fun (done : List ControlId × List Control) element =>
              let here := next + 1 + done.2.length
              (done.1 ++ [here], done.2 ++ Property.block (some next) here item element)) done
          SoundForest (some next) (next + 1) all.1 all.2 := by
      intro elements
      induction elements with
      | nil => exact fun _ h => h
      | cons element elements ih =>
          intro done h
          exact ih _ (h.append (Property.soundForest_block (some next) _ item element))
    refine (hfold data.items ([], []) (SoundForest.nil _ _)).cons rfl (fun _ h => h) ?_ rfl
    simp [Control.create]

theorem Property.soundForest_block (parent : Option Nat) (next : Nat) :
    ∀ (p : Property) (data : Json),
      SoundForest parent next [next] (Property.block parent next p data)
  | ⟨name, path, owner, valid, edit, view, shape, policy⟩, data => by
    rw [Property.block]
    exact Shape.soundForest_block parent _ next shape data

theorem Property.soundForest_blockOfParts (parent next : Nat) :
    ∀ (parts : List Property) (data : Json),
      SoundForest (some parent) next
        ((Property.blockOfParts parent next parts data).1.map Prod.snd)
        (Property.blockOfParts parent next parts data).2
  | [], data => by
    rw [Property.blockOfParts]
    exact SoundForest.nil _ _
  | p :: parts, data => by
    rw [Property.blockOfParts]
    cases p.name with
    | none => exact Property.soundForest_blockOfParts parent next parts data
    | some name =>
      exact (Property.soundForest_block (some parent) next p (data.field name)).append
        (Property.soundForest_blockOfParts parent _ parts data)

end

namespace Form

variable {f : Form} {id : ControlId}

/-! ## Appending a block -/

/-- The form that `build` starts from: the block of the model's properties and the document, before
any test is run. -/
def sprout (m : Model) (data : Json) (c : Config) : Form :=
  let capacity := max 1 c.channelCapacity
  let empty : Form :=
    { model := m
      defaults := m.defaultPolicy.getD (.ofConfig c)
      capacity
      slots := #[]
      structureChanges := .ofCapacity capacity
      called := [] }
  empty.append (Shape.block none none root (.object m.properties) data)

theorem build_eq (m : Model) (data : Json) (c : Config) :
    build m data c = (sprout m data c).refreshNew ((sprout m data c).idsFrom root) := rfl

/-- The slots of a form with a block behind them. -/
theorem slots_append (f : Form) (block : List Control) (id : Nat) :
    (f.append block).slots[id]? =
      if id < f.slots.size then f.slots[id]?
      else (block[id - f.slots.size]?).map fun c => ⟨some c, .ofCapacity f.capacity⟩ := by
  simp [append, Array.getElem?_append]

variable {m : Model} {data : Json} {c : Config}

theorem control?_sprout (id : Nat) :
    (sprout m data c).control? id =
      (Shape.block none none root (.object m.properties) data)[id]? := by
  simp only [control?, sprout, slots_append, Array.size_empty, Nat.not_lt_zero, if_false,
    Nat.sub_zero, Option.bind_map]
  exact Option.bind_fun_some _

theorem changes?_sprout {s : Stream Json} (hs : (sprout m data c).changes? id = some s) :
    ∃ capacity, s = .ofCapacity capacity := by
  simp only [changes?, sprout, slots_append] at hs
  obtain ⟨slot, hslot, rfl⟩ := Option.map_eq_some_iff.1 hs
  simp only [List.size_toArray, List.length_nil, Nat.not_lt_zero, if_false] at hslot
  obtain ⟨k, -, rfl⟩ := Option.map_eq_some_iff.1 hslot
  exact ⟨_, rfl⟩

private theorem parent_cases {id : Nat} {k : Control}
    (hk : (sprout m data c).control? id = some k) :
    (id = root ∧ k.parent = none) ∨ ∃ up, k.parent = some up ∧ up < id := by
  have forest := Shape.soundForest_block none none root (.object m.properties) data
  rw [control?_sprout] at hk
  have hzero : root + id = id := Nat.zero_add id
  rcases forest.parents id k hk with ⟨hid, hp⟩ | ⟨up, hup, -, hlt⟩
  · exact .inl ⟨hzero ▸ List.mem_singleton.1 hid, hp⟩
  · exact .inr ⟨up, hup, hzero ▸ hlt⟩

private theorem contains_sprout_of_le {id below : Nat} (hle : id ≤ below)
    (hbelow : (sprout m data c).contains below = true) :
    (sprout m data c).contains id = true := by
  simp only [contains, control?_sprout, Option.isSome_iff_ne_none, ne_eq,
    List.getElem?_eq_none_iff] at hbelow ⊢
  omega

theorem soundTree_sprout : (sprout m data c).SoundTree := by
  have forest := Shape.soundForest_block none none root (.object m.properties) data
  refine ⟨?_, ?_, ?_, ?_, ?_, ?_⟩
  · obtain ⟨i, k, hi, hk, -⟩ := forest.roots_mem root (List.mem_singleton_self _)
    have hzero : i = 0 := by simpa [root, eq_comm] using hi
    subst hzero
    have hroot : (sprout m data c).control? root = some k := (control?_sprout root).trans hk
    rw [contains, hroot]
    rfl
  · intro id hid hparent
    obtain ⟨k, hk⟩ := Option.isSome_iff_exists.1 hid
    rcases parent_cases hk with ⟨hroot, -⟩ | ⟨up, hup, -⟩
    · exact hroot
    · simp [parent?, hk, hup] at hparent
  · intro id parent hparent
    obtain ⟨k, hk, hup⟩ := Option.bind_eq_some_iff.1 hparent
    rcases parent_cases hk with ⟨-, hnone⟩ | ⟨up, hup', hlt⟩
    · simp [hnone] at hup
    · rw [hup] at hup'
      cases hup'
      exact hlt
  · intro id parent hparent
    obtain ⟨k, hk, hup⟩ := Option.bind_eq_some_iff.1 hparent
    rcases parent_cases hk with ⟨-, hnone⟩ | ⟨up, hup', hlt⟩
    · simp [hnone] at hup
    · rw [hup] at hup'
      cases hup'
      exact contains_sprout_of_le (Nat.le_of_lt hlt) (contains_of_parent? hparent)
  · intro id k hk child hchild
    rw [control?_sprout] at hk
    obtain ⟨j, d, hj, hd, hp⟩ := forest.children id k hk child hchild
    have hzero : child = j := hj.trans (Nat.zero_add j)
    subst hzero
    rw [parent?, control?_sprout, hd, Option.bind_some, hp]
    exact congrArg some (Nat.zero_add id)
  · intro id k hk
    rw [control?_sprout] at hk
    exact forest.names_nodup k (List.mem_of_getElem? hk)

/-! ## Built forms -/

theorem sameDocument_build (m : Model) (data : Json) (c : Config) :
    SameDocument (build m data c) (sprout m data c) :=
  build_eq m data c ▸ sameDocument_refreshNew _ _

theorem soundTree_build (m : Model) (data : Json) (c : Config) : (build m data c).SoundTree :=
  (sameDocument_build m data c).sameTree.symm.soundTree soundTree_sprout

/-- The streams of a built form are open, and nothing was sent to them. -/
theorem changes?_build {s : Stream Json} (hs : (build m data c).changes? id = some s) :
    ∃ capacity, s = .ofCapacity capacity :=
  changes?_sprout (((sameDocument_build m data c).changes id).symm.trans hs)

/-- The tests of a built form have recorded their verdicts on its document, and nothing else was
recorded. -/
theorem state?_build {s : ControlState} (hs : (build m data c).state? id = some s) :
    s = (build m data c).edited id ((build m data c).validated id .initial) := by
  have hdoc := sameDocument_build m data c
  have forest := Shape.soundForest_block none none root (.object m.properties) data
  rw [hdoc.edited, hdoc.validated]
  rw [build_eq, state?_refreshNew, state?] at hs
  obtain ⟨k, hk, hmem⟩ : ∃ k, (sprout m data c).control? id = some k ∧
      id ∈ (sprout m data c).idsFrom root := by
    cases hk : (sprout m data c).control? id with
    | none => simp [hk] at hs
    | some k =>
        refine ⟨k, rfl, ?_⟩
        have hlt : id < (sprout m data c).slots.size :=
          lt_size_of_contains (by simp [contains, hk])
        simp [idsFrom, hlt, root]
  -- the tests of every control have been run, on states that were initial before
  rw [if_pos hmem, hk] at hs
  rw [control?_sprout] at hk
  have hinitial := forest.initial k (List.mem_of_getElem? hk)
  simpa [hinitial] using hs.symm

end Form

end ReactiveForm
