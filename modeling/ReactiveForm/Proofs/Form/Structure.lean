import ReactiveForm.Proofs.Form.Edit
import ReactiveForm.Proofs.Form.Growth

/-!
# Changes to the structure

Putting an item into an array makes new controls behind all others, and taking one out drops
controls and closes their streams. Neither touches the stream of any other control (`Reshapes`), so
the streams of a form stay in order (`SoundStreams`). The values of the array and its ancestors are
sent when the change is published, and nothing else is sent.
-/

namespace ReactiveForm.Form

variable {f g h : Form} {id array : ControlId} {index : Nat}

/-! ## Streams in order -/

/-- The streams of a form are sound, and those of its controls are open. -/
structure SoundStreams (f : Form) : Prop where
  sound : ∀ {id s}, f.changes? id = some s → s.Sound
  closed : ∀ {id s}, f.contains id = true → f.changes? id = some s → s.closed = false

theorem SoundStreams.congr (streams : f.SoundStreams)
    (hcontains : ∀ id, g.contains id = f.contains id)
    (hchanges : ∀ id, g.changes? id = f.changes? id) : g.SoundStreams where
  sound hs := streams.sound ((hchanges _).symm.trans hs)
  closed hid hs := streams.closed ((hcontains _).symm.trans hid) ((hchanges _).symm.trans hs)

theorem SoundStreams.document (streams : f.SoundStreams) (d : SameDocument g f) : g.SoundStreams :=
  streams.congr d.sameTree.contains d.changes

/-- Sending values keeps the streams in order. -/
theorem SoundStreams.sendTimes (streams : f.SoundStreams)
    (hcontains : ∀ id, g.contains id = f.contains id) {v : ControlId → Json} {n : ControlId → Nat}
    (hsent : ∀ id, g.changes? id = (f.changes? id).map fun s => s.sendTimes (v id) (n id)) :
    g.SoundStreams where
  sound hs := by
    obtain ⟨s, hbefore, rfl⟩ := Option.map_eq_some_iff.1 ((hsent _).symm.trans hs)
    exact (streams.sound hbefore).sendTimes _ _
  closed hid hs := by
    obtain ⟨s, hbefore, rfl⟩ := Option.map_eq_some_iff.1 ((hsent _).symm.trans hs)
    rw [Stream.closed_sendTimes]
    exact streams.closed ((hcontains _).symm.trans hid) hbefore

theorem SoundStreams.setValue (streams : f.SoundStreams) {v : Json}
    (hset : f.setValue id v = .ok g) : g.SoundStreams :=
  streams.sendTimes (sameTree_setValue hset).contains (changes?_of_setValue hset)

theorem soundStreams_build (m : Model) (data : Json) (c : Config) :
    (Form.build m data c).SoundStreams where
  sound hs := by
    obtain ⟨capacity, rfl⟩ := Form.changes?_build hs
    exact .ofCapacity capacity
  closed _ hs := by
    obtain ⟨capacity, rfl⟩ := Form.changes?_build hs
    rfl

theorem published_build (m : Model) (data : Json) (c : Config) :
    (Form.build m data c).Published where
  sound hs := (soundStreams_build m data c).sound hs
  newest hs hv := by
    obtain ⟨capacity, rfl⟩ := Form.changes?_build hs
    cases hv

/-! ## New and dropped controls -/

/-- The controls of the form have changed: those that are gone have closed streams, new ones have
new streams, and the streams of all others are as before. -/
structure Reshapes (f g : Form) : Prop where
  kept : ∀ {id s}, f.changes? id = some s →
    g.changes? id = some s ∨ g.changes? id = some s.close ∧ g.contains id = false
  fresh : ∀ {id s}, f.changes? id = none → g.changes? id = some s →
    ∃ capacity, s = .ofCapacity capacity
  contains : ∀ {id}, g.contains id = true → f.contains id = true ∨ f.changes? id = none

theorem Reshapes.document (h : Reshapes f g) {g' : Form} (d : SameDocument g' g) :
    Reshapes f g' where
  kept hs := by
    rw [d.changes, d.sameTree.contains]
    exact h.kept hs
  fresh hnone hs := h.fresh hnone ((d.changes _).symm.trans hs)
  contains hid := h.contains ((d.sameTree.contains _).symm.trans hid)

/-- The stream of a control that is still there is as before. -/
theorem Reshapes.changes? (h : Reshapes f g) {s : Stream Json} (hid : g.contains id = true)
    (hs : f.changes? id = some s) : g.changes? id = some s := by
  rcases h.kept hs with hsame | ⟨-, hgone⟩
  · exact hsame
  · simp [hgone] at hid

/-- No control comes back: a control that is there was there before, or its number had not been
given to any. -/
structure Follows (f g : Form) : Prop where
  contains : ∀ {id}, g.contains id = true → f.contains id = true ∨ f.changes? id = none
  unborn : ∀ {id}, g.changes? id = none → f.changes? id = none

theorem Reshapes.follows (h : Reshapes f g) : Follows f g where
  contains := h.contains
  unborn {id} hnone := by
    cases hbefore : f.changes? id with
    | none => rfl
    | some s =>
        rcases h.kept hbefore with hsame | ⟨hclosed, -⟩
        · rw [hnone] at hsame
          cases hsame
        · rw [hnone] at hclosed
          cases hclosed

theorem SameTree.follows (t : SameTree g f) : Follows f g where
  contains hid := .inl (t.contains _ ▸ hid)
  unborn {id} hnone := by
    have hsize : ∀ h : Form, h.changes? id = none ↔ h.slots.size ≤ id := fun h => by
      rw [Form.changes?, Option.map_eq_none_iff, Array.getElem?_eq_none_iff]
    rw [hsize] at hnone ⊢
    exact t.size ▸ hnone

theorem Follows.trans (h : Follows f g) {g' : Form} (h' : Follows g g') : Follows f g' where
  contains hid := (h'.contains hid).elim h.contains fun hnone => .inr (h.unborn hnone)
  unborn hnone := h.unborn (h'.unborn hnone)

theorem Reshapes.soundStreams (h : Reshapes f g) (streams : f.SoundStreams) : g.SoundStreams where
  sound {id s} hs := by
    cases hbefore : f.changes? id with
    | none =>
        obtain ⟨capacity, rfl⟩ := h.fresh hbefore hs
        exact .ofCapacity capacity
    | some before =>
        rcases h.kept hbefore with hsame | ⟨hclosed, -⟩
        · cases hsame.symm.trans hs
          exact streams.sound hbefore
        · cases hclosed.symm.trans hs
          exact (streams.sound hbefore).close
  closed {id s} hid hs := by
    cases hbefore : f.changes? id with
    | none =>
        obtain ⟨capacity, rfl⟩ := h.fresh hbefore hs
        rfl
    | some before =>
        cases (h.changes? hid hbefore).symm.trans hs
        refine streams.closed ((h.contains hid).resolve_right ?_) hbefore
        simp [hbefore]

/-! ## Putting an item into an array -/

private theorem changes?_append (f : Form) (block : List Control) (id : Nat) :
    (f.append block).changes? id =
      if id < f.slots.size then f.changes? id
      else (block[id - f.slots.size]?).map fun _ => .ofCapacity f.capacity := by
  rw [Form.changes?, slots_append]
  split
  · rfl
  · rw [Option.map_map]
    rfl

private theorem contains_append (f : Form) (block : List Control) {id : Nat}
    (hid : (f.append block).contains id = true) : f.contains id = true ∨ f.changes? id = none := by
  rw [contains, control?, slots_append] at hid
  split at hid
  · exact .inl hid
  · rename_i hge
    exact .inr (by rw [Form.changes?, Array.getElem?_eq_none (Nat.le_of_not_lt hge)]; rfl)

theorem contains_modify (f : Form) (id : ControlId) (change : Control → Control)
    (other : ControlId) : (f.modify id change).contains other = f.contains other := by
  rw [contains, contains, control?_modify]
  split
  · rw [Option.isSome_map]
  · rfl

theorem Reshapes.modify (h : Reshapes f g) (id : ControlId) (change : Control → Control) :
    Reshapes f (g.modify id change) where
  kept hs := by
    rw [changes?_modify, contains_modify]
    exact h.kept hs
  fresh hnone hs := h.fresh hnone ((changes?_modify _ _ _ _).symm.trans hs)
  contains hid := h.contains ((contains_modify _ _ _ _).symm.trans hid)

theorem reshapes_append (f : Form) (block : List Control) : Reshapes f (f.append block) where
  kept {id s} hs := by
    have hlt : (id : Nat) < f.slots.size := by
      refine Nat.lt_of_not_le fun hge => ?_
      simp [Form.changes?, Array.getElem?_eq_none hge] at hs
    rw [changes?_append, if_pos hlt]
    exact .inl hs
  fresh {id s} hnone hs := by
    rw [changes?_append] at hs
    split at hs
    · rw [hnone] at hs
      cases hs
    · obtain ⟨-, -, rfl⟩ := Option.map_eq_some_iff.1 hs
      exact ⟨_, rfl⟩
  contains hid := contains_append f block hid

theorem exists_prepareInsert_of_preparePush {value : Json} {e : Edit}
    (h : f.preparePush array value = .ok (id, e)) :
    ∃ index, f.prepareInsert array index value = .ok (id, e) := by
  unfold preparePush at h
  cases hc : f.control? array with
  | none => simp [hc] at h
  | some c =>
      simp only [hc] at h
      split at h
      · exact ⟨_, h⟩
      · cases h

/-! ## Taking an item out of an array -/

theorem slots_drop (f : Form) (ids : List ControlId) (id : ControlId) :
    (f.drop ids).slots[id]? =
      if id ∈ ids then f.slots[id]?.map fun s => ⟨none, s.changes.close⟩ else f.slots[id]? := by
  unfold drop
  dsimp only
  generalize f.slots = slots
  induction ids generalizing slots with
  | nil => simp
  | cons first ids ih =>
      rw [List.foldl_cons, ih, Array.getElem?_modify]
      by_cases heq : first = id
      · subst heq
        cases slots[first]? <;> simp [Stream.close]
      · have hne : ¬ id = first := fun h => heq h.symm
        simp [heq, hne]

theorem reshapes_drop (f : Form) (ids : List ControlId) : Reshapes f (f.drop ids) where
  kept {id s} hs := by
    obtain ⟨slot, hslot, rfl⟩ := Option.map_eq_some_iff.1 hs
    rw [Form.changes?, contains, control?, slots_drop, hslot]
    split
    · exact .inr ⟨rfl, rfl⟩
    · exact .inl rfl
  fresh {id s} hnone hs := by
    have hslot : f.slots[id]? = none := Option.map_eq_none_iff.1 hnone
    rw [Form.changes?, slots_drop, hslot] at hs
    simp at hs
  contains {id} hid := by
    rw [contains, control?, slots_drop] at hid
    split at hid
    · cases hslot : f.slots[id]? <;> simp [hslot] at hid
    · exact .inl hid

/-! ## Publishing a change -/

theorem sameTree_edit_publish (e : Edit) : SameTree e.publish e.form :=
  have h := sameTree_publish e.form e.lineage
  ⟨h.defaults, h.size, h.skeleton⟩

theorem changes?_edit_publish (e : Edit) (id : ControlId) :
    e.publish.changes? id = (e.form.changes? id).map fun s =>
      s.sendTimes (e.form.value id) ((e.lineage.filter e.form.contains).count id) :=
  changes?_publish e.form e.lineage id

theorem SoundStreams.edit_publish {e : Edit} (streams : e.form.SoundStreams) :
    e.publish.SoundStreams :=
  streams.sendTimes (sameTree_edit_publish e).contains (changes?_edit_publish e)

end ReactiveForm.Form
