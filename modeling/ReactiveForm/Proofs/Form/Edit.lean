import ReactiveForm.Proofs.Form.Outcomes
import ReactiveForm.Proofs.Form.Refresh
import ReactiveForm.Proofs.Stream.Delivery

/-!
# Setting a value

A field that gets a new value changes at most the values of its lineage (`value_of_setValue`). Every
control of the lineage is validated on the new values and then gets its new value sent to its
stream; other states and other streams stay as they are. So a value that changes is always
published, and the newest value of a stream is the present one (`Published`).
-/

namespace ReactiveForm.Form

variable {f g : Form} {id other : ControlId} {v : Json}

/-! ## Publishing -/

theorem control?_publish (f : Form) (ids : List ControlId) (other : ControlId) :
    (f.publish ids).control? other = f.control? other := by
  unfold publish control?
  generalize ids.filter f.contains = outgoing
  have hfold : ∀ slots : Array Slot,
      ((outgoing.foldl (fun slots id => slots.modify id fun s =>
        { s with changes := s.changes.send (f.value id) }) slots)[other]?.bind Slot.control)
        = slots[other]?.bind Slot.control := by
    induction outgoing with
    | nil => exact fun _ => rfl
    | cons id outgoing ih =>
        intro slots
        rw [List.foldl_cons, ih, Array.getElem?_modify]
        split
        · cases slots[other]? <;> rfl
        · rfl
  exact hfold f.slots

theorem size_publish (f : Form) (ids : List ControlId) :
    (f.publish ids).slots.size = f.slots.size := by
  unfold publish
  generalize ids.filter f.contains = outgoing
  have hfold : ∀ slots : Array Slot,
      (outgoing.foldl (fun slots id => slots.modify id fun s =>
        { s with changes := s.changes.send (f.value id) }) slots).size = slots.size := by
    induction outgoing with
    | nil => exact fun _ => rfl
    | cons id outgoing ih =>
        intro slots
        rw [List.foldl_cons, ih, Array.size_modify]
  exact hfold f.slots

theorem sameTree_publish (f : Form) (ids : List ControlId) : SameTree (f.publish ids) f where
  defaults := rfl
  size := size_publish f ids
  skeleton other := by rw [control?_publish]

theorem value_publish (f : Form) (ids : List ControlId) (other : ControlId) :
    (f.publish ids).value other = f.value other :=
  (sameTree_publish f ids).shape.value_congr (fun _ => True) (fun _ _ _ _ _ _ => trivial)
    (fun other _ => by rw [control?_publish]) trivial

theorem state?_publish (f : Form) (ids : List ControlId) (other : ControlId) :
    (f.publish ids).state? other = f.state? other := by
  rw [state?, state?, control?_publish]

/-- Publishing sends its present value to the stream of each control, as often as it is named. -/
theorem changes?_publish (f : Form) (ids : List ControlId) (other : ControlId) :
    (f.publish ids).changes? other = (f.changes? other).map fun s =>
      s.sendTimes (f.value other) ((ids.filter f.contains).count other) := by
  unfold publish changes?
  generalize ids.filter f.contains = outgoing
  have hfold : ∀ slots : Array Slot,
      ((outgoing.foldl (fun slots id => slots.modify id fun s =>
        { s with changes := s.changes.send (f.value id) }) slots)[other]?.map Slot.changes)
        = (slots[other]?.map Slot.changes).map fun s =>
          s.sendTimes (f.value other) (outgoing.count other) := by
    induction outgoing with
    | nil => intro slots; cases hs : slots[other]? <;> simp [hs, Stream.sendTimes]
    | cons id outgoing ih =>
        intro slots
        rw [List.foldl_cons, ih, Array.getElem?_modify, List.count_cons]
        by_cases heq : id = other
        · subst heq
          cases slots[id]? <;> simp [Stream.sendTimes_send]
        · simp [heq]
  exact hfold f.slots

/-! ## Setting a value -/

theorem setValue_eq_ok (hset : f.setValue id v = .ok g) :
    (∃ c, f.control? id = some c ∧ c.kind = .field) ∧
      g = ((f.stored id v).refreshLineage (f.lineage id)).publish (f.lineage id) := by
  unfold setValue at hset
  cases hc : f.control? id with
  | none => simp [hc] at hset
  | some c =>
      simp only [hc, ne_eq, ite_not] at hset
      split at hset
      · rename_i hkind
        exact ⟨⟨c, rfl, hkind⟩, (Except.ok.inj hset).symm⟩
      · cases hset

theorem sameTree_stored (f : Form) (id : ControlId) (v : Json) : SameTree (f.stored id v) f where
  defaults := rfl
  size := by simp [stored, modify]
  skeleton other := by
    rw [stored, control?_modify]
    split
    · rw [Option.map_map]
      rfl
    · rfl

section setValue

variable (hset : f.setValue id v = .ok g)

include hset

theorem sameTree_setValue : SameTree g f := by
  obtain ⟨-, rfl⟩ := setValue_eq_ok hset
  exact (sameTree_publish _ _).trans ((sameDocument_refreshLineage _ _).sameTree.trans
    (sameTree_stored f id v))

theorem contains_of_setValue : f.contains id = true := by
  obtain ⟨⟨c, hc, -⟩, -⟩ := setValue_eq_ok hset
  simp [contains, hc]

/-- Setting a value changes nothing outside of the lineage. -/
theorem value_of_setValue (sound : f.SoundTree) (hother : other ∉ f.lineage id) :
    g.value other = f.value other := by
  have hid := mem_lineage_self (contains_of_setValue hset)
  obtain ⟨-, rfl⟩ := setValue_eq_ok hset
  rw [value_publish, (sameDocument_refreshLineage _ _).value]
  -- what is outside of the lineage has only such controls below it
  refine ((sameTree_stored f id v).symm.shape.value_congr (· ∉ f.lineage id) ?_ ?_
    hother).symm
  · intro above c habove hc child hchild hmem
    exact habove (sound.mem_lineage_of_parent? hmem (sound.parent_of_child hc child hchild))
  · intro other hother
    rw [stored, control?_modify, if_neg]
    rintro rfl
    exact hother hid

/-- Every control of the lineage is validated on the new values. -/
theorem state?_of_setValue (other : ControlId) :
    g.state? other =
      if other ∈ f.lineage id then (f.state? other).map (g.validated other)
      else f.state? other := by
  obtain ⟨-, rfl⟩ := setValue_eq_ok hset
  have hstate : (f.stored id v).state? other = f.state? other := by
    rw [state?, state?, stored, control?_modify]
    split
    · rw [Option.map_map]
      rfl
    · rfl
  have hdoc := sameDocument_refreshLineage (f.stored id v) (f.lineage id)
  rw [state?_publish, state?_refreshLineage, hstate, ← hdoc.validated,
    (sameTree_publish _ _).validated (value_publish _ _)]

/-- Every control of the lineage gets its new value sent. -/
theorem changes?_of_setValue (other : ControlId) :
    g.changes? other = (f.changes? other).map fun s =>
      s.sendTimes (g.value other) ((f.lineage id).count other) := by
  have htree := sameTree_setValue hset
  obtain ⟨-, rfl⟩ := setValue_eq_ok hset
  have hdoc := sameDocument_refreshLineage (f.stored id v) (f.lineage id)
  -- nothing of the lineage is filtered out, because the tree has stayed
  have hall : (f.lineage id).filter ((f.stored id v).refreshLineage (f.lineage id)).contains =
      f.lineage id := by
    refine List.filter_eq_self.2 fun member hmember => ?_
    rw [hdoc.sameTree.contains, (sameTree_stored f id v).contains]
    exact contains_of_mem_lineage hmember
  rw [changes?_publish, hall, hdoc.changes, stored, changes?_modify, value_publish]

/-- Nothing is sent outside of the lineage. -/
theorem changes?_of_notMem_lineage (hother : other ∉ f.lineage id) :
    g.changes? other = f.changes? other := by
  rw [changes?_of_setValue hset, List.count_eq_zero_of_not_mem hother]
  cases f.changes? other <;> rfl

end setValue

/-! ## The newest value of a stream -/

/-- The value that was sent last to the stream of a control is the one that the control has. -/
structure Published (f : Form) : Prop where
  sound : ∀ {id s}, f.changes? id = some s → s.Sound
  newest : ∀ {id s v}, f.changes? id = some s → s.newest? = some v → v = f.value id

theorem Published.document (h : f.Published) (d : SameDocument g f) : g.Published where
  sound hs := h.sound ((d.changes _).symm.trans hs)
  newest hs hv := (h.newest ((d.changes _).symm.trans hs) hv).trans (d.value _).symm

theorem Published.setValue (h : f.Published) (sound : f.SoundTree)
    (hset : f.setValue id v = .ok g) : g.Published where
  sound hs := by
    rw [changes?_of_setValue hset] at hs
    obtain ⟨s, hbefore, rfl⟩ := Option.map_eq_some_iff.1 hs
    exact (h.sound hbefore).sendTimes _ _
  newest {other _ _} hs hv := by
    by_cases hmem : other ∈ f.lineage id
    · rw [changes?_of_setValue hset] at hs
      obtain ⟨s, hbefore, rfl⟩ := Option.map_eq_some_iff.1 hs
      obtain ⟨n, hn⟩ := Nat.exists_eq_add_of_lt (List.count_pos_iff.2 hmem)
      rw [hn, Nat.zero_add, Stream.newest?_sendTimes (h.sound hbefore)] at hv
      exact (Option.some.inj hv).symm
    · rw [changes?_of_notMem_lineage hset hmem] at hs
      exact (h.newest hs hv).trans (value_of_setValue hset sound hmem).symm

end ReactiveForm.Form
