import ReactiveForm.Proofs.Form.Structure

/-!
# Items that come and go

A structure edit that succeeds either puts the controls of a new item behind all others, or drops
the controls of an item (`Prepared`). Everything that later modules need to know about such an edit
is read off these two shapes: parents still come before their children (`ParentsBefore`), and the
state of a control is the former one, possibly with a new verdict on its validity, or that of a new
control after all of its tests (`Retests`).
-/

namespace ReactiveForm

/-- A control is a former one with other children or another value. -/
structure Control.Continues (k c : Control) : Prop where
  parent : k.parent = c.parent
  property : k.property = c.property
  state : k.state = c.state

namespace Form

variable {f g h : Form} {id : Nat} {array : ControlId} {index : Nat}

/-! ## The two shapes of a structure edit -/

/-- A structure edit of an array that was prepared on a form. -/
inductive Prepared (f : Form) (array : ControlId) : Edit → Prop where
  /-- An item was put into the array. -/
  | inserted (items : List ControlId) (index : Nat) (item : Property) (value : Json)
      (hlive : f.contains array = true) : Prepared f array (f.growth array items index item value)
  /-- An item was taken out of the array. -/
  | removed (items : List ControlId) (index : Nat) (item : ControlId)
      (hlive : f.contains array = true) : Prepared f array (f.shrinkage array items index item)

/-- The tests that are run on the new controls and above them leave the document. -/
theorem sameDocument_growth (f : Form) (array : ControlId) (items : List ControlId) (index : Nat)
    (item : Property) (value : Json) :
    SameDocument (f.growth array items index item value).form
      (f.grown array items index item value) :=
  (sameDocument_refreshLineage _ _).trans (sameDocument_refreshNew _ _)

theorem sameDocument_shrinkage (f : Form) (array : ControlId) (items : List ControlId)
    (index : Nat) (item : ControlId) :
    SameDocument (f.shrinkage array items index item).form (f.shrunk array items index item) :=
  sameDocument_refreshLineage _ _

theorem prepared_of_prepareInsert {value : Json} {e : Edit}
    (h : f.prepareInsert array index value = .ok (id, e)) : f.Prepared array e := by
  unfold prepareInsert at h
  cases hc : f.control? array with
  | none => simp [hc] at h
  | some c =>
      simp only [hc] at h
      split at h
      · split at h
        · cases h
        · cases h
          exact .inserted _ _ _ _ (by rw [contains, hc]; rfl)
      · cases h

theorem prepared_of_preparePush {value : Json} {e : Edit}
    (h : f.preparePush array value = .ok (id, e)) : f.Prepared array e :=
  (exists_prepareInsert_of_preparePush h).elim fun _ => prepared_of_prepareInsert

theorem prepared_of_prepareRemove {value : Json} {e : Edit}
    (h : f.prepareRemove array index = .ok (value, e)) : f.Prepared array e := by
  unfold prepareRemove at h
  cases hc : f.control? array with
  | none => simp [hc] at h
  | some c =>
      simp only [hc] at h
      split at h
      · split at h
        · cases h
        · cases h
          exact .removed _ _ _ (by rw [contains, hc]; rfl)
      · cases h

/-! ## Controls -/

theorem control?_append (f : Form) (block : List Control) (id : Nat) :
    (f.append block).control? id =
      if id < f.slots.size then f.control? id else block[id - f.slots.size]? := by
  rw [control?, slots_append]
  split
  · rfl
  · rw [Option.bind_map]
    exact Option.bind_fun_some _

theorem control?_drop (f : Form) (ids : List ControlId) (id : ControlId) :
    (f.drop ids).control? id = if id ∈ ids then none else f.control? id := by
  rw [control?, slots_drop]
  split
  · cases f.slots[id]? <;> rfl
  · rfl

private theorem control?_modify_children (f : Form) (id : ControlId) (children : Children)
    {k : Control} {other : ControlId}
    (hk : (f.modify id fun c => { c with children }).control? other = some k) :
    ∃ c, f.control? other = some c ∧ k.Continues c := by
  rw [control?_modify] at hk
  split at hk
  · obtain ⟨c, hc, rfl⟩ := Option.map_eq_some_iff.1 hk
    exact ⟨c, hc, rfl, rfl, rfl⟩
  · exact ⟨k, hk, rfl, rfl, rfl⟩

/-- A control of a form with a new item has been there before, or it is new and untested. -/
theorem control?_grown {items : List ControlId} {item : Property} {value : Json} {k : Control}
    (hk : (f.grown array items index item value).control? id = some k) :
    (∃ c, f.control? id = some c ∧ k.Continues c) ∨
      f.slots.size ≤ id ∧ k.state = .initial ∧
        (id = f.slots.size ∧ k.parent = some array ∨
          ∃ up, k.parent = some up ∧ f.slots.size ≤ up ∧ up < id) := by
  obtain ⟨c, hc, hkept⟩ := control?_modify_children _ _ _ hk
  rw [control?_append] at hc
  split at hc
  · exact .inl ⟨c, hc, hkept⟩
  · rename_i hge
    have hge : f.slots.size ≤ id := Nat.le_of_not_lt hge
    have forest := Property.soundForest_block (some array) f.slots.size item value
    have hid : f.slots.size + (id - f.slots.size) = id := by omega
    refine .inr ⟨hge, hkept.state.trans (forest.initial c (List.mem_of_getElem? hc)), ?_⟩
    rcases forest.parents _ c hc with ⟨hroot, htop⟩ | ⟨up, hup, hle, hlt⟩
    · rw [hid] at hroot
      exact .inl ⟨List.mem_singleton.1 hroot, hkept.parent.trans htop⟩
    · exact .inr ⟨up, hkept.parent.trans hup, hle, hid ▸ hlt⟩

/-- A control of a form without an item has been there before. -/
theorem control?_shrunk {items : List ControlId} {item : ControlId} {k : Control}
    (hk : (f.shrunk array items index item).control? id = some k) :
    ∃ c, f.control? id = some c ∧ k.Continues c := by
  obtain ⟨c, hc, hkept⟩ := control?_modify_children _ _ _ hk
  rw [control?_drop] at hc
  split at hc
  · cases hc
  · exact ⟨c, hc, hkept⟩

/-! ## Parents come before their children -/

/-- The parent of a control has a smaller number. -/
def ParentsBefore (f : Form) : Prop :=
  ∀ id parent : Nat, f.parent? id = some parent → parent < id

theorem SameTree.parentsBefore (t : SameTree f g) (hf : f.ParentsBefore) : g.ParentsBefore :=
  fun _ _ hparent => hf _ _ ((t.parent? _).trans hparent)

/-- An edit leaves the tree of the form that it was made to before the tests were run. -/
theorem Prepared.parentsBefore {e : Edit} (he : f.Prepared array e) (hf : f.ParentsBefore) :
    e.form.ParentsBefore := by
  have hkept : ∀ {k c : Control} {id parent : Nat}, f.control? id = some c →
      k.Continues c → k.parent = some parent → parent < id := by
    intro k c id parent hc hsame hparent
    exact hf _ _ (by rw [parent?, hc]; exact hsame.parent.symm.trans hparent)
  cases he with
  | inserted items index item value hlive =>
      refine (sameDocument_growth f array items index item value).sameTree.symm.parentsBefore ?_
      intro id parent hid
      obtain ⟨k, hk, hparent⟩ := Option.bind_eq_some_iff.1 hid
      rcases control?_grown hk with ⟨c, hc, hsame⟩ | ⟨hge, -, ⟨rfl, htop⟩ | ⟨up, hup, -, hlt⟩⟩
      · exact hkept hc hsame hparent
      · cases hparent.symm.trans htop
        exact lt_size_of_contains hlive
      · cases hparent.symm.trans hup
        exact hlt
  | removed items index item hlive =>
      refine (sameDocument_shrinkage f array items index item).sameTree.symm.parentsBefore ?_
      intro id parent hid
      obtain ⟨k, hk, hparent⟩ := Option.bind_eq_some_iff.1 hid
      obtain ⟨c, hc, hsame⟩ := control?_shrunk hk
      exact hkept hc hsame hparent

theorem parentsBefore_build (m : Model) (data : Json) (c : Config) :
    (build m data c).ParentsBefore := fun _ _ => (soundTree_build m data c).parent_lt

/-! ## Lineages -/

theorem SameTree.lineage (t : SameTree f g) (id : ControlId) : f.lineage id = g.lineage id := by
  have hwithin : ∀ n id, f.lineageWithin n id = g.lineageWithin n id := by
    intro n
    induction n with
    | zero => exact fun _ => rfl
    | succ n ih =>
        intro id
        simp only [lineageWithin_succ, t.contains, t.parent?, ih]
  rw [Form.lineage, Form.lineage, t.size, hwithin]

theorem le_of_mem_lineageWithin (hf : f.ParentsBefore) {n : Nat} {member : Nat}
    (hmem : member ∈ f.lineageWithin n id) : member ≤ id := by
  induction n generalizing id with
  | zero => cases hmem
  | succ n ih =>
      rw [lineageWithin_succ] at hmem
      split at hmem
      · split at hmem
        · exact Nat.le_of_eq (List.mem_singleton.1 hmem)
        · rename_i parent hparent
          rcases List.mem_cons.1 hmem with rfl | hmem
          · exact Nat.le_refl _
          · exact Nat.le_trans (ih hmem) (Nat.le_of_lt (hf _ _ hparent))
      · cases hmem

/-- No control is its own ancestor. -/
theorem nodup_lineage (hf : f.ParentsBefore) (id : Nat) : (f.lineage id).Nodup := by
  unfold lineage
  generalize f.slots.size = n
  induction n generalizing id with
  | zero => exact .nil
  | succ n ih =>
      rw [lineageWithin_succ]
      split
      · split
        · exact List.pairwise_singleton _ _
        · rename_i parent hparent
          refine List.nodup_cons.2 ⟨fun hmem => ?_, ih parent⟩
          exact absurd (le_of_mem_lineageWithin hf hmem) (Nat.not_le_of_lt (hf _ _ hparent))
      · exact .nil

/-- An edit publishes the array and its ancestors. -/
theorem Prepared.lineage_eq {e : Edit} (he : f.Prepared array e) :
    e.lineage = e.form.lineage array := by
  cases he with
  | inserted items index item value hlive =>
      exact (sameDocument_growth f array items index item value).sameTree.symm.lineage array
  | removed items index item hlive =>
      exact (sameDocument_shrinkage f array items index item).sameTree.symm.lineage array

theorem Prepared.reshapes {e : Edit} (he : f.Prepared array e) : Reshapes f e.form := by
  cases he with
  | inserted items index item value hlive =>
      exact ((reshapes_append f _).modify _ _).document (sameDocument_growth _ _ _ _ _ _)
  | removed items index item hlive =>
      exact ((reshapes_drop f _).modify _ _).document (sameDocument_shrinkage _ _ _ _ _)

/-! ## Properties after an edit -/

/-- A control that is there in both forms has the same property and the same policy. -/
structure KeepsProperties (f g : Form) : Prop where
  defaults : g.defaults = f.defaults
  property? : ∀ id, f.contains id = true → g.contains id = true → g.property? id = f.property? id

theorem SameTree.keepsProperties (t : SameTree g f) : KeepsProperties f g :=
  ⟨t.defaults, fun id _ _ => t.property? id⟩

theorem Prepared.keepsProperties {e : Edit} (he : f.Prepared array e) :
    KeepsProperties f e.form := by
  have hkept : ∀ {k c : Control} {id : Nat} {g : Form}, g.control? id = some k →
      f.control? id = some c → k.Continues c → g.property? id = f.property? id := by
    intro k c id g hk hc hsame
    rw [Form.property?, Form.property?, hk, hc]
    exact hsame.property
  cases he with
  | inserted items index item value hlive =>
      have hdoc := sameDocument_growth f array items index item value
      refine ⟨hdoc.defaults, fun id hid hgid => ?_⟩
      rw [hdoc.sameTree.contains] at hgid
      rw [hdoc.sameTree.property?]
      obtain ⟨k, hk⟩ := Option.isSome_iff_exists.1 hgid
      rcases control?_grown hk with ⟨c, hc, hsame⟩ | ⟨hge, -⟩
      · exact hkept hk hc hsame
      · exact absurd (lt_size_of_contains hid) (Nat.not_lt_of_le hge)
  | removed items index item hlive =>
      have hdoc := sameDocument_shrinkage f array items index item
      refine ⟨hdoc.defaults, fun id hid hgid => ?_⟩
      rw [hdoc.sameTree.contains] at hgid
      rw [hdoc.sameTree.property?]
      obtain ⟨k, hk⟩ := Option.isSome_iff_exists.1 hgid
      obtain ⟨c, hc, hsame⟩ := control?_shrunk hk
      exact hkept hk hc hsame

/-! ## States after an edit -/

/-- The state of a control in a form that came out of another one by an edit: the former state, with
a new verdict on its validity along a lineage, or that of a new control after all of its tests. -/
def Retests (f g : Form) (lineage : List ControlId) : Prop :=
  ∀ id s', g.state? id = some s' →
    (∃ s, f.state? id = some s ∧ s' = if id ∈ lineage then g.validated id s else s) ∨
      f.state? id = none ∧ s' = g.edited id (g.validated id .initial)

theorem retests_setValue {v : Json} (hset : f.setValue id v = .ok g) :
    Retests f g (g.lineage id) := by
  intro other s' hs'
  rw [(sameTree_setValue hset).lineage]
  rw [state?_of_setValue hset] at hs'
  split at hs'
  · rename_i hmem
    obtain ⟨s, hs, rfl⟩ := Option.map_eq_some_iff.1 hs'
    exact .inl ⟨s, hs, (if_pos hmem).symm⟩
  · rename_i hnot
    exact .inl ⟨s', hs', (if_neg hnot).symm⟩

/-- Publishing changes no state and no verdict. -/
theorem Retests.publish {lineage : List ControlId} (h : Retests f g lineage)
    (ids : List ControlId) : Retests f (g.publish ids) lineage := by
  intro id s' hs'
  rw [state?_publish] at hs'
  have hvalidated := (sameTree_publish g ids).validated (value_publish g ids) id
  have hedited : (g.publish ids).edited id = g.edited id := by
    funext s
    simp only [edited, (sameTree_publish g ids).property?,
      (sameTree_publish g ids).verdict (value_publish g ids)]
  rw [hvalidated, hedited]
  exact h id s' hs'

theorem sameDocument_announce (f : Form) (change : StructureChange) :
    SameDocument (f.announce change) f := ⟨rfl, rfl, fun _ => rfl, fun _ => rfl⟩

theorem value_edit_publish (e : Edit) (id : ControlId) : e.publish.value id = e.form.value id :=
  ((sameDocument_announce (e.form.publish e.lineage) e.change).value id).trans
    (value_publish e.form e.lineage id)

theorem Retests.announce {lineage : List ControlId} (h : Retests f g lineage)
    (change : StructureChange) : Retests f (g.announce change) lineage := by
  intro id s' hs'
  rw [(sameDocument_announce g change).validated, (sameDocument_announce g change).edited]
  exact h id s' hs'

private theorem mem_idsFrom {first : Nat} :
    id ∈ f.idsFrom first ↔ id < f.slots.size ∧ first ≤ id := by
  simp [idsFrom]

/-- A control that was there before an item came is tested again only if it is the array or one of
its ancestors, and a new control is tested once. -/
private theorem retests_growth (hlive : f.contains array = true) (hf : f.ParentsBefore)
    (items : List ControlId) (item : Property) (value : Json) :
    Retests f (f.growth array items index item value).form
      (f.growth array items index item value).lineage := by
  intro id s' hs'
  have hdoc := sameDocument_growth f array items index item value
  rw [hdoc.validated, hdoc.edited]
  have htree := hdoc.sameTree.parentsBefore
    ((Prepared.inserted items index item value hlive).parentsBefore hf)
  unfold growth at hs' ⊢
  dsimp only at hs' ⊢
  rw [state?_refreshLineage, (sameDocument_refreshNew _ _).validated, state?_refreshNew] at hs'
  cases hk : (f.grown array items index item value).control? id with
  | none => simp [state?, hk] at hs'
  | some k =>
      have hstate : (f.grown array items index item value).state? id = some k.state := by
        rw [state?, hk]
        rfl
      have hid : id < (f.grown array items index item value).slots.size :=
        lt_size_of_contains (by rw [contains, hk]; rfl)
      rcases control?_grown hk with ⟨c, hc, hsame⟩ | ⟨hge, hinitial, -⟩
      · -- a control that was there before is at most on the way from the array to the root
        have hold : id ∉ (f.grown array items index item value).idsFrom f.slots.size := fun hmem =>
          absurd (mem_idsFrom.1 hmem).2
            (Nat.not_le_of_lt (lt_size_of_contains (by rw [contains, hc]; rfl)))
        have hbefore : f.state? id = some k.state := by
          rw [state?, hc, hsame.state]
          rfl
        rw [if_neg hold, hstate] at hs'
        split at hs'
        · rename_i hmem
          exact .inl ⟨_, hbefore, (Option.some.inj hs').symm.trans (if_pos hmem).symm⟩
        · rename_i hnot
          exact .inl ⟨_, hbefore, (Option.some.inj hs').symm.trans (if_neg hnot).symm⟩
      · -- the way from the array to the root does not lead through the item
        have hnot : id ∉ (f.grown array items index item value).lineage array := fun hmem =>
          absurd (Nat.le_trans hge (le_of_mem_lineageWithin htree hmem))
            (Nat.not_le_of_lt (lt_size_of_contains hlive))
        have hnone : f.state? id = none := by
          rw [state?, control?, Array.getElem?_eq_none hge]
          rfl
        rw [if_neg hnot, if_pos (mem_idsFrom.2 ⟨hid, hge⟩), hstate, hinitial] at hs'
        exact .inr ⟨hnone, (Option.some.inj hs').symm⟩

theorem Prepared.retests {e : Edit} (he : f.Prepared array e) (hf : f.ParentsBefore) :
    Retests f e.form e.lineage := by
  cases he with
  | inserted items index item value hlive => exact retests_growth hlive hf items item value
  | removed items index item hlive =>
      intro id s' hs'
      have hkept : ∀ {s}, (f.shrunk array items index item).state? id = some s →
          f.state? id = some s := by
        intro s hs
        obtain ⟨k, hk, rfl⟩ := Option.map_eq_some_iff.1 hs
        obtain ⟨c, hc, hsame⟩ := control?_shrunk hk
        rw [state?, hc, hsame.state]
        rfl
      rw [(sameDocument_shrinkage f array items index item).validated]
      unfold shrinkage at hs' ⊢
      dsimp only at hs' ⊢
      rw [state?_refreshLineage] at hs'
      split at hs'
      · rename_i hmem
        obtain ⟨s, hs, rfl⟩ := Option.map_eq_some_iff.1 hs'
        exact .inl ⟨s, hkept hs, (if_pos hmem).symm⟩
      · rename_i hnot
        exact .inl ⟨s', hkept hs', (if_neg hnot).symm⟩

/-! ## What is not sent yet -/

theorem structureChanges_refreshValidity (f : Form) (id : ControlId) :
    (f.refreshValidity id).2.structureChanges = f.structureChanges := by
  unfold refreshValidity runChecks
  cases f.property? id <;> rfl

theorem structureChanges_refreshEditability (f : Form) (id : ControlId) :
    (f.refreshEditability id).2.structureChanges = f.structureChanges := by
  have hview : ∀ g : Form, (g.refreshVisibility id).structureChanges = g.structureChanges := by
    intro g
    unfold refreshVisibility runChecks
    cases g.property? id <;> rfl
  unfold refreshEditability runChecks
  cases f.property? id with
  | none => exact hview f
  | some p => exact hview _

theorem structureChanges_refreshLineage (f : Form) (ids : List ControlId) :
    (f.refreshLineage ids).structureChanges = f.structureChanges := by
  unfold refreshLineage
  induction ids generalizing f with
  | nil => rfl
  | cons id ids ih => exact (ih _).trans (structureChanges_refreshValidity f id)

theorem structureChanges_refreshNew (f : Form) (ids : List ControlId) :
    (f.refreshNew ids).structureChanges = f.structureChanges := by
  unfold refreshNew
  induction ids generalizing f with
  | nil => rfl
  | cons id ids ih =>
      exact (ih _).trans ((structureChanges_refreshEditability _ id).trans
        (structureChanges_refreshValidity f id))

/-- A prepared edit has not sent the change to the structure. -/
theorem Prepared.structureChanges {e : Edit} (he : f.Prepared array e) :
    e.form.structureChanges = f.structureChanges := by
  cases he with
  | inserted items index item value hlive =>
      exact (structureChanges_refreshLineage _ _).trans (structureChanges_refreshNew _ _)
  | removed items index item hlive => exact structureChanges_refreshLineage _ _

end Form

end ReactiveForm
