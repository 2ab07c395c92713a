import ReactiveForm.Proofs.Form.Items
import ReactiveForm.Proofs.Form.Grafts

/-!
# Forms that look the same

How forms are compared depends on what is looked at (`Sight`): controls with all that belongs to
them, or without what inquiries show, and with or without the record of the rules that were called.
Change streams are never looked at. Nothing that is done to a form reads them, so forms that look
the same do so after the same operation, and the operation succeeds for both or fails for both with
the same error (`Agrees.setValue`, `Agrees.prepareInsert`, `Agrees.prepareRemove`).
-/

namespace ReactiveForm

/-- What is looked at when forms are compared, beside the controls and their values. -/
structure Sight where
  /-- Whether it is looked at what inquiries show. -/
  inquiries : Bool
  /-- Whether the record of called rules is looked at. -/
  calls : Bool

variable {sight : Sight}

/-- What is seen of the state of a control. -/
def Sight.state (sight : Sight) (s : ControlState) : ControlState :=
  if sight.inquiries then s else { s with pending := false, asyncErrors := none }

/-- What is seen of a control. -/
def Control.seen (sight : Sight) (c : Control) : Control := { c with state := sight.state c.state }

/-- What does not depend on the state is the same for controls that are seen in the same way. -/
theorem Control.eq_of_seen {α : Type} {c d : Control} (hseen : c.seen sight = d.seen sight)
    (look : Control → α) (hlook : ∀ c : Control, look (c.seen sight) = look c) :
    look c = look d :=
  (hlook c).symm.trans ((congrArg look hseen).trans (hlook d))

theorem Control.children_eq_of_seen {c d : Control} (hseen : c.seen sight = d.seen sight) :
    c.children = d.children := Control.eq_of_seen hseen Control.children fun _ => rfl

/-- A change to a state that does not depend on what is not seen of it. -/
def Sight.Admits (sight : Sight) (change : ControlState → ControlState) : Prop :=
  ∀ s s', sight.state s = sight.state s' → sight.state (change s) = sight.state (change s')

/-- A change that does not touch what inquiries show, nor depend on it. -/
theorem Sight.admits_of_commutes {change : ControlState → ControlState}
    (h : ∀ s, change { s with pending := false, asyncErrors := none } =
      { change s with pending := false, asyncErrors := none }) : sight.Admits change := by
  intro s s' heq
  unfold Sight.state at heq ⊢
  cases hinquiries : sight.inquiries with
  | true =>
      rw [hinquiries, if_pos rfl, if_pos rfl] at heq
      rw [heq]
  | false =>
      rw [hinquiries, if_neg Bool.false_ne_true, if_neg Bool.false_ne_true] at heq
      rw [if_neg Bool.false_ne_true, if_neg Bool.false_ne_true, ← h, ← h, heq]

/-- Both calls fail with the same error, or both succeed with related results. -/
inductive Alike {α : Type} (r : α → α → Prop) : Except FormError α → Except FormError α → Prop where
  | error (err : FormError) : Alike r (.error err) (.error err)
  | ok {a b : α} (h : r a b) : Alike r (.ok a) (.ok b)

namespace Form

/-- The forms look the same. -/
structure Agrees (sight : Sight) (f g : Form) : Prop where
  defaults : f.defaults = g.defaults
  size : f.slots.size = g.slots.size
  control? : ∀ id,
    (f.control? id).map (Control.seen sight) = (g.control? id).map (Control.seen sight)
  called : sight.calls = true → f.called = g.called

variable {f g h : Form} {id array : ControlId} {index : Nat}

namespace Agrees

theorem refl (f : Form) : Agrees sight f f := ⟨rfl, rfl, fun _ => rfl, fun _ => rfl⟩

theorem symm (h : Agrees sight f g) : Agrees sight g f :=
  ⟨h.defaults.symm, h.size.symm, fun id => (h.control? id).symm,
    fun hcalls => (h.called hcalls).symm⟩

theorem trans (hfg : Agrees sight f g) (hgh : Agrees sight g h) : Agrees sight f h :=
  ⟨hfg.defaults.trans hgh.defaults, hfg.size.trans hgh.size,
    fun id => (hfg.control? id).trans (hgh.control? id),
    fun hcalls => (hfg.called hcalls).trans (hgh.called hcalls)⟩

/-- Empty records of called rules look the same. -/
theorem clearCalled (h : Agrees sight f g) (calls : Bool) :
    Agrees { sight with calls } f.clearCalled g.clearCalled :=
  ⟨h.defaults, h.size, h.control?, fun _ => rfl⟩

/-- Forms with documents that look the same look the same if the states in them do, up to the rules
that were called. -/
theorem of_sameDocument {f' g' : Form} (h : Agrees sight f g) (d : SameDocument f' f)
    (d' : SameDocument g' g)
    (hstate : ∀ id, (f'.state? id).map sight.state = (g'.state? id).map sight.state)
    (hcalls : sight.calls = false) : Agrees sight f' g' where
  defaults := d.defaults.trans (h.defaults.trans d'.defaults.symm)
  size := d.size.trans (h.size.trans d'.size.symm)
  control? id := by
    have hcontent : (f'.control? id).map Control.content =
        (g'.control? id).map Control.content := by
      have hseen := congrArg (Option.map Control.content) (h.control? id)
      rw [Option.map_map, Option.map_map] at hseen
      exact (d.content id).trans (hseen.trans (d'.content id).symm)
    have hstate := hstate id
    rw [Form.state?, Form.state?, Option.map_map, Option.map_map] at hstate
    cases hc : f'.control? id with
    | none =>
        rw [hc] at hcontent
        rw [Option.map_eq_none_iff.1 hcontent.symm]
    | some c =>
        rw [hc] at hcontent hstate
        obtain ⟨k, hk, hcontent⟩ := Option.map_eq_some_iff.1 hcontent.symm
        rw [hk] at hstate ⊢
        have hsame : sight.state c.state = sight.state k.state := Option.some.inj hstate
        have hseen : { k with state := sight.state c.state } = c.seen sight :=
          congrArg (fun k : Control => { k with state := sight.state c.state }) hcontent
        rw [hsame] at hseen
        exact congrArg some hseen.symm
  called htrue := by
    rw [hcalls] at htrue
    cases htrue

/-! ## What looks the same -/

theorem sameTree (h : Agrees sight f g) : SameTree f g where
  defaults := h.defaults
  size := h.size
  skeleton id := by
    have hseen := congrArg (Option.map Control.skeleton) (h.control? id)
    rw [Option.map_map, Option.map_map] at hseen
    exact hseen

theorem value (h : Agrees sight f g) (id : ControlId) : f.value id = g.value id := by
  refine h.sameTree.shape.value_congr (fun _ => True) (fun _ _ _ _ _ _ => trivial) ?_ trivial
  intro id _
  have hseen := congrArg (Option.map Control.value) (h.control? id)
  rw [Option.map_map, Option.map_map] at hseen
  exact hseen

theorem state? (h : Agrees sight f g) (id : ControlId) :
    (f.state? id).map sight.state = (g.state? id).map sight.state := by
  have hseen := congrArg (Option.map Control.state) (h.control? id)
  rw [Option.map_map, Option.map_map] at hseen
  rw [Form.state?, Form.state?, Option.map_map, Option.map_map]
  exact hseen

/-- A control is there in both forms, and is seen in the same way, or in none. -/
theorem cases_control? (h : Agrees sight f g) (id : ControlId) :
    (f.control? id = none ∧ g.control? id = none) ∨
      ∃ c d, f.control? id = some c ∧ g.control? id = some d ∧ c.seen sight = d.seen sight := by
  have hseen := h.control? id
  cases hc : f.control? id with
  | none =>
      rw [hc] at hseen
      exact .inl ⟨rfl, Option.map_eq_none_iff.1 hseen.symm⟩
  | some c =>
      rw [hc] at hseen
      obtain ⟨d, hd, heq⟩ := Option.map_eq_some_iff.1 hseen.symm
      exact .inr ⟨c, d, rfl, hd, heq.symm⟩

theorem pathOrEmpty (h : Agrees sight f g) (id : ControlId) :
    f.pathOrEmpty id = g.pathOrEmpty id := by
  have hwithin : ∀ n id, f.trailWithin n id = g.trailWithin n id := by
    intro n
    induction n with
    | zero => exact fun _ => rfl
    | succ n ih =>
        intro id
        rw [trailWithin, trailWithin]
        rcases h.cases_control? id with ⟨hc, hd⟩ | ⟨c, d, hc, hd, hseen⟩
        · rw [hc, hd, Option.bind_none, Option.bind_none]
        · have hparent : c.parent = d.parent := Control.eq_of_seen hseen Control.parent fun _ => rfl
          rw [hc, hd, Option.bind_some, Option.bind_some, hparent]
          cases d.parent with
          | none => rfl
          | some parent =>
              dsimp only
              rcases h.cases_control? parent with ⟨hp, hq⟩ | ⟨p, q, hp, hq, hseen⟩
              · rw [hp, hq, Option.bind_none, Option.bind_none]
              · have hchildren : p.children = q.children := Control.children_eq_of_seen hseen
                rw [hp, hq, Option.bind_some, Option.bind_some, hchildren, ih]
  rw [Form.pathOrEmpty, Form.pathOrEmpty, path?, path?, h.size, hwithin]

/-! ## Changing controls -/

theorem modify (h : Agrees sight f g) (id : ControlId) {change : Control → Control}
    (hchange : ∀ c d : Control, c.seen sight = d.seen sight →
      (change c).seen sight = (change d).seen sight) :
    Agrees sight (f.modify id change) (g.modify id change) where
  defaults := h.defaults
  size := by
    have hsize := h.size
    simpa [Form.modify] using hsize
  control? other := by
    rw [control?_modify, control?_modify]
    split
    · rcases h.cases_control? other with ⟨hc, hd⟩ | ⟨c, d, hc, hd, hseen⟩
      · rw [hc, hd]
      · rw [hc, hd]
        exact congrArg some (hchange c d hseen)
    · exact h.control? other
  called := h.called

theorem modifyState (h : Agrees sight f g) (id : ControlId)
    {change : ControlState → ControlState} (hchange : sight.Admits change) :
    Agrees sight (f.modifyState id change) (g.modifyState id change) := by
  refine h.modify id fun c d hseen => ?_
  have hstate := hchange c.state d.state (congrArg Control.state hseen)
  change { c.seen sight with state := sight.state (change c.state) } =
    { d.seen sight with state := sight.state (change d.state) }
  rw [hseen, hstate]

theorem modify_children (h : Agrees sight f g) (id : ControlId) (children : Children) :
    Agrees sight (f.modify id fun c => { c with children })
      (g.modify id fun c => { c with children }) :=
  h.modify id fun _ _ hseen => congrArg (fun c : Control => { c with children }) hseen

theorem append (h : Agrees sight f g) (block : List Control) :
    Agrees sight (f.append block) (g.append block) where
  defaults := h.defaults
  size := by
    have hsize := h.size
    simpa [Form.append] using hsize
  control? id := by
    rw [control?_append, control?_append, h.size]
    split
    · exact h.control? id
    · rfl
  called := h.called

theorem drop (h : Agrees sight f g) (ids : List ControlId) :
    Agrees sight (f.drop ids) (g.drop ids) where
  defaults := h.defaults
  size := by rw [size_drop, size_drop, h.size]
  control? id := by
    rw [control?_drop, control?_drop]
    split
    · rfl
    · exact h.control? id
  called := h.called

/-- Publishing is not seen. -/
theorem publish (f : Form) (ids : List ControlId) : Agrees sight (f.publish ids) f where
  defaults := rfl
  size := size_publish f ids
  control? id := by rw [control?_publish]
  called _ := rfl

theorem edit_publish (e : Edit) : Agrees sight e.publish e.form :=
  have h : Agrees sight (e.form.publish e.lineage) e.form := publish e.form e.lineage
  ⟨h.defaults, h.size, h.control?, h.called⟩

/-! ## Running tests -/

theorem applyValidity (h : Agrees sight f g) (id : ControlId) (results : TestResults) :
    Agrees sight (f.applyValidity id results) (g.applyValidity id results) :=
  h.modifyState id (Sight.admits_of_commutes fun _ => rfl)

theorem applyEditability (h : Agrees sight f g) (id : ControlId) (enabled : Bool) :
    Agrees sight (f.applyEditability id enabled).2 (g.applyEditability id enabled).2 := by
  have hadmits : sight.Admits fun s => { s with enabled } := Sight.admits_of_commutes fun _ => rfl
  exact h.modifyState id hadmits

theorem applyVisibility (h : Agrees sight f g) (id : ControlId) (visible : Bool) :
    Agrees sight (f.applyVisibility id visible).2 (g.applyVisibility id visible).2 := by
  have hadmits : sight.Admits fun s => { s with visible } := Sight.admits_of_commutes fun _ => rfl
  exact h.modifyState id hadmits

/-- Tests come to the same results and call the same rules. -/
theorem runChecks (h : Agrees sight f g) (id : ControlId) (tests : Property → List Test) :
    (f.runChecks id tests).1 = (g.runChecks id tests).1 ∧
      Agrees sight (f.runChecks id tests).2 (g.runChecks id tests).2 := by
  rw [Form.runChecks, Form.runChecks, h.sameTree.property?, h.value, rootValue, rootValue, h.value]
  cases g.property? id with
  | none => exact ⟨rfl, h⟩
  | some p =>
      exact ⟨rfl, h.defaults, h.size, h.control?, fun hcalls => congrArg (· ++ _) (h.called hcalls)⟩

theorem refreshValidity (h : Agrees sight f g) (id : ControlId) :
    Agrees sight (f.refreshValidity id).2 (g.refreshValidity id).2 := by
  obtain ⟨hresults, hforms⟩ := h.runChecks id Property.validTests
  unfold Form.refreshValidity
  generalize f.runChecks id Property.validTests = ran at hresults hforms
  generalize g.runChecks id Property.validTests = ran' at hresults hforms
  obtain ⟨results, f'⟩ := ran
  obtain ⟨_, g'⟩ := ran'
  cases hresults
  cases results with
  | none => exact hforms
  | some results => exact hforms.applyValidity id results

theorem refreshVisibility (h : Agrees sight f g) (id : ControlId) :
    Agrees sight (f.refreshVisibility id) (g.refreshVisibility id) := by
  obtain ⟨hresults, hforms⟩ := h.runChecks id Property.viewTests
  unfold Form.refreshVisibility
  generalize f.runChecks id Property.viewTests = ran at hresults hforms
  generalize g.runChecks id Property.viewTests = ran' at hresults hforms
  obtain ⟨results, f'⟩ := ran
  obtain ⟨_, g'⟩ := ran'
  cases hresults
  cases results with
  | none => exact hforms
  | some results => exact hforms.applyVisibility id results.passed

theorem refreshEditability (h : Agrees sight f g) (id : ControlId) :
    Agrees sight (f.refreshEditability id).2 (g.refreshEditability id).2 := by
  obtain ⟨hresults, hforms⟩ := h.runChecks id Property.editTests
  unfold Form.refreshEditability
  generalize f.runChecks id Property.editTests = ran at hresults hforms
  generalize g.runChecks id Property.editTests = ran' at hresults hforms
  obtain ⟨results, f'⟩ := ran
  obtain ⟨_, g'⟩ := ran'
  cases hresults
  cases results with
  | none => exact hforms.refreshVisibility id
  | some results =>
      exact (hforms.applyEditability id results.passed).refreshVisibility id

theorem refreshNew (h : Agrees sight f g) (ids : List ControlId) :
    Agrees sight (f.refreshNew ids) (g.refreshNew ids) := by
  induction ids generalizing f g with
  | nil => exact h
  | cons id ids ih => exact ih ((h.refreshValidity id).refreshEditability id)

theorem refreshLineage (h : Agrees sight f g) (ids : List ControlId) :
    Agrees sight (f.refreshLineage ids) (g.refreshLineage ids) := by
  induction ids generalizing f g with
  | nil => exact h
  | cons id ids ih => exact ih (h.refreshValidity id)

/-! ## Edits -/

theorem setValue (h : Agrees sight f g) (id : ControlId) (value : Json) :
    Alike (Agrees sight) (f.setValue id value) (g.setValue id value) := by
  unfold Form.setValue
  rcases h.cases_control? id with ⟨hc, hd⟩ | ⟨c, d, hc, hd, hseen⟩
  · rw [hc, hd]
    exact .error _
  · have hkind : c.kind = d.kind := Control.eq_of_seen hseen Control.kind fun _ => rfl
    rw [hc, hd]
    dsimp only
    rw [hkind, h.pathOrEmpty, h.sameTree.lineage]
    split
    · exact .error _
    · refine .ok ((publish _ _).trans ((refreshLineage ?_ _).trans (publish _ _).symm))
      exact h.modify id fun _ _ hseen => congrArg (fun c : Control => { c with value }) hseen

end Agrees

/-- The edits look the same. -/
structure Edit.Agrees (sight : Sight) (e e' : Edit) : Prop where
  form : Form.Agrees sight e.form e'.form
  change : e.change = e'.change
  lineage : e.lineage = e'.lineage

namespace Agrees

/-- The numbers of the new controls are the same. -/
theorem prepareInsert (h : Agrees sight f g) (array : ControlId) (index : Nat) (value : Json) :
    Alike (fun a b => a.1 = b.1 ∧ Edit.Agrees sight a.2 b.2) (f.prepareInsert array index value)
      (g.prepareInsert array index value) := by
  unfold Form.prepareInsert
  rcases h.cases_control? array with ⟨hc, hd⟩ | ⟨c, d, hc, hd, hseen⟩
  · rw [hc, hd]
    exact .error _
  · have hchildren : c.children = d.children := Control.children_eq_of_seen hseen
    have hproperty : c.property = d.property :=
      Control.eq_of_seen hseen Control.property fun _ => rfl
    rw [hc, hd]
    dsimp only
    rw [hchildren, hproperty, h.pathOrEmpty]
    split
    · rename_i items item _ _
      split
      · exact .error _
      · have hgrown : Agrees sight (f.grown array items index item value)
            (g.grown array items index item value) := by
          unfold grown
          rw [h.size]
          exact (h.append _).modify_children array _
        refine .ok ⟨h.size, ?_, rfl, hgrown.sameTree.lineage array⟩
        change Agrees sight (f.growth array items index item value).form
          (g.growth array items index item value).form
        unfold growth idsFrom
        dsimp only
        rw [hgrown.size, h.size, hgrown.sameTree.lineage]
        exact (hgrown.refreshNew _).refreshLineage _
    · exact .error _

theorem preparePush (h : Agrees sight f g) (array : ControlId) (value : Json) :
    Alike (fun a b => a.1 = b.1 ∧ Edit.Agrees sight a.2 b.2) (f.preparePush array value)
      (g.preparePush array value) := by
  unfold Form.preparePush
  rcases h.cases_control? array with ⟨hc, hd⟩ | ⟨c, d, hc, hd, hseen⟩
  · rw [hc, hd]
    exact .error _
  · have hchildren : c.children = d.children := Control.children_eq_of_seen hseen
    rw [hc, hd]
    dsimp only
    rw [hchildren, h.pathOrEmpty]
    split
    · exact h.prepareInsert array _ value
    · exact .error _

theorem subtree (h : Agrees sight f g) (id : ControlId) : f.subtree id = g.subtree id := by
  have hwithin : ∀ n id, f.subtreeWithin n id = g.subtreeWithin n id := by
    intro n
    induction n with
    | zero => exact fun _ => rfl
    | succ n ih =>
        intro id
        rw [subtreeWithin, subtreeWithin]
        rcases h.cases_control? id with ⟨hc, hd⟩ | ⟨c, d, hc, hd, hseen⟩
        · rw [hc, hd]
        · have hchildren : c.children = d.children := Control.children_eq_of_seen hseen
          rw [hc, hd]
          dsimp only
          rw [hchildren, funext ih]
  rw [Form.subtree, Form.subtree, h.size, hwithin]

/-- The values of the items are the same. -/
theorem prepareRemove (h : Agrees sight f g) (array : ControlId) (index : Nat) :
    Alike (fun a b => a.1 = b.1 ∧ Edit.Agrees sight a.2 b.2) (f.prepareRemove array index)
      (g.prepareRemove array index) := by
  unfold Form.prepareRemove
  rcases h.cases_control? array with ⟨hc, hd⟩ | ⟨c, d, hc, hd, hseen⟩
  · rw [hc, hd]
    exact .error _
  · have hchildren : c.children = d.children := Control.children_eq_of_seen hseen
    rw [hc, hd]
    dsimp only
    rw [hchildren, h.pathOrEmpty]
    split
    · rename_i items _
      split
      · exact .error _
      · rename_i gone _
        have hshrunk : Agrees sight (f.shrunk array items index gone)
            (g.shrunk array items index gone) := by
          unfold shrunk
          rw [h.subtree]
          exact (h.drop _).modify_children array _
        refine .ok ⟨h.value gone, ?_, rfl, hshrunk.sameTree.lineage array⟩
        change Agrees sight (f.shrinkage array items index gone).form
          (g.shrinkage array items index gone).form
        unfold shrinkage
        dsimp only
        rw [hshrunk.sameTree.lineage]
        exact hshrunk.refreshLineage _
    · exact .error _

/-! ## Messages of callers -/

theorem setExternal (h : Agrees sight f g) (id : ControlId) (key message : String) :
    Alike (Agrees sight) (f.setExternal id key message) (g.setExternal id key message) := by
  unfold Form.setExternal
  rw [h.sameTree.contains]
  split
  · exact .ok (h.modifyState id (Sight.admits_of_commutes fun _ => rfl))
  · exact .error _

theorem clearExternal (h : Agrees sight f g) (id : ControlId) (key : String) :
    Alike (fun a b => a.1 = b.1 ∧ Agrees sight a.2 b.2) (f.clearExternal id key)
      (g.clearExternal id key) := by
  unfold Form.clearExternal
  have hstate := h.state? id
  cases hs : f.state? id with
  | none =>
      rw [hs] at hstate
      rw [Option.map_eq_none_iff.1 hstate.symm]
      exact .error _
  | some s =>
      rw [hs] at hstate
      obtain ⟨t, ht, heq⟩ := Option.map_eq_some_iff.1 hstate.symm
      rw [ht]
      have hcleared : sight.Admits (·.clearExternal key) := Sight.admits_of_commutes fun _ => rfl
      refine .ok ⟨?_, h.modifyState id hcleared⟩
      have hexternal : ∀ s, (sight.state s).externalErrors = s.externalErrors := fun s => by
        unfold Sight.state
        split <;> rfl
      dsimp only
      rw [ControlState.hasExternal, ControlState.hasExternal, ← hexternal s, ← heq, hexternal]

end Agrees

end Form

end ReactiveForm
