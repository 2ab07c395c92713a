import ReactiveForm.Proofs.Form.Tree
import ReactiveForm.Proofs.Keyed
import ReactiveForm.Rule.Predicate

/-!
# Values of controls

The value of a control is assembled from the fields below it. So it stays the same when tests are
run (`SameDocument.value`), and setting a field can change the values of that field and of what is
above it only (`value_congr`).

A control has a place in the document of the form, unless another control has taken its name. The
document has the value of the control at this place (`rootValue_place`). Two documents agree at a
control if they have the same value there.
-/

namespace ReactiveForm

/-- What running tests leaves of a control. -/
def Control.content (c : Control) : Control := { c with state := .initial }

/-- The step from a control to something directly below it. -/
def Children.place? (id : ControlId) : Children → Option Segment
  | none => Option.none
  | named controls => (controls.find? fun c => c.2 == id).map fun c => .key c.1
  | indexed controls => (controls.findIdx? (· == id)).map .index

/-- The value of a control from the values of what is directly below it. -/
def Control.assemble (look : ControlId → Json) (c : Control) : Json :=
  match c.children with
  | .none => c.value
  | .named parts => .object (parts.map fun p => (p.1, look p.2))
  | .indexed items => .array (items.map look)

theorem Control.assemble_congr {c : Control} {look look' : ControlId → Json}
    (hsame : ∀ child ∈ c.children.ids, look child = look' child) :
    c.assemble look = c.assemble look' := by
  unfold assemble
  cases hkids : c.children with
  | none => rfl
  | named parts =>
      simp only [hkids, Children.ids, List.mem_map, forall_exists_index, and_imp,
        forall_apply_eq_imp_iff₂] at hsame
      exact congrArg Json.object
        (List.map_congr_left fun p hp => congrArg (Prod.mk p.1) (hsame p hp))
  | indexed items =>
      simp only [hkids, Children.ids] at hsame
      exact congrArg Json.array (List.map_congr_left hsame)

namespace Form

variable {f g h : Form} {id : Nat}

/-! ## Places -/

/-- The way from the root of the document to a control, up to a number of steps. -/
def placeWithin (f : Form) : Nat → ControlId → Option (List Segment)
  | 0, _ => none
  | n + 1, id =>
    (f.control? id).bind fun c =>
      match c.parent with
      | none => some []
      | some parent =>
        (f.control? parent).bind fun p =>
          (p.children.place? id).bind fun step =>
            (f.placeWithin n parent).map fun place => place ++ [step]

/-- The way from the root of the document to a control. There is none if some control on the way
does not know its child any more. -/
def place? (f : Form) (id : ControlId) : Option (List Segment) := f.placeWithin f.slots.size id

/-- A document has the value at a control's place that the document of the form has there. -/
def AgreesAt (f : Form) (document : Json) (id : ControlId) : Prop :=
  ∀ place, f.place? id = some place → document.place place = f.rootValue.place place

theorem placeWithin_succ (f : Form) (n : Nat) (id : ControlId) :
    f.placeWithin (n + 1) id =
      if f.contains id then
        match f.parent? id with
        | none => some []
        | some parent =>
          (((f.control? parent).map Control.children).bind (Children.place? id)).bind fun step =>
            (f.placeWithin n parent).map fun place => place ++ [step]
      else none := by
  cases hc : f.control? id with
  | none => simp [placeWithin, contains, hc]
  | some c =>
      simp only [placeWithin, contains, parent?, hc, Option.isSome_some, if_true, Option.bind_some]
      cases c.parent with
      | none => rfl
      | some parent =>
          simp only [Option.bind_map, Option.bind_assoc]
          rfl

theorem SameShape.place? (t : SameShape f g) (id : ControlId) : f.place? id = g.place? id := by
  have hwithin : ∀ n id, f.placeWithin n id = g.placeWithin n id := by
    intro n
    induction n with
    | zero => exact fun _ => rfl
    | succ n ih =>
        intro id
        simp only [placeWithin_succ, t.contains id, t.parent? id, t.children, ih]
  rw [Form.place?, Form.place?, t.size, hwithin]

theorem SameTree.place? (t : SameTree f g) (id : ControlId) : f.place? id = g.place? id :=
  t.shape.place? id

/-! ## Values from below -/

theorem valueWithin_succ (f : Form) (n : Nat) (id : ControlId) :
    f.valueWithin (n + 1) id =
      ((f.control? id).map (Control.assemble (f.valueWithin n))).getD .null := by
  rw [valueWithin]
  cases f.control? id <;> rfl

theorem valueWithin_of_size_le (n : Nat) (hge : f.slots.size ≤ id) :
    f.valueWithin n id = .null := by
  have hnone : f.control? id = none := by simp [control?, Array.getElem?_eq_none hge]
  cases n with
  | zero => rfl
  | succ n => simp [valueWithin_succ, hnone]

/-- The value of a control depends on the fields below it only: on those with a property that a
control hands down to everything below it. -/
theorem SameShape.value_congr (t : SameShape f g) (Below : Nat → Prop)
    (hdown : ∀ id c, Below id → f.control? id = some c → ∀ child ∈ c.children.ids, Below child)
    (hvalue : ∀ id, Below id →
      (f.control? id).map Control.value = (g.control? id).map Control.value)
    (hid : Below id) : f.value id = g.value id := by
  -- the depth is bounded in the same way in both forms, so the induction is on the bound
  have hwithin : ∀ n id, Below id → f.valueWithin n id = g.valueWithin n id := by
    intro n
    induction n with
    | zero => exact fun _ _ => rfl
    | succ n ih =>
        intro id hid
        rw [valueWithin_succ, valueWithin_succ]
        cases hf : f.control? id with
        | none =>
            have hg : g.control? id = none := by simpa [hf] using (t.children id).symm
            rw [hg]
            rfl
        | some c =>
            obtain ⟨d, hg, hkids⟩ := Option.map_eq_some_iff.1
              ((t.children id).symm.trans (congrArg (Option.map Control.children) hf))
            have hown : c.value = d.value := by simpa [hf, hg] using hvalue id hid
            have hrec : ∀ child ∈ c.children.ids, f.valueWithin n child = g.valueWithin n child :=
              fun child hchild => ih child (hdown id c hid hf child hchild)
            rw [hg, Option.map_some, Option.map_some, Control.assemble_congr hrec]
            simp only [Control.assemble, hkids, hown]
  rw [value, value, t.size, hwithin _ _ hid]

private theorem valueWithin_eq_valueWithin (sound : f.SoundTree) {n m : Nat}
    (hn : f.slots.size ≤ id + n) (hm : f.slots.size ≤ id + m) :
    f.valueWithin n id = f.valueWithin m id := by
  induction n generalizing id m with
  | zero => rw [valueWithin_of_size_le 0 (by omega), valueWithin_of_size_le m (by omega)]
  | succ n ih =>
      cases m with
      | zero => rw [valueWithin_of_size_le (n + 1) (by omega), valueWithin_of_size_le 0 (by omega)]
      | succ m =>
          rw [valueWithin_succ, valueWithin_succ]
          cases hc : f.control? id with
          | none => rfl
          | some c =>
              rw [Option.map_some, Option.map_some]
              refine congrArg (fun v => (some v).getD .null)
                (Control.assemble_congr fun child hchild => ?_)
              -- a child has a larger number, so the bounds still reach the end of the slots
              have hlt : id < child := sound.parent_lt (sound.parent_of_child hc child hchild)
              exact ih (by omega) (by omega)

/-- The value of a control is assembled from the values of what is directly below it. -/
theorem SoundTree.value_eq (sound : f.SoundTree) {c : Control} (hc : f.control? id = some c) :
    f.value id = c.assemble f.value := by
  have hlt : id < f.slots.size := lt_size_of_contains (by simp [contains, hc])
  obtain ⟨n, hn⟩ : ∃ n, f.slots.size = n + 1 := ⟨f.slots.size - 1, by omega⟩
  rw [value, hn, valueWithin_succ, hc]
  refine Control.assemble_congr fun child hchild => ?_
  have hbelow : id < child := sound.parent_lt (sound.parent_of_child hc child hchild)
  exact valueWithin_eq_valueWithin sound (by omega) (by omega)

/-! ## Forms with the same document -/

/-- The forms differ at most in the states of their controls and in what they record. -/
structure SameDocument (f g : Form) : Prop where
  defaults : f.defaults = g.defaults
  size : f.slots.size = g.slots.size
  content : ∀ id, (f.control? id).map Control.content = (g.control? id).map Control.content
  changes : ∀ id, f.changes? id = g.changes? id

namespace SameDocument

theorem refl (f : Form) : SameDocument f f := ⟨rfl, rfl, fun _ => rfl, fun _ => rfl⟩

theorem trans (d : SameDocument f g) (e : SameDocument g h) : SameDocument f h :=
  ⟨d.defaults.trans e.defaults, d.size.trans e.size,
    fun id => (d.content id).trans (e.content id), fun id => (d.changes id).trans (e.changes id)⟩

theorem sameTree (d : SameDocument f g) : SameTree f g where
  defaults := d.defaults
  size := d.size
  skeleton id := by
    have hcontent := congrArg (Option.map Control.skeleton) (d.content id)
    rw [Option.map_map, Option.map_map] at hcontent
    exact hcontent

theorem value (d : SameDocument f g) (id : ControlId) : f.value id = g.value id := by
  refine d.sameTree.shape.value_congr (fun _ => True) (fun _ _ _ _ _ _ => trivial) ?_ trivial
  intro id _
  have hcontent := congrArg (Option.map Control.value) (d.content id)
  rw [Option.map_map, Option.map_map] at hcontent
  exact hcontent

end SameDocument

/-! ## The document has the values of the controls -/

private theorem place_append (document : Json) (place : List Segment) (step : Segment) :
    document.place (place ++ [step]) = (document.place place).enter step := by
  simp [Json.place]

private theorem enter_assemble {c : Control} {step : Segment} (look : ControlId → Json)
    (hnames : ∀ parts, c.children = .named parts → (parts.map Prod.fst).Nodup)
    (hplace : c.children.place? id = some step) : (c.assemble look).enter step = look id := by
  unfold Control.assemble
  cases hkids : c.children with
  | none => simp [hkids, Children.place?] at hplace
  | named parts =>
      rw [hkids, Children.place?] at hplace
      obtain ⟨⟨name, found⟩, hfind, rfl⟩ := Option.map_eq_some_iff.1 hplace
      have hid : found = id := by simpa using List.find?_some hfind
      have hmem := List.mem_of_find?_eq_some hfind
      subst hid
      have hnodup : ((parts.map fun p => (p.1, look p.2)).map Prod.fst).Nodup := by
        rw [List.map_map]
        exact hnames parts hkids
      simp only [Json.enter, Json.field, Json.field?]
      rw [Keyed.lookup_of_mem hnodup (List.mem_map.2 ⟨_, hmem, rfl⟩)]
      rfl
  | indexed items =>
      rw [hkids, Children.place?] at hplace
      obtain ⟨i, hfind, rfl⟩ := Option.map_eq_some_iff.1 hplace
      obtain ⟨hlt, hget, -⟩ := List.findIdx?_eq_some_iff_getElem.1 hfind
      have hid : items[i] = id := by simpa using hget
      simp [Json.enter, Json.item, Json.items, hlt, hid]

/-- The document of the form has the value of a control at the control's place. -/
theorem SoundTree.rootValue_place (sound : f.SoundTree) {place : List Segment}
    (hplace : f.place? id = some place) : f.rootValue.place place = f.value id := by
  unfold Form.place? at hplace
  generalize f.slots.size = n at hplace
  induction n generalizing id place with
  | zero => simp [placeWithin] at hplace
  | succ n ih =>
      rw [placeWithin_succ] at hplace
      obtain ⟨hid, hplace⟩ := Option.ite_none_right_eq_some.1 hplace
      cases hparent : f.parent? id with
      | none =>
          rw [hparent] at hplace
          cases hplace
          rw [sound.eq_root hid hparent]
          rfl
      | some parent =>
          -- the last step leads from the parent, whose value has the child's at that step
          simp only [hparent, Option.bind_eq_some_iff, Option.map_eq_some_iff] at hplace
          obtain ⟨step, ⟨_, ⟨c, hc, rfl⟩, hstep⟩, above, habove, rfl⟩ := hplace
          rw [place_append, ih habove, sound.value_eq hc]
          exact enter_assemble f.value (fun parts => sound.names_nodup hc parts) hstep

/-- The document of a form with the same tree agrees wherever the values of the controls do. -/
theorem SameTree.agreesAt (t : SameTree g f) (sound : f.SoundTree)
    (hvalue : g.value id = f.value id) : f.AgreesAt g.rootValue id := by
  intro place hplace
  rw [(t.symm.soundTree sound).rootValue_place ((t.place? id).trans hplace),
    sound.rootValue_place hplace, hvalue]

end Form

end ReactiveForm
