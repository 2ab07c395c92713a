import ReactiveForm.Proofs.Form.Grafts

/-!
# The part of a document that a form keeps

A form keeps of a document what its model describes: of an object the named parts, null where the
object lacks them, and of an array all items (`Shape.project`). Everything else is left out, and what
has the wrong class counts as empty.

So the value of new controls is the projection of the document they were made for
(`Laid.map_value`). And the value of a control is its own projection (`ControlTree.project_value`),
in other words, projecting a document once more changes nothing.
-/

namespace ReactiveForm

mutual

/-- What a form keeps of a document by a shape. -/
def Shape.project : Shape → Json → Json
  | .value, data => data
  | .object children, data => .ofFields (Property.projectParts children data)
  | .array item, data => .array (data.items.map fun element => Property.project item element)

/-- What a form keeps of a document by a property. -/
def Property.project : Property → Json → Json
  | ⟨_, _, _, _, _, _, shape, _⟩, data => Shape.project shape data

/-- What a form keeps of an object by its parts. -/
def Property.projectParts : List Property → Json → List (String × Json)
  | [], _ => []
  | p :: parts, data =>
    match p.name with
    | none => Property.projectParts parts data
    | some name =>
      (name, Property.project p (data.field name)) :: Property.projectParts parts data

end

theorem Property.project_eq (p : Property) (data : Json) : p.project data = p.shape.project data := by
  obtain ⟨_, _, _, _, _, _, shape, _⟩ := p
  rw [Property.project]

theorem Property.projectParts_cons (p : Property) (parts : List Property) (data : Json) :
    projectParts (p :: parts) data =
      (p.name.map fun name => (name, p.shape.project (data.field name))).toList ++
        projectParts parts data := by
  rw [projectParts]
  cases p.name with
  | none => rfl
  | some name =>
      dsimp only
      rw [Property.project_eq]
      rfl

/-- The value of a shape from the values of what is directly below it. -/
def Shape.gather : Shape → Json → List Json → Json
  | value, data, _ => data
  | object children, _, values => .ofFields ((children.filterMap Property.name).zip values)
  | array _, _, values => .array values

/-- A projection is gathered from the projections of the entries. -/
theorem Shape.project_eq (shape : Shape) (data : Json) :
    shape.project data =
      shape.gather data ((shape.entries data).map fun e => e.1.shape.project e.2) := by
  cases shape with
  | value => rw [project, gather]
  | object children =>
      rw [project, gather, entries]
      refine congrArg Json.ofFields ?_
      induction children with
      | nil => rw [Property.projectParts]; rfl
      | cons p children ih =>
          rw [Property.projectParts_cons, ih, List.filterMap_cons, List.filterMap_cons]
          cases p.name <;> rfl
  | array item =>
      rw [project, gather, entries, List.map_map]
      refine congrArg Json.array (List.map_congr_left fun element _ => ?_)
      exact Property.project_eq item element

/-! ## Documents that are their own projection -/

theorem Json.field_of_mem {fields : List (String × Json)} {name : String} {value : Json}
    (hsorted : Keyed.Ascending fields) (hmem : (name, value) ∈ fields) :
    (Json.object fields).field name = value := by
  rw [field, field?, Keyed.lookup_of_mem hsorted.nodup_keys hmem]
  rfl

theorem Keyed.Ascending.map {α β : Type} {entries : List (String × α)} (h : Ascending entries)
    (g : α → β) : Ascending (entries.map fun e => (e.1, g e.2)) :=
  List.Pairwise.map _ (fun _ _ hlt => hlt) h

/-- No two parts of an object have the same name. -/
theorem Shape.eq_of_name {children : List Property}
    (hnodup : (children.filterMap Property.name).Nodup) {p q : Property} {name : String}
    (hp : p ∈ children) (hq : q ∈ children) (hpname : p.name = some name)
    (hqname : q.name = some name) : p = q := by
  have hmem : ∀ {r : Property} {rest : List Property}, r ∈ rest → r.name = some name →
      name ∈ rest.filterMap Property.name := fun hr hname => List.mem_filterMap.2 ⟨_, hr, hname⟩
  induction children with
  | nil => cases hp
  | cons first rest ih =>
      rcases List.mem_cons.1 hp with rfl | hp' <;> rcases List.mem_cons.1 hq with rfl | hq'
      · rfl
      · rw [List.filterMap_cons, hpname, List.nodup_cons] at hnodup
        exact absurd (hmem hq' hqname) hnodup.1
      · rw [List.filterMap_cons, hqname, List.nodup_cons] at hnodup
        exact absurd (hmem hp' hpname) hnodup.1
      · refine ih ?_ hp' hq'
        rw [List.filterMap_cons] at hnodup
        split at hnodup
        · exact hnodup
        · exact (List.nodup_cons.1 hnodup).2

private theorem Property.projectParts_eq {children : List Property} {data : Json}
    (hown : ∀ p ∈ children, ∀ name, p.name = some name →
      p.shape.project (data.field name) = data.field name) :
    Property.projectParts children data =
      (children.filterMap Property.name).map fun name => (name, data.field name) := by
  induction children with
  | nil =>
      rw [Property.projectParts]
      rfl
  | cons p children ih =>
      rw [Property.projectParts_cons, ih fun q hq => hown q (List.mem_cons_of_mem _ hq),
        List.filterMap_cons]
      cases hname : p.name with
      | none => rfl
      | some name =>
          rw [Option.map_some, hown p List.mem_cons_self name hname]
          rfl

/-- An object with just the parts of a shape is its own projection if the parts are. -/
theorem Shape.project_object {children : List Property} {fields : List (String × Json)}
    (hnodup : (children.filterMap Property.name).Nodup) (hsorted : Keyed.Ascending fields)
    (hkeys : ∀ name, name ∈ fields.map Prod.fst ↔ ∃ p ∈ children, p.name = some name)
    (hown : ∀ p ∈ children, ∀ name value, p.name = some name → (name, value) ∈ fields →
      p.shape.project value = value) :
    (Shape.object children).project (.object fields) = .object fields := by
  have hvalue : ∀ p ∈ children, ∀ name, p.name = some name →
      p.shape.project ((Json.object fields).field name) = (Json.object fields).field name := by
    intro p hp name hname
    obtain ⟨⟨_, value⟩, hmem, rfl⟩ := List.mem_map.1 ((hkeys name).2 ⟨p, hp, hname⟩)
    rw [Json.field_of_mem hsorted hmem]
    exact hown p hp _ value hname hmem
  rw [project, Property.projectParts_eq hvalue]
  refine congrArg Json.object (Keyed.ofList_eq_of_perm hsorted ?_)
  -- both lists have each name once, with the field of the object under it
  have hkey : ∀ entry : String × Json, entry ∈ fields ↔
      entry ∈ (children.filterMap Property.name).map
        fun name => (name, (Json.object fields).field name) := by
    intro entry
    rw [List.mem_map]
    constructor
    · intro hmem
      refine ⟨entry.1, List.mem_filterMap.2 ((hkeys entry.1).1 (List.mem_map_of_mem hmem)), ?_⟩
      have hentry : (entry.1, entry.2) ∈ fields := hmem
      rw [Json.field_of_mem hsorted hentry]
    · rintro ⟨name, hname, rfl⟩
      obtain ⟨⟨_, value⟩, hmem, rfl⟩ := List.mem_map.1 ((hkeys name).2 (List.mem_filterMap.1 hname))
      rw [Json.field_of_mem hsorted hmem]
      exact hmem
  refine (List.perm_ext_iff_of_nodup ?_ ?_).2 hkey
  · exact List.Pairwise.of_map Prod.fst (fun _ _ hne heq => hne (congrArg Prod.fst heq))
      hsorted.nodup_keys
  · exact List.Pairwise.map _ (fun _ _ hne heq => hne (congrArg Prod.fst heq)) hnodup

/-- The value of a new control, from the values of the controls that were arranged below it. -/
theorem Control.assemble_create (parent : Option Nat) (property : Option Property) (shape : Shape)
    (below : List Nat) (data : Json) (look : ControlId → Json) :
    (Control.create parent property (shape.arrange below) (shape.own data)).assemble look =
      shape.gather data (below.map look) := by
  cases shape with
  | value => rfl
  | object children =>
      refine congrArg Json.object ((Keyed.map_ofList look _).trans ?_)
      rw [List.zip_map_right]
      rfl
  | array item => rfl

namespace Form

variable {f : Form} {m : Model} {id : Nat} {c : Control}

/-! ## New controls -/

/-- The controls of entries have the projections of the entries as their values. -/
theorem Laid.map_value {parent first stop : Nat} {entries : List (Property × Json)}
    {ids : List Nat} (h : f.Laid parent first entries ids stop) (sound : f.SoundTree) :
    ids.map f.value = entries.map fun e => e.1.shape.project e.2 := by
  induction h with
  | nil => rfl
  | @cons _ first _ _ p data _ _ _ hcontrol _ _ ihbelow ihrest =>
      have hvalue : f.value first = p.shape.project data := by
        rw [sound.value_eq hcontrol, Control.assemble_create, ihbelow, ← Shape.project_eq]
      rw [List.map_cons, List.map_cons, ihrest, hvalue]

theorem value_grown {array : Nat} {items : List Nat} {index : Nat} {item : Property} {value : Json}
    (harray : array < f.slots.size) (sound : (f.grown array items index item value).SoundTree) :
    (f.grown array items index item value).value f.slots.size = item.shape.project value :=
  (List.cons.inj ((laid_grown harray).map_value sound)).1

/-- The value of a built form is the projection of the document it was built from. -/
theorem rootValue_build (m : Model) (data : Json) (c : Config) :
    (build m data c).rootValue = (Shape.object m.properties).project data := by
  obtain ⟨below, hroot, hrow⟩ := Shape.laid_block none none root _ data (holds_sprout m data c)
  have sound : (sprout m data c).SoundTree := soundTree_sprout
  rw [rootValue, (sameDocument_build m data c).value, sound.value_eq hroot,
    Control.assemble_create, hrow.map_value sound, ← Shape.project_eq]

/-! ## All controls -/

/-- The value of a control is its own projection. -/
theorem ControlTree.project_value (h : f.ControlTree m) (hm : m.DistinctNames)
    (hc : f.control? id = some c) : (c.shape m).project (f.value id) = f.value id := by
  -- values come from below, where the numbers are larger
  induction hn : f.slots.size - id using Nat.strongRecOn generalizing id c with
  | ind n ih =>
    have hbelow : ∀ {x : Nat} {p : Property}, x ∈ c.children.ids → f.property? x = some p →
        p.shape.project (f.value x) = f.value x := by
      intro x p hx hp
      have hlt := h.soundTree.parent_lt (h.child hc x hx)
      have hsize := h.lt_size_of_mem hc hx
      obtain ⟨d, hd, hproperty⟩ := Option.bind_eq_some_iff.1 hp
      have hshape : d.shape m = p.shape := by rw [Control.shape, hproperty]; rfl
      exact hshape ▸ ih (f.slots.size - x) (by omega) hd rfl
    have hfits := h.fits hc
    have hdistinct := h.distinctNames hm hc
    have hvalue := h.soundTree.value_eq hc
    unfold Control.assemble at hvalue
    generalize c.shape m = shape at hfits hdistinct
    cases hchildren : c.children with
    | none =>
        rw [hchildren] at hfits
        cases hfits with
        | value => rw [Shape.project]
    | indexed items =>
        rw [hchildren] at hfits hvalue hbelow
        cases hfits with
        | array hitems =>
            rw [hvalue, Shape.project, Json.items, List.map_map]
            refine congrArg Json.array (List.map_congr_left fun x hx => ?_)
            exact (Property.project_eq _ _).trans (hbelow hx (hitems x hx))
    | named parts =>
        rw [hchildren] at hfits hvalue hbelow
        cases hfits with
        | object hsorted hkeys hparts =>
            cases hdistinct with
            | object hnodup =>
                rw [hvalue]
                refine Shape.project_object hnodup (hsorted.map f.value) (fun name => ?_) ?_
                · rw [← hkeys, List.map_map]
                  rfl
                · intro p hp name v hname hmem
                  obtain ⟨part, hpart, heq⟩ := List.mem_map.1 hmem
                  cases heq
                  obtain ⟨q, hq, hqname, hproperty⟩ := hparts part.1 part.2 hpart
                  cases Shape.eq_of_name hnodup hp hq hname hqname
                  exact hbelow (List.mem_map.2 ⟨part, hpart, rfl⟩) hproperty

end Form

end ReactiveForm
