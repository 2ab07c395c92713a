import ReactiveForm.Checker.Person
import ReactiveForm.Proofs.Form.Places
import ReactiveForm.Proofs.Form.Properties
import ReactiveForm.Proofs.Session.Batch

/-!
# The form of a person

Whatever the document is, the first controls of its form are the root and the six parts of a person,
and all further ones are nicknames (`PersonTree`). Most tests look at the value of their control
alone. The tests of the model of the car look at the age and at the make, which are just the
controls that the paths of their rules lead to. So the tests read nothing but what they declare
(`declaresAll_person`), and no test makes an inquiry (`hasInquiry_person`).
-/

namespace ReactiveForm

namespace Checker

open Form

/-! ## The parts -/

/-- A part of the model in its place. -/
def part (name : Option String) (path : String) (valid edit : List Test) (shape : Shape) :
    Property :=
  ⟨name, path, some "person", valid, edit, [], shape, none⟩

/-- The name of the person. -/
def namePart : Property := part (some "name") "name" [required] [] .value

/-- The age of the person. -/
def agePart : Property := part (some "age") "age" [adult] [] .value

/-- The make of the car. -/
def makePart : Property := part (some "make") "car.make" [] [] .value

/-- The model of the car. -/
def modelPart : Property := part (some "model") "car.model" [driver] [makeKnown] .value

/-- The car of the person. -/
def carPart : Property := part (some "car") "car" [] [] (.object [makePart, modelPart])

/-- A nickname. -/
def nicknamePart : Property := part none "nicknames.[]" [required] [] .value

/-- The nicknames of the person. -/
def nicknamesPart : Property := part (some "nicknames") "nicknames" [] [] (.array nicknamePart)

/-- The model of a person, part by part. -/
def personModel : Model := ⟨"person", [namePart, agePart, carPart, nicknamesPart], none⟩

/-- The description of a person comes about. -/
theorem person_eq : person = .ok personModel := rfl

theorem wellNamed_part {name path : String} {valid edit : List Test} {shape : Shape}
    (hname : Property.nameFault? name = none) (hshape : shape.WellNamed) :
    (part (some name) path valid edit shape).WellNamed :=
  ⟨fun _ hsame => Option.some.inj hsame ▸ hname, hshape⟩

theorem wellNamed_personModel : personModel.WellNamed := by
  have hname : namePart.WellNamed := wellNamed_part (by decide +kernel) .value
  have hage : agePart.WellNamed := wellNamed_part (by decide +kernel) .value
  have hmake : makePart.WellNamed := wellNamed_part (by decide +kernel) .value
  have hmodel : modelPart.WellNamed := wellNamed_part (by decide +kernel) .value
  have hcar : carPart.WellNamed :=
    wellNamed_part (by decide +kernel) (Shape.wellNamed_object (by simp [hmake, hmodel]))
  have hnicknames : nicknamesPart.WellNamed := wellNamed_part (by decide +kernel) (.array .value)
  exact Shape.wellNamed_object (by simp [personModel, hname, hage, hcar, hnicknames])

theorem distinctNames_personModel : personModel.DistinctNames := by
  have hcar : carPart.shape.DistinctNames :=
    .object (by decide) (List.forall_mem_cons.2 ⟨.value, List.forall_mem_singleton.2 .value⟩)
  refine .object (by decide) fun p hp => ?_
  simp only [personModel, List.mem_cons, List.not_mem_nil, or_false] at hp
  rcases hp with rfl | rfl | rfl | rfl
  · exact .value
  · exact .value
  · exact hcar
  · exact .array .value

/-! ## The controls -/

section Links

variable {f : Form} {id : ControlId} {parent : Option ControlId} {children : Children}
  (hlinks : (f.control? id).map Control.links = some (parent, children))

include hlinks

theorem parent?_of_links : f.parent? id = parent := by
  obtain ⟨k, hk, heq⟩ := Option.map_eq_some_iff.1 hlinks
  rw [parent?, hk]
  exact congrArg Prod.fst heq

theorem child?_of_links (segment : String) : f.child? id segment = children.find? segment := by
  obtain ⟨k, hk, heq⟩ := Option.map_eq_some_iff.1 hlinks
  rw [child?, hk]
  exact congrArg (Children.find? segment ∘ Prod.snd) heq

theorem place?_of_links (sound : f.SoundTree) {child : ControlId} {step : Segment}
    (hmem : child ∈ children.ids) (hstep : children.place? child = some step) :
    f.place? child = (f.place? id).map fun place => place ++ [step] := by
  obtain ⟨k, hk, heq⟩ := Option.map_eq_some_iff.1 hlinks
  obtain rfl : k.children = children := congrArg Prod.snd heq
  exact sound.place?_of_child hk hmem hstep

end Links

/-- The property that describes a control. -/
inductive Describes : ControlId → Property → Prop where
  | name : Describes 1 namePart
  | age : Describes 2 agePart
  | car : Describes 3 carPart
  | make : Describes 4 makePart
  | model : Describes 5 modelPart
  | nicknames : Describes 6 nicknamesPart
  | nickname {id : ControlId} (h : 7 ≤ id) : Describes id nicknamePart

/-- The controls of a form are those of a person. The parts of the root are in the order of their
names. -/
structure PersonTree (f : Form) : Prop where
  root : (f.control? 0).map Control.links =
    some (none, .named [("age", 2), ("car", 3), ("name", 1), ("nicknames", 6)])
  car : (f.control? 3).map Control.links = some (some 0, .named [("make", 4), ("model", 5)])
  model : f.parent? 5 = some 3
  described : ∀ {id p}, f.property? id = some p → Describes id p

/-- The row of a person: each part behind the one before it, and the nicknames at the end. -/
theorem laid_person {f : Form} {name age car nicknames : Json} {ids : List Nat} {stop : Nat}
    (h : f.Laid 0 1 [(namePart, name), (agePart, age), (carPart, car),
      (nicknamesPart, nicknames)] ids stop) :
    ids = [1, 2, 3, 6] ∧
      f.control? 1 = some (.create (some 0) (some namePart) .none name) ∧
      f.control? 2 = some (.create (some 0) (some agePart) .none age) ∧
      f.control? 3 = some (.create (some 0) (some carPart)
        (.named [("make", 4), ("model", 5)]) .null) ∧
      f.control? 4 = some (.create (some 3) (some makePart) .none (car.field "make")) ∧
      f.control? 5 = some (.create (some 3) (some modelPart) .none (car.field "model")) ∧
      ∃ items, f.control? 6 = some (.create (some 0) (some nicknamesPart) (.indexed items) .null) ∧
        f.Laid 6 7 (nicknames.items.map fun item => (nicknamePart, item)) items stop := by
  obtain ⟨hname, _, rfl, hrow⟩ := h.exists_value rfl
  obtain ⟨hage, _, rfl, hrow'⟩ := hrow.exists_value rfl
  obtain ⟨below, _, _, rfl, hcar, hparts, hrest⟩ := hrow'.exists_of_cons
  obtain ⟨hmake, _, rfl, hpart⟩ := hparts.exists_value rfl
  obtain ⟨hmodel, _, rfl, hnone⟩ := hpart.exists_value rfl
  obtain ⟨rfl, rfl⟩ := hnone.eq_of_nil
  obtain ⟨items, _, _, rfl, hnicknames, hitems, hend⟩ := hrest.exists_of_cons
  obtain ⟨rfl, rfl⟩ := hend.eq_of_nil
  exact ⟨rfl, hname, hage, hcar, hmake, hmodel, items, hnicknames, hitems⟩

namespace PersonTree

variable {f g : Form}

theorem of_laid {name age car nicknames : Json} {ids : List Nat} {stop : Nat}
    (hroot : f.control? 0 = some (.create none none (.ofNamed ((["name", "age", "car",
      "nicknames"]).zip ids)) .null))
    (hrow : f.Laid 0 1 [(namePart, name), (agePart, age), (carPart, car),
      (nicknamesPart, nicknames)] ids stop)
    (hstop : ∀ {id k}, f.control? id = some k → id < stop) : PersonTree f := by
  obtain ⟨rfl, hname, hage, hcar, hmake, hmodel, items, hnicknames, hitems⟩ := laid_person hrow
  refine ⟨congrArg (Option.map _) hroot, congrArg (Option.map _) hcar,
    congrArg (Option.bind · _) hmodel, fun {id p} hp => ?_⟩
  have hsame {id : ControlId} {k : Control} (h : f.control? id = some k) :
      f.property? id = k.property := congrArg (Option.bind · Control.property) h
  match id with
  | 0 => cases (hsame hroot).symm.trans hp
  | 1 =>
      cases (hsame hname).symm.trans hp
      exact .name
  | 2 =>
      cases (hsame hage).symm.trans hp
      exact .age
  | 3 =>
      cases (hsame hcar).symm.trans hp
      exact .car
  | 4 =>
      cases (hsame hmake).symm.trans hp
      exact .make
  | 5 =>
      cases (hsame hmodel).symm.trans hp
      exact .model
  | 6 =>
      cases (hsame hnicknames).symm.trans hp
      exact .nicknames
  | id + 7 =>
      -- whatever is behind the parts is an item, since an item has nothing below it
      obtain ⟨k, hk, -⟩ := Option.bind_eq_some_iff.1 hp
      have hnodes : p.nodes ⊆ nicknamePart.nodes := by
        refine hitems.nodes_subset (fun e he => ?_) hp (Nat.le_add_left 7 id) (hstop hk)
        obtain ⟨_, -, rfl⟩ := List.mem_map.1 he
        exact List.Subset.refl _
      cases List.mem_singleton.1 (hnodes p.mem_nodes_self)
      exact .nickname (Nat.le_add_left 7 id)

theorem sprout (data : Json) (c : Config) : PersonTree (Form.sprout personModel data c) := by
  obtain ⟨ids, hroot, hrow⟩ := Shape.laid_block none none Form.root
    (.object personModel.properties) data (holds_sprout personModel data c)
  exact of_laid hroot hrow lt_of_control?_sprout

theorem sameTree (h : PersonTree f) (t : SameTree f g) : PersonTree g where
  root := (t.shape.links 0).symm.trans h.root
  car := (t.shape.links 3).symm.trans h.car
  model := (t.parent? 5).symm.trans h.model
  described hp := h.described ((t.property? _).trans hp)

theorem build (data : Json) (c : Config) : PersonTree (Form.build personModel data c) :=
  (PersonTree.sprout data c).sameTree (sameDocument_build personModel data c).sameTree.symm

/-! ## Dependencies of the model of the car -/

theorem resolve_make (h : PersonTree f) : f.resolve (Scheduler.anchor f 5) "make" = some 4 := by
  have hsteps : Step.ofPath "make" = [.child "make"] := by decide +kernel
  rw [Scheduler.anchor, h.model, Option.getD_some, resolve, Navigator.resolve, hsteps]
  exact congrArg (Option.bind · some) (child?_of_links h.car "make")

theorem resolve_age (h : PersonTree f) : f.resolve (Scheduler.anchor f 5) "../age" = some 2 := by
  have hsteps : Step.ofPath "../age" = [.parent, .child "age"] := by decide +kernel
  have hup : f.parent? 3 = some 0 := parent?_of_links h.car
  rw [Scheduler.anchor, h.model, Option.getD_some, resolve, Navigator.resolve, hsteps,
    Navigator.follow, Navigator.step]
  change (f.parent? 3).bind _ = _
  rw [hup]
  exact congrArg (Option.bind · some) (child?_of_links h.root "age")

theorem place?_root (h : PersonTree f) (sound : f.SoundTree) : f.place? 0 = some [] :=
  sound.place?_root (parent?_of_links h.root)

theorem place?_age (h : PersonTree f) (sound : f.SoundTree) : f.place? 2 = some [.key "age"] := by
  rw [place?_of_links h.root sound (by decide) rfl, h.place?_root sound]
  rfl

theorem place?_make (h : PersonTree f) (sound : f.SoundTree) :
    f.place? 4 = some [.key "car", .key "make"] := by
  have hcar : f.place? 3 = some [.key "car"] := by
    rw [place?_of_links h.root sound (by decide) rfl, h.place?_root sound]
    rfl
  rw [place?_of_links h.car sound (by decide) rfl, hcar]
  rfl

end PersonTree

/-! ## What the tests read -/

theorem agrees_ofCheck {check : Json → Json → Bool} {paths : List String} {v w root root' : Json}
    (h : check v root = check w root') :
    ((Rule.ofCheck check).dependsOn paths).Agrees v root w root' where
  check := by
    rintro _ ⟨⟩
    exact h
  inquiry := nofun

/-- The tests of a property look at the value alone. -/
def ReadsOwn (p : Property) : Prop :=
  ∀ reaction v root root', ∀ t ∈ p.testsFor reaction, ∀ r ∈ t.ruleList, r.Agrees v root v root'

theorem readsOwn_part {name : Option String} {path : String} {valid : List Test} {shape : Shape}
    (h : ∀ v root root', ∀ t ∈ valid, ∀ r ∈ t.ruleList, r.Agrees v root v root') :
    ReadsOwn (part name path valid [] shape)
  | .validity => h
  | .editability => nofun

theorem agrees_required (v root root' : Json) :
    ∀ t ∈ [required], ∀ r ∈ t.ruleList, r.Agrees v root v root' := by
  intro t ht r hr
  cases List.mem_singleton.1 ht
  cases List.mem_singleton.1 hr
  exact agrees_ofCheck rfl

theorem agrees_adult (v root root' : Json) :
    ∀ t ∈ [adult], ∀ r ∈ t.ruleList, r.Agrees v root v root' := by
  intro t ht r hr
  cases List.mem_singleton.1 ht
  cases List.mem_singleton.1 hr
  exact agrees_ofCheck rfl

theorem Describes.cases_readsOwn {id : ControlId} {p : Property} (h : Describes id p) :
    id = 5 ∧ p = modelPart ∨ ReadsOwn p := by
  cases h with
  | name => exact .inr (readsOwn_part agrees_required)
  | age => exact .inr (readsOwn_part agrees_adult)
  | car => exact .inr (readsOwn_part nofun)
  | make => exact .inr (readsOwn_part nofun)
  | model => exact .inl ⟨rfl, rfl⟩
  | nicknames => exact .inr (readsOwn_part nofun)
  | nickname => exact .inr (readsOwn_part agrees_required)

theorem agrees_driver {v root root' : Json} (h : root.field "age" = root'.field "age") :
    ∀ t ∈ [driver], ∀ r ∈ t.ruleList, r.Agrees v root v root' := by
  intro t ht r hr
  cases List.mem_singleton.1 ht
  rcases List.mem_cons.1 hr with rfl | hr
  · exact agrees_ofCheck (by rw [h])
  · cases List.mem_singleton.1 hr
    exact @agrees_ofCheck (fun value _ => !value.isNull) [] v v root root' rfl

theorem agrees_makeKnown {v root root' : Json}
    (h : (root.field "car").field "make" = (root'.field "car").field "make") :
    ∀ t ∈ [makeKnown], ∀ r ∈ t.ruleList, r.Agrees v root v root' := by
  intro t ht r hr
  cases List.mem_singleton.1 ht
  cases List.mem_singleton.1 hr
  exact agrees_ofCheck (by rw [h])

/-! ## Forms of a person -/

variable {f : Form}

theorem testsOf_eq_of_property? {id : ControlId} {p : Property} {tests : Property → List Test}
    (h : f.property? id = some p) : f.testsOf id tests = tests p := by
  rw [testsOf, h]
  rfl

/-- No test of a person reads anything but the value of its control and what its rules declare. -/
theorem PersonTree.declaresAll (h : PersonTree f) (sound : f.SoundTree) (control : ControlId)
    (reaction : Reaction) : f.DeclaresAll control reaction := by
  intro v root root' hplaces t ht
  cases hp : f.property? control with
  | none =>
      rw [testsOf_of_property?_eq_none _ hp] at ht
      cases ht
  | some p =>
      rw [testsOf_eq_of_property? hp] at ht
      rcases (h.described hp).cases_readsOwn with ⟨rfl, rfl⟩ | hown
      · cases reaction with
        | validity =>
            have hdep : Scheduler.DependsOn f 5 2 .validity :=
              ⟨modelPart, "../age", hp, by decide, h.resolve_age⟩
            exact agrees_driver (hplaces 2 (.inr hdep) _ (h.place?_age sound)) t ht
        | editability =>
            have hdep : Scheduler.DependsOn f 5 4 .editability :=
              ⟨modelPart, "make", hp, by decide, h.resolve_make⟩
            exact agrees_makeKnown (hplaces 4 (.inr hdep) _ (h.place?_make sound)) t ht
      · exact hown reaction v root root' t ht

/-- No test of a person makes an inquiry. -/
theorem PersonTree.hasInquiry (h : PersonTree f) (control : ControlId) :
    (f.testsOf control Property.validTests).any Test.hasInquiry = false := by
  cases hp : f.property? control with
  | none =>
      rw [testsOf_of_property?_eq_none _ hp]
      rfl
  | some p =>
      rw [testsOf_eq_of_property? hp]
      cases h.described hp <;> rfl

/-- The configuration alone says how the controls react to changes. -/
theorem policy_person (data : Json) (c : Config) (control : ControlId) :
    (build personModel data c).policy control = .ofConfig c := by
  have hdefaults := (MadeFrom.build personModel data c).defaults
  rw [policy]
  cases hp : (build personModel data c).property? control with
  | none => exact hdefaults
  | some p => cases (PersonTree.build data c).described hp <;> exact hdefaults

end Checker

end ReactiveForm
