import ReactiveForm.Proofs.Form.Edit
import ReactiveForm.Proofs.Form.Growth
import ReactiveForm.Proofs.Recompute.Fit

/-!
# Forms with the same values and validity tests

The change policies of a model play no part in the making of a form or in the values that it gets.
`Twin` relates two forms that may differ in their policies and in the states of their controls, but
not in their values. It holds of the forms that two models give which differ in their policies
(`twin_build`), and edits of values keep it (`Twin.setValue`). Twins have the same validity tests,
and these depend on the same controls (`SameTests`).
-/

namespace ReactiveForm

/-! ## Changing the policies of a model -/

namespace Property

mutual

/-- The property with the policies in it changed. -/
def mapPolicy (change : ChangePolicy → ChangePolicy) : Property → Property
  | ⟨name, path, owner, valid, edit, view, shape, policy⟩ =>
    ⟨name, path, owner, valid, edit, view, mapPolicyOfShape change shape, policy.map change⟩

/-- What a property contains, with the policies in it changed. -/
def mapPolicyOfShape (change : ChangePolicy → ChangePolicy) : Shape → Shape
  | .value => .value
  | .object children => .object (mapPolicyOfAll change children)
  | .array item => .array (mapPolicy change item)

/-- The parts of an object, with the policies in them changed. -/
def mapPolicyOfAll (change : ChangePolicy → ChangePolicy) : List Property → List Property
  | [] => []
  | p :: ps => mapPolicy change p :: mapPolicyOfAll change ps

end

variable {change : ChangePolicy → ChangePolicy}

theorem name_mapPolicy (p : Property) : (p.mapPolicy change).name = p.name := by
  cases p
  rfl

theorem validTests_mapPolicy (p : Property) : (p.mapPolicy change).validTests = p.validTests := by
  cases p
  rfl

theorem policyOr_mapPolicy (p : Property) (defaults : ChangePolicy) :
    (p.mapPolicy change).policyOr (change defaults) = change (p.policyOr defaults) := by
  cases p with
  | mk name path owner valid edit view shape policy => cases policy <;> rfl

end Property

/-- The model with all policies changed, also the one that a configuration has for it. -/
def Model.mapPolicy (m : Model) (c : Config) (change : ChangePolicy → ChangePolicy) : Model :=
  { m with
    properties := Property.mapPolicyOfAll change m.properties
    defaultPolicy := some (change (m.defaultPolicy.getD (.ofConfig c))) }

/-- The control with the policies of its property changed. -/
def Control.mapPolicy (change : ChangePolicy → ChangePolicy) (c : Control) : Control :=
  { c with property := c.property.map (Property.mapPolicy change) }

section Block

variable (change : ChangePolicy → ChangePolicy)

mutual

/-- The controls for a shape do not depend on the policies in it. -/
theorem Shape.block_mapPolicy (parent : Option ControlId) (property : Option Property)
    (next : ControlId) : ∀ (shape : Shape) (data : Json),
      Shape.block parent (property.map (Property.mapPolicy change)) next
          (Property.mapPolicyOfShape change shape) data =
        (Shape.block parent property next shape data).map (Control.mapPolicy change)
  | .value, data => by
    rw [Property.mapPolicyOfShape, Shape.block, Shape.block]
    rfl
  | .object children, data => by
    obtain ⟨hnamed, hbelow⟩ := Property.blockOfParts_mapPolicy next (next + 1) children data
    rw [Property.mapPolicyOfShape, Shape.block, Shape.block]
    simp only [hnamed, hbelow, List.map_cons]
    rfl
  | .array item, data => by
    rw [Property.mapPolicyOfShape, Shape.block, Shape.block]
    -- the numbers of the items depend on the lengths of the blocks before them only
    have hfold : ∀ (elements : List Json) (done : List ControlId × List Control),
        elements.foldl
            (fun (done : List ControlId × List Control) element =>
              let here := next + 1 + done.2.length
              (done.1 ++ [here],
                done.2 ++ Property.block (some next) here (item.mapPolicy change) element))
            (done.1, done.2.map (Control.mapPolicy change)) =
          let all := elements.foldl
            (fun (done : List ControlId × List Control) element =>
              let here := next + 1 + done.2.length
              (done.1 ++ [here], done.2 ++ Property.block (some next) here item element)) done
          (all.1, all.2.map (Control.mapPolicy change)) := by
      intro elements
      induction elements with
      | nil => exact fun _ => rfl
      | cons element elements ih =>
          intro done
          rw [List.foldl_cons, List.foldl_cons, ← ih]
          simp only [List.length_map, List.map_append,
            Property.block_mapPolicy (some next) _ item element]
    have hall := hfold data.items ([], [])
    rw [List.map_nil] at hall
    simp only [hall, List.map_cons]
    rfl

/-- The controls for a property do not depend on the policies in it. -/
theorem Property.block_mapPolicy (parent : Option ControlId) (next : ControlId) :
    ∀ (p : Property) (data : Json),
      Property.block parent next (p.mapPolicy change) data =
        (Property.block parent next p data).map (Control.mapPolicy change)
  | ⟨name, path, owner, valid, edit, view, shape, policy⟩, data => by
    rw [Property.mapPolicy, Property.block, Property.block,
      ← Shape.block_mapPolicy parent _ next shape data, Option.map_some, Property.mapPolicy]

/-- The controls for the parts of an object do not depend on the policies in them. -/
theorem Property.blockOfParts_mapPolicy (parent next : ControlId) :
    ∀ (parts : List Property) (data : Json),
      (Property.blockOfParts parent next (Property.mapPolicyOfAll change parts) data).1 =
          (Property.blockOfParts parent next parts data).1 ∧
        (Property.blockOfParts parent next (Property.mapPolicyOfAll change parts) data).2 =
          (Property.blockOfParts parent next parts data).2.map (Control.mapPolicy change)
  | [], data => by
    rw [Property.mapPolicyOfAll, Property.blockOfParts]
    exact ⟨rfl, rfl⟩
  | p :: parts, data => by
    rw [Property.mapPolicyOfAll, Property.blockOfParts, Property.blockOfParts,
      Property.name_mapPolicy]
    cases p.name with
    | none => exact Property.blockOfParts_mapPolicy parent next parts data
    | some name =>
      have hfirst := Property.block_mapPolicy (some parent) next p (data.field name)
      obtain ⟨hnamed, hrest⟩ := Property.blockOfParts_mapPolicy parent
        (next + (Property.block (some parent) next p (data.field name)).length) parts data
      simp only [hfirst, List.length_map, hnamed, hrest, List.map_append, and_self]

end

end Block

namespace Form

variable {f f' g h : Form} {id : ControlId} {m : Model} {data : Json} {c : Config}

theorem control?_sprout_mapPolicy (change : ChangePolicy → ChangePolicy) (id : ControlId) :
    (sprout (m.mapPolicy c change) data c).control? id =
      ((sprout m data c).control? id).map (Control.mapPolicy change) := by
  rw [control?_sprout, control?_sprout]
  have hblock := Shape.block_mapPolicy change none none root (.object m.properties) data
  rw [Option.map_none, Property.mapPolicyOfShape] at hblock
  rw [Model.mapPolicy, hblock, List.getElem?_map]

/-- The policies of the controls change with those of the model. -/
theorem policy_build_mapPolicy (change : ChangePolicy → ChangePolicy) (id : ControlId) :
    (build (m.mapPolicy c change) data c).policy id = change ((build m data c).policy id) := by
  have hproperty : (sprout (m.mapPolicy c change) data c).property? id =
      ((sprout m data c).property? id).map (Property.mapPolicy change) := by
    rw [property?, control?_sprout_mapPolicy, property?]
    cases (sprout m data c).control? id <;> rfl
  rw [(sameDocument_build _ data c).sameTree.policy, (sameDocument_build m data c).sameTree.policy,
    policy, hproperty, policy]
  cases (sprout m data c).property? id with
  | none => rfl
  | some p => exact p.policyOr_mapPolicy _

/-! ## Twins -/

/-- The forms have the same controls with the same validity tests. -/
structure SameTests (f g : Form) : Prop where
  shape : SameShape f g
  validTests : ∀ id,
    (f.property? id).map Property.validTests = (g.property? id).map Property.validTests

namespace SameTests

theorem symm (t : SameTests f g) : SameTests g f :=
  ⟨t.shape.symm, fun id => (t.validTests id).symm⟩

theorem trans (t : SameTests f g) (u : SameTests g h) : SameTests f h :=
  ⟨t.shape.trans u.shape, fun id => (t.validTests id).trans (u.validTests id)⟩

theorem of_sameTree (t : SameTree f g) : SameTests f g :=
  ⟨t.shape, fun id => by rw [t.property? id]⟩

theorem testsOf (t : SameTests f g) (id : ControlId) :
    f.testsOf id Property.validTests = g.testsOf id Property.validTests := by
  rw [Form.testsOf, Form.testsOf, t.validTests id]

theorem dependsOn (t : SameTests f g) {control watched : ControlId}
    (h : Scheduler.DependsOn f control watched .validity) :
    Scheduler.DependsOn g control watched .validity := by
  obtain ⟨p, path, hp, hpath, hresolve⟩ := h
  obtain ⟨q, hq, htests⟩ := Option.map_eq_some_iff.1
    ((t.validTests control).symm.trans (congrArg (Option.map Property.validTests) hp))
  refine ⟨q, path, hq, ?_, ?_⟩
  · rw [Scheduler.pathsFor, Scheduler.validPaths, htests]
    exact hpath
  · rw [← t.shape.anchor control, ← t.shape.resolve]
    exact hresolve

end SameTests

/-- The forms have the same controls with the same validity tests and the same values. They may
differ in policies and states. -/
structure Twin (f g : Form) : Prop where
  tests : SameTests f g
  values : ∀ id, (f.control? id).map Control.value = (g.control? id).map Control.value

namespace Twin

theorem symm (t : Twin f g) : Twin g f := ⟨t.tests.symm, fun id => (t.values id).symm⟩

theorem trans (t : Twin f g) (u : Twin g h) : Twin f h :=
  ⟨t.tests.trans u.tests, fun id => (t.values id).trans (u.values id)⟩

theorem of_sameDocument (d : SameDocument f g) : Twin f g where
  tests := .of_sameTree d.sameTree
  values id := by
    have hvalues := congrArg (Option.map Control.value) (d.content id)
    rw [Option.map_map, Option.map_map] at hvalues
    exact hvalues

theorem value (t : Twin f g) (id : ControlId) : f.value id = g.value id :=
  t.tests.shape.value_congr (fun _ => True) (fun _ _ _ _ _ _ => trivial) (fun id _ => t.values id)
    trivial

end Twin

private theorem content_of_setValue {v : Json} (hset : f.setValue id v = .ok g)
    (other : ControlId) : (g.control? other).map Control.content =
      ((f.stored id v).control? other).map Control.content := by
  obtain ⟨-, rfl⟩ := setValue_eq_ok hset
  rw [control?_publish]
  exact (sameDocument_refreshLineage _ _).content other

private theorem values_of_setValue {v : Json} (hset : f.setValue id v = .ok g)
    (other : ControlId) : (g.control? other).map Control.value =
      if other = id then (f.control? other).map fun _ => v
      else (f.control? other).map Control.value := by
  have hcontent := congrArg (Option.map Control.value) (content_of_setValue hset other)
  rw [Option.map_map, Option.map_map, stored, control?_modify] at hcontent
  refine hcontent.trans ?_
  split
  · rw [Option.map_map]
    rfl
  · rfl

private theorem exists_setValue {k : Control} (hk : f.control? id = some k)
    (hkind : k.kind = .field) (v : Json) : ∃ g, f.setValue id v = .ok g := by
  simp [setValue, hk, hkind]

/-- What gives a field of a form a new value does the same with the twin. -/
theorem Twin.exists_setValue (t : Twin f g) {v : Json} (hset : f.setValue id v = .ok f') :
    ∃ g', g.setValue id v = .ok g' ∧ Twin f' g' := by
  obtain ⟨⟨k, hk, hkind⟩, -⟩ := setValue_eq_ok hset
  obtain ⟨l, hl, hchildren⟩ := Option.map_eq_some_iff.1
    ((t.tests.shape.children id).symm.trans (congrArg (Option.map Control.children) hk))
  obtain ⟨g', hset'⟩ := Form.exists_setValue hl
    (show l.kind = .field by rw [Control.kind, hchildren]; exact hkind) v
  have tests := SameTests.of_sameTree (sameTree_setValue hset)
  have tests' := SameTests.of_sameTree (sameTree_setValue hset')
  refine ⟨g', hset', tests.trans (t.tests.trans tests'.symm), fun other => ?_⟩
  rw [values_of_setValue hset, values_of_setValue hset', t.values other]
  split
  · have hsome := congrArg (Option.map fun _ => v) (t.values other)
    rw [Option.map_map, Option.map_map] at hsome
    exact hsome
  · rfl

/-- An edit of a value keeps twins, whether it succeeds or not. -/
theorem Twin.setValue (t : Twin f g) (id : ControlId) (v : Json) :
    Twin ((f.setValue id v).toOption.getD f) ((g.setValue id v).toOption.getD g) := by
  cases hf : f.setValue id v with
  | ok f' =>
      obtain ⟨g', hg, t'⟩ := t.exists_setValue hf
      rw [hg]
      exact t'
  | error err =>
      cases hg : g.setValue id v with
      | ok g' =>
          obtain ⟨f', hf', -⟩ := t.symm.exists_setValue hg
          rw [hf] at hf'
          cases hf'
      | error err' => exact t

/-- Models that differ in their policies give twins. -/
theorem twin_build (m : Model) (data : Json) (c : Config) (change : ChangePolicy → ChangePolicy) :
    Twin (build (m.mapPolicy c change) data c) (build m data c) := by
  have hsprout : Twin (sprout (m.mapPolicy c change) data c) (sprout m data c) := by
    refine ⟨⟨⟨?_, fun id => ?_⟩, fun id => ?_⟩, fun id => ?_⟩
    · have hlength := congrArg List.length
        (Shape.block_mapPolicy change none none root (.object m.properties) data)
      rw [List.length_map, Option.map_none, Property.mapPolicyOfShape] at hlength
      simpa [sprout, append, Model.mapPolicy] using hlength
    · rw [control?_sprout_mapPolicy]
      cases (sprout m data c).control? id <;> rfl
    · rw [property?, control?_sprout_mapPolicy, property?]
      cases hk : (sprout m data c).control? id with
      | none => rfl
      | some k =>
          cases hp : k.property <;> simp [Control.mapPolicy, hp, Property.validTests_mapPolicy]
    · rw [control?_sprout_mapPolicy]
      cases (sprout m data c).control? id <;> rfl
  exact (Twin.of_sameDocument (sameDocument_build _ data c)).trans
    (hsprout.trans (Twin.of_sameDocument (sameDocument_build m data c)).symm)

end Form

end ReactiveForm
