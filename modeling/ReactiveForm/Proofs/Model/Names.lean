import ReactiveForm.Model.Basic

/-!
# Names in a model

Properties are described one step after the other (`Property.Built`), and a description with a
faulty name does not come about. Placing a property in a model leaves the names. So no part of any
object in a model has a faulty name (`Model.Built.wellNamed`). Several parts of one object can have
the same name.
-/

namespace ReactiveForm

/-! ## Descriptions -/

/-- A property that was described step by step. -/
inductive Property.Built : Property → Prop where
  | named {name : String} {p : Property} (h : Property.named name = .ok p) : Built p
  | template : Built .template
  | valid {p : Property} (h : Built p) (t : Test) : Built (p.valid t)
  | edit {p : Property} (h : Built p) (t : Test) : Built (p.edit t)
  | view {p : Property} (h : Built p) (t : Test) : Built (p.view t)
  | withChildren {p : Property} {children : List Property} (h : Built p)
      (hchildren : ∀ child ∈ children, Built child) : Built (p.withChildren children)
  | withItem {p item : Property} (h : Built p) (hitem : Built item) : Built (p.withItem item)
  | withPolicy {p : Property} (h : Built p) (policy : ChangePolicy) : Built (p.withPolicy policy)

/-- A model of properties that were described step by step. -/
inductive Model.Built : Model → Prop where
  | ofProperties {name : String} {properties : List Property} {m : Model}
      (hproperties : ∀ p ∈ properties, p.Built) (h : Model.ofProperties name properties = .ok m) :
      Built m
  | add {m : Model} {p : Property} (h : Built m) (hp : p.Built) : Built (m.add p)
  | withDefaultPolicy {m : Model} (h : Built m) (policy : ChangePolicy) :
      Built (m.withDefaultPolicy policy)

/-- What holds of models without properties and is kept by further properties holds of all models
that were described step by step. -/
theorem Model.Built.inductionOn {P : Model → Prop} {m : Model} (h : m.Built)
    (empty : ∀ name, P ⟨name, [], none⟩)
    (add : ∀ {m : Model} {p : Property}, P m → p.Built → P (m.add p))
    (withDefaultPolicy : ∀ {m : Model} (policy : ChangePolicy), P m →
      P (m.withDefaultPolicy policy)) : P m := by
  induction h with
  | @ofProperties name properties m hproperties h =>
      unfold Model.ofProperties at h
      split at h
      · cases h
      · cases h
        have hfold : ∀ (ps : List Property) (m : Model), P m → (∀ p ∈ ps, p.Built) →
            P (ps.foldl Model.add m) := by
          intro ps
          induction ps with
          | nil => exact fun m hm _ => hm
          | cons p ps ih =>
              intro m hm hps
              obtain ⟨hp, hps⟩ := List.forall_mem_cons.1 hps
              exact ih _ (add hm hp) hps
        exact hfold properties _ (empty name) hproperties
  | add _ hp ih => exact add ih hp
  | withDefaultPolicy _ policy ih => exact withDefaultPolicy policy ih

/-! ## Names without faults -/

/-- No part of an object has a faulty name, here and everywhere below. -/
inductive Shape.WellNamed : Shape → Prop where
  | value : WellNamed .value
  | object {children : List Property}
      (hnames : ∀ p ∈ children, ∀ name, p.name = some name → Property.nameFault? name = none)
      (hparts : ∀ p ∈ children, p.shape.WellNamed) : WellNamed (.object children)
  | array {item : Property} (hitem : item.shape.WellNamed) : WellNamed (.array item)

/-- No part of an object in a model has a faulty name. -/
def Model.WellNamed (m : Model) : Prop := (Shape.object m.properties).WellNamed

/-- A property has no faulty name, and neither has anything below it. -/
structure Property.WellNamed (p : Property) : Prop where
  name : ∀ name, p.name = some name → nameFault? name = none
  shape : p.shape.WellNamed

theorem Shape.wellNamed_object {children : List Property} (h : ∀ p ∈ children, p.WellNamed) :
    (Shape.object children).WellNamed :=
  .object (fun p hp => (h p hp).name) fun p hp => (h p hp).shape

theorem Property.Built.wellNamed {p : Property} (h : p.Built) : p.WellNamed := by
  induction h with
  | @named name p h =>
      unfold Property.named at h
      split at h
      · cases h
      · rename_i hfault
        cases h
        refine ⟨fun other hname => ?_, .value⟩
        cases hname
        exact hfault
  | template =>
      refine ⟨fun _ hname => ?_, .value⟩
      cases hname
  | valid _ _ ih => exact ⟨ih.name, ih.shape⟩
  | edit _ _ ih => exact ⟨ih.name, ih.shape⟩
  | view _ _ ih => exact ⟨ih.name, ih.shape⟩
  | withChildren _ _ ih ihchildren => exact ⟨ih.name, Shape.wellNamed_object ihchildren⟩
  | withItem _ _ ih ihitem => exact ⟨ih.name, .array ihitem.shape⟩
  | withPolicy _ _ ih => exact ⟨ih.name, ih.shape⟩

/-! ## Placing properties -/

mutual

theorem Property.WellNamed.place (owner parent : String) :
    ∀ {p : Property}, p.WellNamed → (p.place owner parent).WellNamed
  | ⟨name, path, _, valid, edit, view, shape, policy⟩, h => by
    rw [Property.place]
    exact ⟨h.name, Shape.WellNamed.placeShape owner _ h.shape⟩

theorem Shape.WellNamed.placeShape (owner parent : String) :
    ∀ {shape : Shape}, shape.WellNamed → (Property.placeShape owner parent shape).WellNamed
  | .value, _ => by
    rw [Property.placeShape]
    exact .value
  | .object children, h => by
    rw [Property.placeShape]
    refine Shape.wellNamed_object (Property.wellNamed_placeAll owner parent fun p hp => ?_)
    cases h with
    | object hnames hparts => exact ⟨hnames p hp, hparts p hp⟩
  | .array ⟨name, path, _, valid, edit, view, shape, policy⟩, h => by
    rw [Property.placeShape, Property.place]
    cases h with
    | array hitem => exact .array (Shape.WellNamed.placeShape owner _ hitem)

theorem Property.wellNamed_placeAll (owner parent : String) :
    ∀ {parts : List Property}, (∀ p ∈ parts, p.WellNamed) →
      ∀ p ∈ Property.placeAll owner parent parts, p.WellNamed
  | [], _ => by
    rw [Property.placeAll]
    exact fun _ hp => nomatch hp
  | first :: parts, h => by
    rw [Property.placeAll]
    refine List.forall_mem_cons.2 ⟨(h first List.mem_cons_self).place owner parent, ?_⟩
    exact Property.wellNamed_placeAll owner parent fun p hp => h p (List.mem_cons_of_mem _ hp)

end

theorem Model.WellNamed.add {m : Model} (h : m.WellNamed) {p : Property} (hp : p.WellNamed) :
    (m.add p).WellNamed := by
  cases h with
  | object hnames hparts =>
      refine Shape.wellNamed_object fun q hq => ?_
      rcases List.mem_append.1 hq with hq | hq
      · exact ⟨hnames q hq, hparts q hq⟩
      · rw [List.mem_singleton.1 hq]
        exact hp.place m.name ""

/-- No part of an object in a model has a faulty name. -/
theorem Model.Built.wellNamed {m : Model} (h : m.Built) : m.WellNamed :=
  h.inductionOn (fun _ => Shape.wellNamed_object nofun) (fun hm hp => hm.add hp.wellNamed)
    fun _ hm => hm

end ReactiveForm
