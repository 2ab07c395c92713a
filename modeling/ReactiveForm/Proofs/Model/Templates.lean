import ReactiveForm.Proofs.Form.ControlTree
import ReactiveForm.Proofs.Model.Nodes
import ReactiveForm.Proofs.Path

/-!
# Paths with indices and the properties that they fit

The path of a property is a list of segments, where a template of items stands as `[]` and every
index fits it. In a regular model (`Model.Regular`) a path with indices fits one property at most,
although a walk tries all of them. No segment fits two properties one step below the same one
(`Shape.Labelled.pairwise_apart`), so no path fits what lies below the one and what lies below the
other, and what lies further down has a longer path (`Model.Orderly.pairwise_nodes`).

The path of a property leads back to it, segment by segment (`Model.Orderly.property?_path`). So
looking for the property of a path with indices finds all that the path fits
(`Model.Orderly.filter_matchesPath`).
-/

namespace ReactiveForm

/-! ## Regular models -/

/-- Parts of objects have names, distinct ones, and so have the properties at the top. Templates of
items have none. -/
structure Model.Regular (m : Model) : Prop where
  distinct : m.DistinctNames
  top : ∀ p ∈ m.properties, p.isItem = false
  children : ∀ p ∈ m.nodes, ∀ q ∈ p.children, q.isItem = false
  items : ∀ p ∈ m.nodes, ∀ q ∈ p.item?, q.isItem = true

/-! ## Lists in which one entry can have a mark -/

section Lists

variable {α : Type} {P : α → Bool} {l : List α}

theorem filter_eq_toList_find? (h : l.Pairwise fun a b => P a = true → P b = false) :
    l.filter P = (l.find? P).toList := by
  induction l with
  | nil => rfl
  | cons a l ih =>
      obtain ⟨ha, hl⟩ := List.pairwise_cons.1 h
      cases hP : P a with
      | true =>
          have hnone : l.filter P = [] := List.filter_eq_nil_iff.2 fun b hb => by simp [ha b hb hP]
          rw [List.filter_cons_of_pos hP, List.find?_cons_of_pos hP, hnone]
          rfl
      | false =>
          have hneg : ¬ P a = true := by simp [hP]
          rw [List.filter_cons_of_neg hneg, List.find?_cons_of_neg hneg, ih hl]

theorem find?_eq_some_of_pairwise {a : α} (h : l.Pairwise fun a b => P a = true → P b = false)
    (ha : a ∈ l) (hP : P a = true) : l.find? P = some a := by
  rw [← Option.mem_toList, ← filter_eq_toList_find? h]
  exact List.mem_filter.2 ⟨ha, hP⟩

end Lists

namespace Property

/-! ## Segments -/

/-- The segments of the path of a property. -/
def way (p : Property) : List String := Text.cut '.' p.path

theorem segmentFits_self (segment : String) : segmentFits segment segment = true := by
  simp [segmentFits]

/-- A segment other than that of items fits itself alone. -/
theorem segmentFits_of_ne {template : String} (h : template ≠ itemSegment) (concrete : String) :
    segmentFits template concrete = (template == concrete) := by
  simp [segmentFits, h]

/-- Nothing fits an empty segment but an empty one. -/
theorem segmentFits_empty {template : String} (h : template ≠ "") :
    segmentFits template "" = false := by
  have hword : Text.readWord? "" = none := rfl
  simp [segmentFits, h, hword]

theorem length_eq_of_segmentsFit {templates concretes : List String}
    (h : segmentsFit templates concretes = true) : templates.length = concretes.length := by
  induction templates generalizing concretes with
  | nil =>
      cases concretes with
      | nil => rfl
      | cons => cases h
  | cons t ts ih =>
      cases concretes with
      | nil => cases h
      | cons c cs =>
          rw [segmentsFit, Bool.and_eq_true] at h
          exact congrArg (· + 1) (ih h.2)

theorem segmentsFit_append {templates concretes : List String}
    (hlength : templates.length = concretes.length) (more others : List String) :
    segmentsFit (templates ++ more) (concretes ++ others) =
      (segmentsFit templates concretes && segmentsFit more others) := by
  induction templates generalizing concretes with
  | nil =>
      rw [List.eq_nil_of_length_eq_zero hlength.symm]
      rfl
  | cons t ts ih =>
      cases concretes with
      | nil => cases hlength
      | cons c cs =>
          simp only [List.cons_append, segmentsFit, Bool.and_assoc]
          rw [ih (Nat.succ.inj hlength)]

theorem exists_segmentFits_of_mem {templates concretes : List String} {segment : String}
    (h : segmentsFit templates concretes = true) (hmem : segment ∈ concretes) :
    ∃ template ∈ templates, segmentFits template segment = true := by
  induction templates generalizing concretes with
  | nil =>
      cases concretes with
      | nil => cases hmem
      | cons => cases h
  | cons t ts ih =>
      cases concretes with
      | nil => cases hmem
      | cons c cs =>
          rw [segmentsFit, Bool.and_eq_true] at h
          rcases List.mem_cons.1 hmem with rfl | hmem
          · exact ⟨t, List.mem_cons_self, h.1⟩
          · obtain ⟨u, hu, hfits⟩ := ih h.2 hmem
            exact ⟨u, List.mem_cons_of_mem _ hu, hfits⟩

/-- No segment fits both properties. -/
def Apart (p q : Property) : Prop :=
  ∀ segment, segmentFits p.segment segment = true → segmentFits q.segment segment = false

/-- No path fits both properties. -/
def PathsApart (p q : Property) : Prop :=
  ∀ path, p.matchesPath path = true → q.matchesPath path = false

theorem pathsApart_of_length_ne {p q : Property} (h : p.way.length ≠ q.way.length) :
    PathsApart p q := by
  intro path hp
  refine Bool.eq_false_iff.2 fun hq => h ?_
  exact (length_eq_of_segmentsFit hp).trans (length_eq_of_segmentsFit hq).symm

/-- What lies below properties that are apart has no path in common. -/
theorem Apart.pathsApart {p q r t : Property} (h : Apart p q) {way rest others : List String}
    (hr : r.way = way ++ p.segment :: rest) (ht : t.way = way ++ q.segment :: others) :
    PathsApart r t := by
  have hsegments : ∀ concretes, segmentsFit (way ++ p.segment :: rest) concretes = true →
      segmentsFit (way ++ q.segment :: others) concretes = false := by
    clear hr ht
    induction way with
    | nil =>
        rintro (_ | ⟨c, cs⟩) hfits
        · cases hfits
        · rw [List.nil_append, segmentsFit, Bool.and_eq_true] at hfits
          rw [List.nil_append, segmentsFit, h c hfits.1, Bool.false_and]
    | cons w way ih =>
        rintro (_ | ⟨c, cs⟩) hfits
        · cases hfits
        · rw [List.cons_append, segmentsFit, Bool.and_eq_true] at hfits
          rw [List.cons_append, segmentsFit, ih cs hfits.2, Bool.and_false]
  intro path hfits
  rw [matchesPath, ← Property.way, hr] at hfits
  rw [matchesPath, ← Property.way, ht]
  exact hsegments _ hfits

theorem Apart.segment_ne {p q : Property} (h : Apart p q) : p.segment ≠ q.segment := by
  intro heq
  have hfits := h q.segment (heq ▸ segmentFits_self _)
  rw [segmentFits_self] at hfits
  cases hfits

/-- Of properties that are apart, each one is found by its segment. -/
theorem find?_segment {ps : List Property} (h : ps.Pairwise Apart) {p : Property} (hp : p ∈ ps) :
    ps.find? (fun q => q.segment == p.segment) = some p := by
  refine find?_eq_some_of_pairwise (h.imp fun {q r} hapart hq => ?_) hp (beq_self_eq_true _)
  rw [beq_eq_false_iff_ne, ← beq_iff_eq.1 hq]
  exact hapart.segment_ne.symm

theorem find?_name {ps : List Property} (h : ps.Pairwise Apart) {p : Property} (hp : p ∈ ps)
    {name : String} (hname : p.name = some name) :
    ps.find? (fun q => q.name == some name) = some p := by
  refine find?_eq_some_of_pairwise (h.imp fun {q r} hapart hq => ?_) hp (beq_iff_eq.2 hname)
  refine beq_eq_false_iff_ne.2 fun hr => hapart.segment_ne ?_
  rw [segment, segment, beq_iff_eq.1 hq, hr]

/-! ## Labels -/

theorem name_of_isItem {p : Property} (h : p.isItem = false) : p.name = some p.segment := by
  unfold isItem at h
  unfold segment
  cases hname : p.name with
  | none => simp [hname] at h
  | some name => rfl

theorem segment_of_isItem {p : Property} (h : p.isItem = true) : p.segment = itemSegment := by
  rw [segment, Option.isNone_iff_eq_none.1 h]
  rfl

theorem ne_itemSegment_of_nameFault? {name : String} (h : nameFault? name = none) :
    name ≠ itemSegment := by
  rintro rfl
  exact absurd h (by decide)

end Property

/-- The parts of an object have distinct names without faults, and the template of items has no
name. -/
inductive Shape.Labelled : Shape → Prop where
  | value : Labelled .value
  | object {children : List Property} (hnamed : ∀ p ∈ children, p.isItem = false)
      (hfaultless : ∀ p ∈ children, Property.nameFault? p.segment = none)
      (hnodup : (children.filterMap Property.name).Nodup) : Labelled (.object children)
  | array {item : Property} (hitem : item.isItem = true) : Labelled (.array item)

namespace Shape.Labelled

variable {shape : Shape} {p q : Property}

theorem isSegment (h : shape.Labelled) (hp : p ∈ shape.inner) : Step.IsSegment p.segment := by
  cases h with
  | value => cases hp
  | object _ hfaultless _ => exact Step.isSegment_of_nameFault? (hfaultless p hp)
  | array hitem =>
      rw [List.mem_singleton.1 hp, Property.segment_of_isItem hitem]
      exact ⟨by decide, by decide, by decide⟩

/-- No segment fits two properties one step below. -/
theorem pairwise_apart (h : shape.Labelled) : shape.inner.Pairwise Property.Apart := by
  cases h with
  | value => exact .nil
  | @object children hnamed hfaultless hnodup =>
      refine (List.pairwise_filterMap.1 hnodup).imp_of_mem fun {p q} hp hq hne segment hfits => ?_
      have hpitem := Property.ne_itemSegment_of_nameFault? (hfaultless p hp)
      have hqitem := Property.ne_itemSegment_of_nameFault? (hfaultless q hq)
      rw [Property.segmentFits_of_ne hpitem, beq_iff_eq] at hfits
      rw [Property.segmentFits_of_ne hqitem, ← hfits, beq_eq_false_iff_ne]
      exact (hne _ (Property.name_of_isItem (hnamed p hp)) _
        (Property.name_of_isItem (hnamed q hq))).symm
  | array => exact List.pairwise_singleton _ _

/-- The segment of a property one step below leads to it. -/
theorem next?_segment (h : p.shape.Labelled) (hq : q ∈ p.shape.inner) :
    p.next? q.segment = some q := by
  have hapart := h.pairwise_apart
  unfold Property.next? Property.item? Property.child? Property.children
  cases hshape : p.shape with
  | value =>
      rw [hshape] at hq
      cases hq
  | object children =>
      rw [hshape] at h hq hapart
      cases h with
      | object hnamed => exact Property.find?_name hapart hq (Property.name_of_isItem (hnamed q hq))
  | array item =>
      rw [hshape] at hq
      rw [List.mem_singleton.1 hq]
      exact if_pos rfl

end Shape.Labelled

/-! ## Regular models are in order -/

theorem Shape.WellNamed.inner {shape : Shape} (h : shape.WellNamed) :
    ∀ p ∈ shape.inner, p.shape.WellNamed := by
  cases h with
  | value => exact nofun
  | object _ hparts => exact hparts
  | array hitem => exact List.forall_mem_singleton.2 hitem

theorem Shape.DistinctNames.inner {shape : Shape} (h : shape.DistinctNames) :
    ∀ p ∈ shape.inner, p.shape.DistinctNames := by
  cases h with
  | value => exact nofun
  | object _ hparts => exact hparts
  | array hitem => exact List.forall_mem_singleton.2 hitem

theorem Shape.labelled_object {children : List Property}
    (hnamed : ∀ p ∈ children, p.isItem = false) (hwell : (object children).WellNamed)
    (hdistinct : (object children).DistinctNames) : (object children).Labelled := by
  cases hwell with
  | object hnames _ =>
      cases hdistinct with
      | object hnodup _ =>
          exact .object hnamed
            (fun p hp => hnames p hp _ (Property.name_of_isItem (hnamed p hp))) hnodup

theorem joinPath_empty (segment : String) : joinPath "" segment = segment := rfl

theorem joinPath_ne_empty {parent segment : String} (h : segment ≠ "") :
    joinPath parent segment ≠ "" := by
  unfold joinPath
  split
  · exact h
  · intro hempty
    simp at hempty

namespace Model

/-- Properties can be told apart by their labels, and their paths are made of these. -/
structure Orderly (m : Model) : Prop where
  top : (Shape.object m.properties).Labelled
  inner : ∀ p ∈ m.nodes, p.shape.Labelled
  way_top : ∀ p ∈ m.properties, p.way = [p.segment]
  way_inner : ∀ p ∈ m.nodes, ∀ q ∈ p.shape.inner, q.way = p.way ++ [q.segment]

variable {m : Model}

theorem Regular.labelled (h : m.Regular) (hwell : m.WellNamed) :
    ∀ p ∈ m.nodes, p.shape.Labelled := by
  have hwell : ∀ p ∈ m.nodes, p.shape.WellNamed :=
    forall_nodes (P := fun p => p.shape.WellNamed) (Shape.WellNamed.inner hwell)
      fun p _ hshape => hshape.inner
  have hdistinct : ∀ p ∈ m.nodes, p.shape.DistinctNames :=
    forall_nodes (P := fun p => p.shape.DistinctNames) (Shape.DistinctNames.inner h.distinct)
      fun p _ hshape => hshape.inner
  intro p hp
  have hwell := hwell p hp
  have hdistinct := hdistinct p hp
  have hchildren := h.children p hp
  have hitems := h.items p hp
  unfold Property.children at hchildren
  unfold Property.item? at hitems
  cases hshape : p.shape with
  | value => exact .value
  | object children =>
      rw [hshape] at hwell hdistinct hchildren
      exact Shape.labelled_object hchildren hwell hdistinct
  | array item =>
      rw [hshape] at hitems
      exact .array (hitems item rfl)

theorem Built.orderly (hm : m.Built) (h : m.Regular) : m.Orderly := by
  have htop := Shape.labelled_object h.top hm.wellNamed h.distinct
  have hinner := h.labelled hm.wellNamed
  have hplaced := hm.placed
  have hpath : ∀ p ∈ m.nodes, p.path ≠ "" := by
    have hlies : ∀ {shape : Shape} {owner parent : String} {p : Property}, shape.Labelled →
        p ∈ shape.inner → p.Lies owner parent → p.path ≠ "" := fun hlabelled hp hlies => by
      rw [hlies.path]
      exact joinPath_ne_empty fun hempty => (hlabelled.isSegment hp).nonempty (by rw [hempty]; rfl)
    exact forall_nodes (fun p hp => hlies htop hp (hplaced.top p hp))
      fun p hp _ q hq => hlies (hinner p hp) hq (hplaced.inner p hp q hq)
  refine ⟨htop, hinner, fun p hp => ?_, fun p hp q hq => ?_⟩
  · have hsegment := htop.isSegment hp
    rw [Property.way, (hplaced.top p hp).path, joinPath_empty]
    exact Text.cut_eq_singleton hsegment.dot
  · have hsegment := (hinner p hp).isSegment hq
    rw [Property.way, (hplaced.inner p hp q hq).path]
    exact Text.cut_joinPath (hpath p hp) hsegment.dot

namespace Orderly

variable (h : m.Orderly)

include h

/-! ## Ways down -/

/-- The way to a property leads through those above it. -/
theorem exists_rest (p : Property) (hp : p ∈ m.nodes) :
    ∀ q ∈ p.nodes, ∃ rest, q.way = p.way ++ rest ∧ p.descend? rest = some q := by
  induction p with
  | step p ih =>
      rw [Property.nodes_eq]
      refine List.forall_mem_cons.2 ⟨⟨[], (List.append_nil _).symm, rfl⟩,
        List.forall_mem_flatMap.2 fun q hq r hr => ?_⟩
      obtain ⟨rest, hway, hrest⟩ := ih q hq (mem_nodes_of_mem_inner hp hq) r hr
      refine ⟨q.segment :: rest, ?_, ?_⟩
      · rw [hway, h.way_inner p hp q hq, List.append_assoc, List.singleton_append]
      · rw [Property.descend?, (h.inner p hp).next?_segment hq, Option.bind_some, hrest]

/-- The path of a property leads to it. -/
theorem property?_path {p : Property} (hp : p ∈ m.nodes) : m.property? p.path = some p := by
  obtain ⟨top, htop, hbelow⟩ := List.mem_flatMap.1 hp
  obtain ⟨rest, hway, hrest⟩ := h.exists_rest top (mem_nodes_of_mem_properties htop) p hbelow
  rw [h.way_top top htop, Property.way, List.singleton_append] at hway
  have hfirst : m.properties.find? (fun q => q.segment == top.segment) = some top :=
    Property.find?_segment h.top.pairwise_apart htop
  rw [property?, hway]
  dsimp only
  rw [hfirst, Option.bind_some, hrest]

/-! ## Paths that are apart -/

/-- What lies below siblings is apart if it is below each of them. -/
theorem pairwise_flatMap_nodes {ps : List Property} (way : List String) (hps : ps ⊆ m.nodes)
    (hway : ∀ p ∈ ps, p.way = way ++ [p.segment]) (hapart : ps.Pairwise Property.Apart)
    (hnodes : ∀ p ∈ ps, p.nodes.Pairwise Property.PathsApart) :
    (ps.flatMap Property.nodes).Pairwise Property.PathsApart := by
  refine List.pairwise_flatMap.2 ⟨hnodes, hapart.imp_of_mem fun {p q} hp hq hpq r hr t ht => ?_⟩
  obtain ⟨rest, hr, -⟩ := h.exists_rest p (hps hp) r hr
  obtain ⟨others, ht, -⟩ := h.exists_rest q (hps hq) t ht
  rw [hway p hp, List.append_assoc, List.singleton_append] at hr
  rw [hway q hq, List.append_assoc, List.singleton_append] at ht
  exact hpq.pathsApart hr ht

/-- No path fits two of the properties that a walk through a property visits. -/
theorem pairwise_nodes_property (p : Property) (hp : p ∈ m.nodes) :
    p.nodes.Pairwise Property.PathsApart := by
  induction p with
  | step p ih =>
      rw [Property.nodes_eq]
      have hinner : p.shape.inner ⊆ m.nodes := fun q hq => mem_nodes_of_mem_inner hp hq
      refine List.pairwise_cons.2 ⟨List.forall_mem_flatMap.2 fun q hq r hr => ?_,
        h.pairwise_flatMap_nodes p.way hinner (h.way_inner p hp) (h.inner p hp).pairwise_apart
          fun q hq => ih q hq (hinner hq)⟩
      -- what is further down has a longer path
      obtain ⟨rest, hway, -⟩ := h.exists_rest q (hinner hq) r hr
      refine Property.pathsApart_of_length_ne ?_
      rw [hway, h.way_inner p hp q hq, List.length_append, List.length_append,
        List.length_singleton]
      omega

/-- No path fits two of the properties that a walk through the model visits. -/
theorem pairwise_nodes : m.nodes.Pairwise Property.PathsApart :=
  h.pairwise_flatMap_nodes [] (fun _ hp => mem_nodes_of_mem_properties hp) h.way_top
    h.top.pairwise_apart fun p hp => h.pairwise_nodes_property p (mem_nodes_of_mem_properties hp)

/-- Looking for the property of a path finds the only one that the path fits. -/
theorem filter_matchesPath (path : String) :
    m.nodes.filter (fun p => p.matchesPath path) = (m.propertyFor? path).toList := by
  rw [filter_eq_toList_find? (h.pairwise_nodes.imp fun hapart => hapart path), propertyFor?]
  refine congrArg Option.toList ?_
  cases hfind : m.nodes.find? fun p => p.matchesPath path with
  | none => rfl
  | some p => exact (h.property?_path (List.mem_of_find?_eq_some hfind)).symm

theorem propertyFor?_eq_some_iff {path : String} {p : Property} :
    m.propertyFor? path = some p ↔ p ∈ m.nodes ∧ p.matchesPath path = true := by
  rw [← Option.mem_toList, ← h.filter_matchesPath, List.mem_filter]

theorem isSegment_of_mem_way : ∀ p ∈ m.nodes, ∀ segment ∈ p.way, Step.IsSegment segment := by
  refine forall_nodes (fun p hp => ?_) fun p hp hway q hq => ?_
  · rw [h.way_top p hp, List.forall_mem_singleton]
    exact h.top.isSegment hp
  · rw [h.way_inner p hp q hq, List.forall_mem_append, List.forall_mem_singleton]
    exact ⟨hway, (h.inner p hp).isSegment hq⟩

/-- A path with an empty segment fits no property. -/
theorem propertyFor?_eq_none {path : String} (hempty : "" ∈ Text.cut '.' path) :
    m.propertyFor? path = none := by
  refine Option.eq_none_iff_forall_ne_some.2 fun p hp => ?_
  obtain ⟨hmem, hfits⟩ := h.propertyFor?_eq_some_iff.1 hp
  obtain ⟨template, htemplate, hfits⟩ := Property.exists_segmentFits_of_mem hfits hempty
  have hnonempty := (h.isSegment_of_mem_way p hmem template htemplate).nonempty
  rw [Property.segmentFits_empty fun heq => hnonempty (by rw [heq]; rfl)] at hfits
  cases hfits

end Orderly

end Model

end ReactiveForm
