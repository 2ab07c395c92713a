import ReactiveForm.Proofs.Model.Templates

/-!
# Paths that are unique

The path of a property is the path of the one above it and one segment more, and no segment can be
mistaken for several: a description refuses names with separators in them (`Built.isSegment`). So
what lies below siblings with different segments has different paths, and what lies further down has
a longer one. The properties of a model have distinct paths exactly if siblings have distinct
segments everywhere (`Model.nodup_paths_iff`).

Nothing sees to that. A model takes several parts of one name, at the top and further down, and
several parts without a name, and then looking for a path leads to the first of them only
(`Model.not_nodup_namesakes`).
-/

namespace ReactiveForm

namespace Property

/-! ## Segments -/

/-- The segments of a property and of everything below it are kept in one piece by a path. -/
def Segmented (p : Property) : Prop := ∀ q ∈ p.nodes, Step.IsSegment q.segment

theorem segmented_iff {p : Property} :
    p.Segmented ↔ Step.IsSegment p.segment ∧ ∀ q ∈ p.shape.inner, q.Segmented := by
  unfold Segmented
  rw [nodes_eq, List.forall_mem_cons, List.forall_mem_flatMap]

/-- Tests and policies do not matter. -/
theorem Segmented.congr {p q : Property} (h : p.Segmented) (hname : q.name = p.name)
    (hshape : q.shape = p.shape) : q.Segmented := by
  rw [segmented_iff, segment, hname, hshape]
  exact segmented_iff.1 h

theorem isSegment_itemSegment : Step.IsSegment itemSegment :=
  ⟨by decide, by decide, by decide⟩

theorem Built.segmented {p : Property} (h : p.Built) : p.Segmented := by
  induction h with
  | @named name p h =>
      unfold Property.named at h
      split at h
      · cases h
      · next hfault =>
          cases h
          exact segmented_iff.2 ⟨Step.isSegment_of_nameFault? hfault, nofun⟩
  | template => exact segmented_iff.2 ⟨isSegment_itemSegment, nofun⟩
  | valid _ _ ih => exact ih.congr rfl rfl
  | edit _ _ ih => exact ih.congr rfl rfl
  | view _ _ ih => exact ih.congr rfl rfl
  | withChildren _ _ ih ihchildren =>
      exact segmented_iff.2 ⟨(segmented_iff.1 ih).1, ihchildren⟩
  | withItem _ _ ih ihitem =>
      exact segmented_iff.2 ⟨(segmented_iff.1 ih).1, List.forall_mem_singleton.2 ihitem⟩
  | withPolicy _ _ ih => exact ih.congr rfl rfl

theorem segment_place (owner parent : String) (p : Property) :
    (p.place owner parent).segment = p.segment := by
  obtain ⟨name, path, owner, valid, edit, view, shape, policy⟩ := p
  rw [place]
  rfl

theorem Segmented.place {p : Property} (h : p.Segmented) (owner parent : String) :
    (p.place owner parent).Segmented := by
  induction p generalizing parent with
  | step p ih =>
      obtain ⟨hsegment, hinner⟩ := segmented_iff.1 h
      refine segmented_iff.2 ⟨segment_place owner parent p ▸ hsegment, ?_⟩
      rw [inner_place]
      exact List.forall_mem_map.2 fun q hq => ih q hq (hinner q hq) _

/-! ## Walks within walks -/

theorem nodes_sublist {p : Property} : ∀ q ∈ p.nodes, q.nodes.Sublist p.nodes := by
  refine p.forall_nodes (P := fun q => q.nodes.Sublist p.nodes) (fun q hq r hr => ?_)
    (List.Sublist.refl _)
  have hbelow : r.nodes.Sublist (q.shape.inner.flatMap nodes) := by
    rw [List.flatMap_def]
    exact List.sublist_flatten_of_mem (List.mem_map_of_mem hr)
  rw [nodes_eq q] at hq
  exact hbelow.trans ((List.sublist_cons_self _ _).trans hq)

theorem sublist_flatMap_nodes (ps : List Property) : ps.Sublist (ps.flatMap nodes) := by
  induction ps with
  | nil => exact .slnil
  | cons p ps ih =>
      rw [List.flatMap_cons, nodes_eq, List.cons_append]
      exact (ih.trans (List.sublist_append_right _ _)).cons_cons p

/-- Siblings with distinct paths have distinct segments. -/
theorem nodup_segments {owner parent : String} {ps : List Property}
    (hlies : ∀ p ∈ ps, p.Lies owner parent) (h : (ps.map path).Nodup) :
    (ps.map segment).Nodup := by
  have hpaths : ps.map path = (ps.map segment).map (joinPath parent) := by
    rw [List.map_map]
    exact List.map_congr_left fun p hp => (hlies p hp).path
  rw [hpaths, List.Nodup, List.pairwise_map] at h
  exact h.imp fun hne heq => hne (congrArg _ heq)

end Property

namespace Model

variable {m : Model}

/-! ## Paths and their segments -/

theorem Built.segmented (h : m.Built) : ∀ p ∈ m.properties, p.Segmented :=
  h.inductionOn (fun _ => nofun)
    (fun hm hp => List.forall_mem_append.2
      ⟨hm, List.forall_mem_singleton.2 (hp.segmented.place _ _)⟩)
    fun _ hm => hm

/-- The segments of a path are those of the properties on the way to its own. -/
structure Spelled (m : Model) : Prop where
  way_top : ∀ p ∈ m.properties, p.way = [p.segment]
  way_inner : ∀ p ∈ m.nodes, ∀ q ∈ p.shape.inner, q.way = p.way ++ [q.segment]

theorem Built.spelled (h : m.Built) : m.Spelled := by
  have hsegment : ∀ p ∈ m.nodes, Step.IsSegment p.segment :=
    List.forall_mem_flatMap.2 h.segmented
  have hpath : ∀ p ∈ m.nodes, p.path ≠ "" := by
    have hlies : ∀ {parent : String} {p : Property}, p ∈ m.nodes → p.Lies m.name parent →
        p.path ≠ "" := fun hp hlies => by
      rw [hlies.path]
      exact joinPath_ne_empty fun hempty => (hsegment _ hp).nonempty (by rw [hempty]; rfl)
    exact forall_nodes (fun p hp => hlies (mem_nodes_of_mem_properties hp) (h.placed.top p hp))
      fun p hp _ q hq => hlies (mem_nodes_of_mem_inner hp hq) (h.placed.inner p hp q hq)
  refine ⟨fun p hp => ?_, fun p hp q hq => ?_⟩
  · rw [Property.way, (h.placed.top p hp).path, joinPath_empty]
    exact Text.cut_eq_singleton (hsegment p (mem_nodes_of_mem_properties hp)).dot
  · rw [Property.way, (h.placed.inner p hp q hq).path]
    exact Text.cut_joinPath (hpath p hp) (hsegment q (mem_nodes_of_mem_inner hp hq)).dot

/-- Siblings have distinct segments: the parts of every object, and the properties at the top. -/
structure DistinctSegments (m : Model) : Prop where
  top : (m.properties.map Property.segment).Nodup
  inner : ∀ p ∈ m.nodes, (p.shape.inner.map Property.segment).Nodup

namespace Spelled

variable (h : m.Spelled)

include h

/-- The way to a property begins with the way to each one above it. -/
theorem exists_way_eq_append (p : Property) (hp : p ∈ m.nodes) :
    ∀ q ∈ p.nodes, ∃ rest, q.way = p.way ++ rest := by
  induction p with
  | step p ih =>
      rw [Property.nodes_eq]
      refine List.forall_mem_cons.2 ⟨⟨[], (List.append_nil _).symm⟩,
        List.forall_mem_flatMap.2 fun q hq r hr => ?_⟩
      obtain ⟨rest, hway⟩ := ih q hq (mem_nodes_of_mem_inner hp hq) r hr
      exact ⟨q.segment :: rest, by rw [hway, h.way_inner p hp q hq, List.append_assoc]; rfl⟩

/-- What lies below siblings of distinct segments has distinct ways if it has below each of them. -/
theorem pairwise_way_flatMap {ps : List Property} (way : List String) (hps : ps ⊆ m.nodes)
    (hway : ∀ p ∈ ps, p.way = way ++ [p.segment]) (hdistinct : (ps.map Property.segment).Nodup)
    (hnodes : ∀ p ∈ ps, p.nodes.Pairwise fun q r => q.way ≠ r.way) :
    (ps.flatMap Property.nodes).Pairwise fun q r => q.way ≠ r.way := by
  refine List.pairwise_flatMap.2 ⟨hnodes,
    (List.pairwise_map.1 hdistinct).imp_of_mem fun {p q} hp hq hne r hr t ht heq => hne ?_⟩
  obtain ⟨rest, hr⟩ := h.exists_way_eq_append p (hps hp) r hr
  obtain ⟨others, ht⟩ := h.exists_way_eq_append q (hps hq) t ht
  rw [hway p hp, List.append_assoc] at hr
  rw [hway q hq, List.append_assoc] at ht
  have hsegments := List.append_cancel_left (hr.symm.trans (heq.trans ht))
  exact (List.cons.inj hsegments).1

theorem pairwise_way_nodes (hdistinct : m.DistinctSegments) (p : Property) (hp : p ∈ m.nodes) :
    p.nodes.Pairwise fun q r => q.way ≠ r.way := by
  induction p with
  | step p ih =>
      rw [Property.nodes_eq]
      have hinner : p.shape.inner ⊆ m.nodes := fun q hq => mem_nodes_of_mem_inner hp hq
      refine List.pairwise_cons.2 ⟨List.forall_mem_flatMap.2 fun q hq r hr heq => ?_,
        h.pairwise_way_flatMap p.way hinner (h.way_inner p hp) (hdistinct.inner p hp)
          fun q hq => ih q hq (hinner hq)⟩
      -- what is further down has a longer way
      obtain ⟨rest, hway⟩ := h.exists_way_eq_append q (hinner hq) r hr
      rw [hway, h.way_inner p hp q hq, List.append_assoc] at heq
      exact absurd (List.self_eq_append_right.1 heq) (by simp)

end Spelled

/-! ## Distinct paths -/

/-- In a model that was described step by step, the properties that a walk visits have distinct
paths exactly if no two siblings have the same segment. -/
theorem nodup_paths_iff (hm : m.Built) :
    (m.nodes.map Property.path).Nodup ↔ m.DistinctSegments := by
  have hplaced := hm.placed
  have hspelled := hm.spelled
  constructor
  · intro h
    have hsiblings : ∀ {ps : List Property} {parent : String},
        (∀ p ∈ ps, p.Lies m.name parent) → ps.Sublist m.nodes →
          (ps.map Property.segment).Nodup := fun hlies hps =>
      Property.nodup_segments hlies (h.sublist (hps.map _))
    refine ⟨hsiblings hplaced.top (Property.sublist_flatMap_nodes _),
      List.forall_mem_flatMap.2 fun t ht p hp => ?_⟩
    have hnodes : p.nodes.Sublist m.nodes := by
      rw [nodes, List.flatMap_def]
      exact (Property.nodes_sublist p hp).trans
        (List.sublist_flatten_of_mem (List.mem_map_of_mem ht))
    rw [Property.nodes_eq] at hnodes
    exact hsiblings (hplaced.inner p (List.mem_flatMap.2 ⟨t, ht, hp⟩))
      (((Property.sublist_flatMap_nodes _).trans (List.sublist_cons_self _ _)).trans hnodes)
  · intro hdistinct
    have hways : m.nodes.Pairwise fun p q => p.way ≠ q.way :=
      hspelled.pairwise_way_flatMap [] (fun _ hp => mem_nodes_of_mem_properties hp)
        hspelled.way_top hdistinct.top
        fun p hp => hspelled.pairwise_way_nodes hdistinct p (mem_nodes_of_mem_properties hp)
    exact List.pairwise_map.2 (hways.imp fun hne heq => hne (congrArg (Text.cut '.') heq))

/-- Parts whose segments look alike: a number beside a part without a name, and an array whose items
have a name. -/
def lookalikes : Model :=
  let child : Property := { Property.template with name := some "x" }
  let each : Property := { Property.template with name := some "each", shape := .object [child] }
  (((⟨"lookalikes", [], none⟩ : Model).add { Property.template with name := some "0" }).add
    .template).add { Property.template with name := some "list", shape := .array each }

theorem built_lookalikes : lookalikes.Built := by
  have hempty : Model.ofProperties "lookalikes" [] = .ok ⟨"lookalikes", [], none⟩ :=
    if_neg (by decide +kernel)
  have hnumber : Property.named "0" = .ok { Property.template with name := some "0" } := rfl
  have hchild : Property.named "x" = .ok { Property.template with name := some "x" } := rfl
  have heach : Property.named "each" = .ok { Property.template with name := some "each" } := rfl
  have hlist : Property.named "list" = .ok { Property.template with name := some "list" } := rfl
  have hitem := (Property.Built.named heach).withChildren
    (List.forall_mem_singleton.2 (.named hchild))
  exact (((Model.Built.ofProperties (List.forall_mem_nil _) hempty).add (.named hnumber)).add
    .template).add (.withItem (.named hlist) hitem)

theorem nodup_paths_lookalikes :
    lookalikes.DistinctSegments ∧ (lookalikes.nodes.map Property.path).Nodup ∧
      lookalikes.nodes.map Property.path = ["0", "[]", "list", "list.each", "list.each.x"] := by
  have hdistinct : lookalikes.DistinctSegments := ⟨by decide +kernel, by decide +kernel⟩
  exact ⟨hdistinct, (nodup_paths_iff built_lookalikes).2 hdistinct, by decide +kernel⟩

/-! ## Paths that are not -/

/-- Two parts of one name, the second of them with something below it. -/
def sameNames : List Property :=
  let part : Property := { Property.template with name := some "a" }
  [part, part.withChildren [{ Property.template with name := some "b" }]]

/-- The model of these parts. -/
def namesakes : Model := sameNames.foldl add ⟨"namesakes", [], none⟩

/-- Parts of one name that were described step by step make a model, and it has one path twice. A
path that fits a property below the second part leads nowhere, as the first one has nothing
below it. -/
theorem not_nodup_namesakes :
    (∀ p ∈ sameNames, p.Built) ∧ Model.ofProperties "namesakes" sameNames = .ok namesakes ∧
      namesakes.nodes.map Property.path = ["a", "a", "a.b"] ∧
      ¬ (namesakes.nodes.map Property.path).Nodup ∧
      namesakes.nodes.any (fun p => p.matchesPath "a.b") = true ∧
      (namesakes.propertyFor? "a.b").isNone = true := by
  have hname : Property.named "a" = .ok { Property.template with name := some "a" } := rfl
  have hbelow : Property.named "b" = .ok { Property.template with name := some "b" } := rfl
  have hparts : ∀ p ∈ sameNames, p.Built :=
    List.forall_mem_cons.2 ⟨.named hname, List.forall_mem_singleton.2
      (.withChildren (.named hname) (List.forall_mem_singleton.2 (.named hbelow)))⟩
  exact ⟨hparts, if_neg (by decide +kernel), by decide +kernel, by decide +kernel,
    by decide +kernel, by decide +kernel⟩

end Model

end ReactiveForm
