import Mathlib.Data.List.Nodup
import ReactiveForm.Proofs.Model.Uniqueness

/-!
# Paths and the properties that they lead to

A segment leads from the top of a model, or from a property, to one that is one step below
(`Model.Leads`). Segments lead to every property, and the path of a property is that of its
segments with dots between them (`Model.Leads.path`).

Looking for a path takes such steps, so what it finds has just that path
(`Model.path_of_property?`). It takes the first step that fits, and from an object only steps to
parts with a name. Where paths are distinct and the parts of objects have names no step is missed,
and every property is found by its path (`Model.Leads.property?`, `Model.property?_inverts_paths`).
-/

namespace ReactiveForm

namespace Text

/-- A text is restored from its pieces. -/
theorem cut_injective (sep : Char) : Function.Injective (cut sep) := by
  intro s t h
  have hpieces : pieces sep s.toList = pieces sep t.toList :=
    List.map_injective_iff.2 (fun _ _ => String.ofList_inj.1) h
  have hjoined := congrArg (joinPieces sep) hpieces
  rw [joinPieces_pieces, joinPieces_pieces] at hjoined
  exact String.toList_inj.1 hjoined

end Text

namespace Property

/-- Two lists of segments lead where the second one leads from where the first one does. -/
theorem descend?_append (p : Property) (segments others : List String) :
    p.descend? (segments ++ others) = (p.descend? segments).bind fun q => q.descend? others := by
  induction segments generalizing p with
  | nil => rw [descend?, List.nil_append, Option.bind_some]
  | cons segment segments ih =>
      rw [List.cons_append, descend?, descend?, Option.bind_assoc]
      exact congrArg _ (funext ih)

/-- A segment leads to a property one step below that has it. -/
theorem mem_inner_of_next? {p q : Property} {segment : String} (h : p.next? segment = some q) :
    q ∈ p.shape.inner ∧ q.segment = segment := by
  unfold next? item? child? children at h
  cases hshape : p.shape with
  | value => simp [hshape] at h
  | object parts =>
      simp only [hshape] at h
      have hname : q.name = some segment := beq_iff_eq.1 (List.find?_some h :)
      exact ⟨List.mem_of_find?_eq_some h, by rw [Property.segment, hname]; rfl⟩
  | array item =>
      simp only [hshape, Option.ite_none_right_eq_some, Option.some.injEq] at h
      obtain ⟨hsegment, rfl⟩ := h
      exact ⟨List.mem_singleton_self _, hsegment.symm⟩

/-- The segment of a property one step below leads to it, unless it is a part without a name or one
with the segment of another part. -/
theorem next?_segment {p q : Property} (hq : q ∈ p.shape.inner)
    (hnamed : ∀ r ∈ p.children, r.isItem = false)
    (hdistinct : ∀ r ∈ p.shape.inner, r.segment = q.segment → r = q) :
    p.next? q.segment = some q := by
  have hfound : (p.next? q.segment).isSome := by
    unfold next? item? child?
    unfold children at hnamed ⊢
    cases hshape : p.shape with
    | value => rw [hshape] at hq; cases hq
    | object parts =>
        rw [hshape] at hq
        simp only [hshape] at hnamed ⊢
        exact List.find?_isSome.2 ⟨q, hq, beq_iff_eq.2 (name_of_isItem (hnamed q hq))⟩
    | array item =>
        rw [hshape] at hq
        rw [List.mem_singleton.1 hq]
        simp only [if_pos, Option.isSome_some]
  obtain ⟨r, hr⟩ := Option.isSome_iff_exists.1 hfound
  obtain ⟨hmem, hsegment⟩ := mem_inner_of_next? hr
  rw [hr, hdistinct r hmem hsegment]

end Property

namespace Model

variable {m : Model} {segments : List String} {p : Property}

/-! ## Ways from the top -/

/-- The segments on a way from the top of a model down to a property. -/
inductive Leads (m : Model) : List String → Property → Prop where
  | top {p : Property} (hp : p ∈ m.properties) : Leads m [p.segment] p
  | inner {segments : List String} {p q : Property} (h : Leads m segments p)
      (hq : q ∈ p.shape.inner) : Leads m (segments ++ [q.segment]) q

/-- Segments lead to every property. -/
theorem exists_leads : ∀ p ∈ m.nodes, ∃ segments, m.Leads segments p :=
  forall_nodes (fun _ hp => ⟨_, .top hp⟩) fun _ _ ⟨_, h⟩ _ hq => ⟨_, h.inner hq⟩

namespace Leads

variable (h : m.Leads segments p)

include h

theorem mem_nodes : p ∈ m.nodes := by
  induction h with
  | top hp => exact mem_nodes_of_mem_properties hp
  | inner _ hq ih => exact mem_nodes_of_mem_inner ih hq

theorem ne_nil : segments ≠ [] := by
  cases h with
  | top => exact List.cons_ne_nil _ _
  | inner => exact List.append_ne_nil_of_right_ne_nil _ (List.cons_ne_nil _ _)

theorem way (hm : m.Spelled) : p.way = segments := by
  induction h with
  | top hp => exact hm.way_top _ hp
  | inner h hq ih => rw [hm.way_inner _ h.mem_nodes _ hq, ih]

theorem owner (hm : m.Placed) : p.owner = some m.name := by
  cases h with
  | top hp => exact (hm.top _ hp).owner
  | inner h hq => exact (hm.inner _ h.mem_nodes _ hq).owner

theorem isSegment (hm : m.Built) : ∀ s ∈ segments, Step.IsSegment s := by
  have hall : ∀ q ∈ m.nodes, Step.IsSegment q.segment := List.forall_mem_flatMap.2 hm.segmented
  induction h with
  | top hp => exact List.forall_mem_singleton.2 (hall _ (mem_nodes_of_mem_properties hp))
  | inner h hq ih =>
      exact List.forall_mem_append.2
        ⟨ih, List.forall_mem_singleton.2 (hall _ (mem_nodes_of_mem_inner h.mem_nodes hq))⟩

/-- The path of a property is made of the segments that lead to it, with dots between them. -/
theorem path (hm : m.Built) : p.path = ".".intercalate segments := by
  refine Text.cut_injective '.' ?_
  rw [Step.cut_intercalate h.ne_nil (h.isSegment hm)]
  exact h.way hm.spelled

/-- Descending from where segments lead is following further segments. -/
theorem descend? {others : List String} {q : Property} (hq : p.descend? others = some q) :
    m.Leads (segments ++ others) q := by
  induction others generalizing segments p with
  | nil =>
      rw [Property.descend?, Option.some.injEq] at hq
      rw [← hq, List.append_nil]
      exact h
  | cons segment others ih =>
      rw [Property.descend?, Option.bind_eq_some_iff] at hq
      obtain ⟨r, hr, hq⟩ := hq
      obtain ⟨hmem, rfl⟩ := Property.mem_inner_of_next? hr
      rw [← List.singleton_append, ← List.append_assoc]
      exact ih (h.inner hmem) hq

end Leads

/-! ## Looking for paths -/

/-- What is found under a path is what the segments of the path lead to. -/
theorem leads_of_property? {path : String} (h : m.property? path = some p) :
    m.Leads (Text.cut '.' path) p := by
  unfold property? at h
  split at h
  · cases h
  · next first segments hcut =>
      rw [Option.bind_eq_some_iff] at h
      obtain ⟨top, htop, hp⟩ := h
      have hfirst : top.segment = first := beq_iff_eq.1 (List.find?_some htop :)
      rw [hcut, ← hfirst]
      exact (Leads.top (List.mem_of_find?_eq_some htop)).descend? hp

/-- What is found under a path has just this path. -/
theorem path_of_property? (hm : m.Built) {path : String} (h : m.property? path = some p) :
    p.path = path :=
  Text.cut_injective '.' ((leads_of_property? h).way hm.spelled)

/-- Properties that lie below the same path and have the same segment are the same, if all paths
are distinct. -/
private theorem eq_of_lies (hdistinct : (m.nodes.map Property.path).Nodup) {parent : String}
    {q : Property} (hp : p ∈ m.nodes) (hq : q ∈ m.nodes) (hplies : p.Lies m.name parent)
    (hqlies : q.Lies m.name parent) (hsegment : p.segment = q.segment) : p = q :=
  List.inj_on_of_nodup_map hdistinct hp hq (by rw [hplies.path, hqlies.path, hsegment])

/-- Segments that lead to a property are found to lead there, if all paths are distinct and all
parts of objects have names. -/
theorem Leads.property? (h : m.Leads segments p) (hm : m.Placed)
    (hdistinct : (m.nodes.map Property.path).Nodup)
    (hnamed : ∀ q ∈ m.nodes, ∀ r ∈ q.children, r.isItem = false) :
    ∃ first rest, segments = first :: rest ∧
      ((m.properties.find? fun q => q.segment == first).bind fun q => q.descend? rest) =
        some p := by
  induction h with
  | @top p hp =>
      refine ⟨p.segment, [], rfl, ?_⟩
      have hfound : (m.properties.find? fun q => q.segment == p.segment).isSome :=
        List.find?_isSome.2 ⟨p, hp, beq_self_eq_true _⟩
      obtain ⟨q, hq⟩ := Option.isSome_iff_exists.1 hfound
      have hmem := List.mem_of_find?_eq_some hq
      have heq : q = p := eq_of_lies hdistinct (mem_nodes_of_mem_properties hmem)
        (mem_nodes_of_mem_properties hp) (hm.top q hmem) (hm.top p hp)
        (beq_iff_eq.1 (List.find?_some hq :))
      rw [hq, heq]
      rfl
  | @inner segments p q h hq ih =>
      obtain ⟨first, rest, rfl, hfound⟩ := ih
      refine ⟨first, rest ++ [q.segment], rfl, ?_⟩
      have hnext : p.next? q.segment = some q :=
        Property.next?_segment hq (hnamed p h.mem_nodes) fun r hr => eq_of_lies hdistinct
          (mem_nodes_of_mem_inner h.mem_nodes hr) (mem_nodes_of_mem_inner h.mem_nodes hq)
          (hm.inner p h.mem_nodes r hr) (hm.inner p h.mem_nodes q hq)
      simp only [Property.descend?_append, ← Option.bind_assoc, hfound, Option.bind_some,
        Property.descend?, hnext]

/-- Every property is found by its path, if all paths are distinct and all parts of objects have
names. -/
theorem property?_path_of_nodup (hm : m.Built) (hdistinct : (m.nodes.map Property.path).Nodup)
    (hnamed : ∀ q ∈ m.nodes, ∀ r ∈ q.children, r.isItem = false) :
    ∀ p ∈ m.nodes, m.property? p.path = some p := by
  intro p hp
  obtain ⟨segments, h⟩ := exists_leads p hp
  obtain ⟨first, rest, hsegments, hfound⟩ := h.property? hm.placed hdistinct hnamed
  have hway : Text.cut '.' p.path = first :: rest := (h.way hm.spelled).trans hsegments
  rw [Model.property?, hway]
  exact hfound

/-- Looking for paths undoes giving them. In a model that was described step by step every property
that a walk visits is one that segments lead to from the top; it has the name of the model, and as
its path the segments with dots between them. What is found under a path is a property of the model
with just this path. If all paths are distinct and all parts of objects have names, every property
is found by its path, and nothing is found under any other text. -/
theorem property?_inverts_paths (hm : m.Built) :
    (∀ p ∈ m.nodes, ∃ segments, m.Leads segments p) ∧
      (∀ segments p, m.Leads segments p →
        p ∈ m.nodes ∧ p.path = ".".intercalate segments ∧ p.owner = some m.name) ∧
      (∀ path p, m.property? path = some p → p ∈ m.nodes ∧ p.path = path) ∧
      ((m.nodes.map Property.path).Nodup →
        (∀ p ∈ m.nodes, ∀ q ∈ p.children, q.isItem = false) →
        (∀ p ∈ m.nodes, m.property? p.path = some p) ∧
          ∀ path, path ∉ m.nodes.map Property.path → m.property? path = none) := by
  refine ⟨exists_leads, fun segments p h => ⟨h.mem_nodes, h.path hm, h.owner hm.placed⟩,
    fun path p h => ⟨(leads_of_property? h).mem_nodes, path_of_property? hm h⟩,
    fun hdistinct hnamed => ⟨property?_path_of_nodup hm hdistinct hnamed, fun path hpath => ?_⟩⟩
  refine Option.eq_none_iff_forall_ne_some.2 fun p hp => hpath ?_
  exact List.mem_map.2 ⟨p, (leads_of_property? hp).mem_nodes, path_of_property? hm hp⟩

/-- The parts that look alike have distinct paths, and each of them is found: the one without a name
at the top, and what lies below the named template of an array. -/
theorem property?_inverts_paths_lookalikes :
    lookalikes.Built ∧ (lookalikes.nodes.map Property.path).Nodup ∧
      (∀ p ∈ lookalikes.nodes, ∀ q ∈ p.children, q.isItem = false) ∧
      lookalikes.nodes.map Property.path = ["0", "[]", "list", "list.each", "list.each.x"] ∧
      (∀ p ∈ lookalikes.nodes, lookalikes.property? p.path = some p) ∧
      (lookalikes.property? "list.[]").isNone = true := by
  have hdistinct : (lookalikes.nodes.map Property.path).Nodup := by decide +kernel
  have hall : lookalikes.nodes.all (fun p => p.children.all fun q => !q.isItem) = true := by
    decide +kernel
  have hnamed : ∀ p ∈ lookalikes.nodes, ∀ q ∈ p.children, q.isItem = false := fun p hp q hq => by
    have hp := List.all_eq_true.1 (List.all_eq_true.1 hall p hp) q hq
    rwa [Bool.not_eq_true'] at hp
  have hfound := (@property?_inverts_paths lookalikes built_lookalikes).2.2.2 hdistinct hnamed
  have hother : "list.[]" ∉ lookalikes.nodes.map Property.path := by decide +kernel
  exact ⟨built_lookalikes, hdistinct, hnamed, by decide +kernel, hfound.1,
    Option.isNone_iff_eq_none.2 (hfound.2 _ hother)⟩

end Model

end ReactiveForm
