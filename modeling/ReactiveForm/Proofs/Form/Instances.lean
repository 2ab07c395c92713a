import ReactiveForm.Proofs.Form.Routes
import ReactiveForm.Proofs.Model.Templates

/-!
# Controls as instances of properties

Going down from the root of a form, the segments that lead to a control fit the path of its
property, index by index and name by name (`Form.Spells`). A walk in the form knows nothing of
properties, and the search for the property of a path knows nothing of controls. In the tree of a
model that is in order they agree: what is found at a path without steps up or back is an instance
of the property that the path fits (`ControlTree.propertyFor?_of_get?`). The path of a control
itself is such a path (`ControlTree.matchesPath_path?`).
-/

namespace ReactiveForm

theorem Text.cut_ne_nil (sep : Char) (s : String) : Text.cut sep s ≠ [] := by
  simpa [Text.cut] using Text.pieces_ne_nil sep s.toList

namespace Form

variable {f : Form} {m : Model} {id x : Nat} {segment : String} {segments : List String}

/-- A child found by a segment is an instance of a property one step below that the segment fits. -/
theorem Fits.exists_inner {shape : Shape} {children : Children} (h : f.Fits shape children)
    (hlabelled : shape.Labelled) (hfind : children.find? segment = some id) :
    ∃ p ∈ shape.inner, f.property? id = some p ∧
      Property.segmentFits p.segment segment = true := by
  cases h with
  | value => cases hfind
  | object _ _ hparts =>
      obtain ⟨p, hp, hname, hproperty⟩ := hparts _ _ (Keyed.mem_of_lookup hfind)
      have hsegment : p.segment = segment := by rw [Property.segment, hname]; rfl
      exact ⟨p, hp, hproperty, hsegment ▸ Property.segmentFits_self _⟩
  | @array item _ hitems =>
      obtain ⟨n, hn, hget⟩ := Option.bind_eq_some_iff.1 hfind
      refine ⟨item, List.mem_singleton_self _, hitems id (List.mem_of_getElem? hget), ?_⟩
      cases hlabelled with
      | array hitem => simp [Property.segmentFits, Property.segment_of_isItem hitem, hn]

/-- The segments on a way from the root to a control: none if it is the root, and otherwise segments
that fit the path of its property. -/
inductive Spells (m : Model) (f : Form) : Nat → List String → Prop where
  | root : Spells m f Form.root []
  | part {id : Nat} {p : Property} {segments : List String} (hp : f.property? id = some p)
      (hmem : p ∈ m.nodes) (hfits : Property.segmentsFit p.way segments = true) :
      Spells m f id segments

theorem Spells.exists_property (h : Spells m f id segments) (hne : segments ≠ []) :
    ∃ p, f.property? id = some p ∧ p ∈ m.nodes ∧ Property.segmentsFit p.way segments = true := by
  cases h with
  | root => exact absurd rfl hne
  | part hp hmem hfits => exact ⟨_, hp, hmem, hfits⟩

namespace ControlTree

variable (h : f.ControlTree m)

include h

theorem property?_root : f.property? Form.root = none := by
  obtain ⟨root, hroot, -, -, hnone⟩ := h.root
  rw [property?, hroot, Option.bind_some, hnone]

variable (ho : m.Orderly)

include ho

/-- One more segment leads to a child. -/
theorem spells_child (hid : Spells m f id segments) (hchild : f.child? id segment = some x) :
    Spells m f x (segments ++ [segment]) := by
  obtain ⟨c, hc, hfind⟩ := Option.bind_eq_some_iff.1 hchild
  have hproperty : f.property? id = c.property := by rw [property?, hc]; rfl
  -- what is one step below the control has one segment more than the control
  obtain ⟨way, hlabelled, hinner, hfits⟩ : ∃ way, (c.shape m).Labelled ∧
      (∀ q ∈ (c.shape m).inner, q ∈ m.nodes ∧ q.way = way ++ [q.segment]) ∧
        Property.segmentsFit way segments = true := by
    cases hid with
    | root =>
        rw [Control.shape, ← hproperty, h.property?_root]
        exact ⟨[], ho.top, fun q hq => ⟨Model.mem_nodes_of_mem_properties hq, ho.way_top q hq⟩, rfl⟩
    | @part _ p _ hp hmem hfits =>
        rw [Control.shape, ← hproperty, hp]
        exact ⟨p.way, ho.inner p hmem, fun q hq =>
          ⟨Model.mem_nodes_of_mem_inner hmem hq, ho.way_inner p hmem q hq⟩, hfits⟩
  obtain ⟨q, hq, hx, hsegment⟩ := (h.fits hc).exists_inner hlabelled hfind
  obtain ⟨hmem, hway⟩ := hinner q hq
  refine .part hx hmem ?_
  rw [hway, Property.segmentsFit_append (Property.length_eq_of_segmentsFit hfits), hfits]
  simpa [Property.segmentsFit] using hsegment

theorem spells_follow {more : List String} (hid : Spells m f id segments)
    (hfollow : f.navigator.follow id (more.map Step.child) = some x) :
    Spells m f x (segments ++ more) := by
  induction more generalizing id segments with
  | nil =>
      cases hfollow
      rwa [List.append_nil]
  | cons segment more ih =>
      obtain ⟨next, hnext, hfollow⟩ := Option.bind_eq_some_iff.1 hfollow
      have hspells := ih (h.spells_child ho hid hnext) hfollow
      rwa [List.append_assoc, List.singleton_append] at hspells

/-- What is found at a path is an instance of the property that the path fits. -/
theorem propertyFor?_of_get? {path : String} (hslash : '/' ∉ path.toList)
    (hget : f.get? path = some id) : m.propertyFor? path = f.property? id := by
  have hpath : Step.ofPath path = Step.ofGroup path.toList := by
    rw [Step.ofPath, Text.pieces_eq_singleton _ hslash, List.flatMap_singleton]
  rw [get?, resolve, Navigator.resolve, hpath] at hget
  by_cases hempty : path.toList = [] ∨ path.toList = ['.']
  · -- both stay at the root, and have an empty segment
    have hroot : id = Form.root := by
      rcases hempty with hempty | hempty <;>
        (rw [hempty] at hget; exact (Option.some.inj hget).symm)
    rw [hroot, h.property?_root]
    refine ho.propertyFor?_eq_none ?_
    rcases hempty with hempty | hempty <;> (rw [Text.cut, hempty]; decide)
  · rw [not_or] at hempty
    have hparent : path.toList ≠ ['.', '.'] := fun heq => by
      rw [heq] at hget
      have hup : (f.parent? Form.root).bind (fun next => f.navigator.follow next []) = some id :=
        hget
      rw [h.parent?_root] at hup
      cases hup
    rw [Step.ofGroup_eq hempty.1 hempty.2 hparent, ← Function.comp_def Step.child, ← List.map_map]
      at hget
    obtain ⟨p, hp, hmem, hfits⟩ :=
      (h.spells_follow ho .root hget).exists_property (Text.cut_ne_nil '.' path)
    rw [hp]
    exact ho.propertyFor?_eq_some_iff.2 ⟨hmem, hfits⟩

/-- The path of a control fits that of its property. -/
theorem matchesPath_path? (hrooted : f.Rooted) (hsize : f.slots.size ≤ Text.maxWord + 1)
    {path : String} (hpath : f.path? id = some path) {p : Property} (hp : f.property? id = some p) :
    p.matchesPath path = true := by
  rw [path?_eq] at hpath
  obtain ⟨place, hplace, rfl⟩ := Option.map_eq_some_iff.1 hpath
  have hroute := hrooted.place?_eq_some.1 hplace
  have hfollow := hrooted.follow_route hsize hroute
  rw [← Function.comp_def Step.child Segment.text, ← List.map_map] at hfollow
  by_cases hnil : place.map Segment.text = []
  · rw [hnil] at hfollow
    cases hfollow
    rw [h.property?_root] at hp
    cases hp
  · obtain ⟨q, hq, -, hfits⟩ := (h.spells_follow ho .root hfollow).exists_property hnil
    cases hp.symm.trans hq
    have hcut := Step.cut_intercalate hnil fun text htext => by
      obtain ⟨s, hs, rfl⟩ := List.mem_map.1 htext
      exact hrooted.isSegment_route hroute s hs
    rw [Property.matchesPath, ← Property.way, Segment.path, hcut]
    exact hfits

end ControlTree

end Form

end ReactiveForm
