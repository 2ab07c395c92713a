import ReactiveForm.Proofs.Form.Places
import ReactiveForm.Proofs.Form.Rooted
import ReactiveForm.Proofs.Path
import Mathlib.Data.List.Perm.Subperm

/-!
# Routes to the controls

A route goes from the root down to a control, from a control to one that it lists. The place of a
control is read off on the way up and a path is followed on the way down. Both are the same route
(`Rooted.place?_eq_some`, `Rooted.follow_route`): what a control lists knows it as the parent, a
name or an index leads to just one child, and it is read back from its text.

Steps with the same texts lead to the same child, however large the numbers are. So no two controls
have the same path (`Rooted.path?_inj`).

No step leads out of what the root reaches, so what a path finds from there has a route, and with it
a path of its own (`Rooted.descends_follow`, `Rooted.descends_iff_path?`). It need not be the path
that was followed: `+1` and `01` lead to the item that `1` leads to.
-/

namespace ReactiveForm

/-! ## From a control to its children -/

namespace Children

variable {children : Children} {id : ControlId} {step : Segment}

/-- The step to a part of a group has its name. -/
theorem place?_named {parts : List (String × ControlId)}
    (h : (named parts).place? id = some step) : ∃ name, (name, id) ∈ parts ∧ step = .key name := by
  obtain ⟨part, hpart, rfl⟩ := Option.map_eq_some_iff.1 h
  have hself := List.find?_some hpart
  exact ⟨part.1, eq_of_beq hself ▸ List.mem_of_find?_eq_some hpart, rfl⟩

/-- The step to an item of an array has its index. -/
theorem place?_indexed {items : List ControlId} (h : (indexed items).place? id = some step) :
    ∃ i, items[i]? = some id ∧ step = .index i := by
  obtain ⟨i, hi, rfl⟩ := Option.map_eq_some_iff.1 h
  obtain ⟨hlt, hself, -⟩ := List.findIdx?_eq_some_iff_getElem.1 hi
  exact ⟨i, by rw [List.getElem?_eq_getElem hlt, eq_of_beq hself], rfl⟩

theorem mem_ids_of_place? (h : children.place? id = some step) : id ∈ children.ids := by
  cases children with
  | none => cases h
  | named parts =>
      obtain ⟨name, hpart, -⟩ := place?_named h
      exact List.mem_map_of_mem hpart
  | indexed items =>
      obtain ⟨i, hi, -⟩ := place?_indexed h
      exact List.mem_of_getElem? hi

theorem mem_ids_of_find? {segment : String} (h : children.find? segment = some id) :
    id ∈ children.ids := by
  cases children with
  | none => cases h
  | named parts => exact List.mem_map_of_mem (Keyed.mem_of_lookup h)
  | indexed items =>
      obtain ⟨i, -, hi⟩ := Option.bind_eq_some_iff.1 h
      exact List.mem_of_getElem? hi

/-- The text of the step to a child leads to it, if the indices fit into a word. -/
theorem Marked.find?_text (h : children.Marked) (hstep : children.place? id = some step)
    (hlength : ∀ items, children = .indexed items → items.length ≤ Text.maxWord + 1) :
    children.find? step.text = some id := by
  cases h with
  | none => cases hstep
  | named hnodup =>
      obtain ⟨name, hpart, rfl⟩ := place?_named hstep
      exact Keyed.lookup_of_mem hnodup hpart
  | @indexed items =>
      obtain ⟨i, hi, rfl⟩ := place?_indexed hstep
      have hlt := (List.getElem?_eq_some_iff.1 hi).choose
      have hword : i ≤ Text.maxWord :=
        Nat.le_of_lt_succ (Nat.lt_of_lt_of_le hlt (hlength items rfl))
      rw [find?, Segment.text, Text.readWord?_toString hword, Option.bind_some, hi]

/-- The text of the step to a child is one piece of a path. -/
theorem Marked.isSegment_text (h : children.Marked) (hstep : children.place? id = some step) :
    Step.IsSegment step.text := by
  cases h with
  | none => cases hstep
  | named _ hfaultless =>
      obtain ⟨name, hpart, rfl⟩ := place?_named hstep
      exact Step.isSegment_of_nameFault? (hfaultless name (List.mem_map_of_mem hpart))
  | indexed =>
      obtain ⟨i, -, rfl⟩ := place?_indexed hstep
      exact Step.isSegment_toString i

theorem text_index_inj {i j : Nat} (h : Segment.text (.index i) = Segment.text (.index j)) :
    i = j := by
  have hdigits : Nat.toDigits 10 i = Nat.toDigits 10 j := by
    have hlist := congrArg String.toList h
    rwa [Segment.text, Segment.text, Nat.toString_eq_ofList_toDigits,
      Nat.toString_eq_ofList_toDigits, String.toList_ofList, String.toList_ofList] at hlist
  rw [← Nat.ofDigitChars_ten_toDigits (n := i), hdigits, Nat.ofDigitChars_ten_toDigits]

/-- Steps with one text lead to one child. -/
theorem Marked.eq_of_text (h : children.Marked) {other : ControlId} {step' : Segment}
    (hstep : children.place? id = some step) (hother : children.place? other = some step')
    (htext : step.text = step'.text) : id = other := by
  cases h with
  | none => cases hstep
  | named hnodup =>
      obtain ⟨name, hpart, rfl⟩ := place?_named hstep
      obtain ⟨name', hpart', rfl⟩ := place?_named hother
      obtain rfl : name = name' := htext
      have hlookup := Keyed.lookup_of_mem hnodup hpart
      exact Option.some.inj (hlookup.symm.trans (Keyed.lookup_of_mem hnodup hpart'))
  | indexed =>
      obtain ⟨i, hi, rfl⟩ := place?_indexed hstep
      obtain ⟨j, hj, rfl⟩ := place?_indexed hother
      cases text_index_inj htext
      exact Option.some.inj (hi.symm.trans hj)

/-- No child is found without a name. -/
theorem Marked.find?_empty (h : children.Marked) : children.find? "" = Option.none := by
  cases h with
  | none => rfl
  | @named parts hnodup hfaultless =>
      refine Option.eq_none_iff_forall_ne_some.2 fun id hid => ?_
      have hfault := hfaultless _ (List.mem_map_of_mem (Keyed.mem_of_lookup hid))
      exact (Step.isSegment_of_nameFault? hfault).nonempty rfl
  | indexed => rfl

end Children

namespace Form

/-! ## Routes -/

/-- The steps from the root down to a control, each of them to a control that is listed. -/
inductive Route (f : Form) : List Segment → Nat → Prop where
  | root (hlive : f.contains Form.root = true) : Route f [] Form.root
  | child {place : List Segment} {id x : Nat} {c : Control} {step : Segment} (h : Route f place id)
      (hc : f.control? id = some c) (hstep : c.children.place? x = some step) :
      Route f (place ++ [step]) x

variable {f : Form} {id start : Nat} {place : List Segment}

/-- Every control that the root reaches has a route. -/
theorem exists_route (hid : f.Descends Form.root id) : ∃ place, f.Route place id := by
  induction hid with
  | self hlive => exact ⟨[], .root hlive⟩
  | child _ hlists ih =>
      obtain ⟨place, hroute⟩ := ih
      obtain ⟨c, hc, hmem⟩ := hlists
      obtain ⟨step, hstep⟩ := Children.exists_place? hmem
      exact ⟨place ++ [step], .child hroute hc hstep⟩

theorem descends_route (hroute : f.Route place id) : f.Descends Form.root id := by
  induction hroute with
  | root hlive => exact .self hlive
  | child _ hc hstep ih => exact .child ih ⟨_, hc, Children.mem_ids_of_place? hstep⟩

theorem follow_map_child_append (f : Form) (start : Nat) (place : List Segment) (step : Segment) :
    f.navigator.follow start ((place ++ [step]).map fun s => Step.child s.text) =
      (f.navigator.follow start (place.map fun s => Step.child s.text)).bind fun here =>
        f.child? here step.text := by
  rw [List.map_append, Navigator.follow_append]
  refine congrArg (Option.bind _) (funext fun here => ?_)
  rw [List.map_singleton, Navigator.follow, Navigator.step]
  cases hchild : f.navigator.child here step.text with
  | none => exact hchild.symm
  | some next => exact hchild.symm

namespace Rooted

theorem contains_route (h : f.Rooted) (hroute : f.Route place id) : f.contains id = true := by
  cases hroute with
  | root hlive => exact hlive
  | child _ hc hstep =>
      exact contains_of_parent? (h.child hc _ (Children.mem_ids_of_place? hstep))

/-- Walking up along a route gives its steps. -/
theorem placeWithin_route (h : f.Rooted) (hroute : f.Route place id) {n : Nat} (hn : id < n) :
    f.placeWithin n id = some place := by
  induction hroute generalizing n with
  | root hlive =>
      obtain ⟨n, rfl⟩ : ∃ k, n = k + 1 := ⟨n - 1, by omega⟩
      rw [placeWithin_succ, if_pos hlive, h.root.2]
  | @child place id x c step _ hc hstep ih =>
      obtain ⟨n, rfl⟩ : ∃ k, n = k + 1 := ⟨n - 1, by omega⟩
      have hparent := h.child hc x (Children.mem_ids_of_place? hstep)
      have habove := ih (Nat.lt_of_lt_of_le (h.before _ _ hparent) (Nat.le_of_lt_succ hn))
      rw [placeWithin_succ, if_pos (contains_of_parent? hparent), hparent]
      simp only [hc, Option.map_some, Option.bind_some, hstep, habove]

/-- A walk up that gets to the end is along a route. -/
theorem route_of_placeWithin (h : f.Rooted) {n : Nat} (hplace : f.placeWithin n id = some place) :
    f.Route place id := by
  induction n generalizing id place with
  | zero => cases hplace
  | succ n ih =>
      rw [placeWithin_succ] at hplace
      split at hplace
      · rename_i hlive
        cases hparent : f.parent? id with
        | none =>
            rw [hparent] at hplace
            cases hplace
            rw [h.eq_root hlive hparent]
            exact .root h.root.1
        | some parent =>
            rw [hparent] at hplace
            obtain ⟨step, hstep, hplace⟩ := Option.bind_eq_some_iff.1 hplace
            obtain ⟨children, hchildren, hstep⟩ := Option.bind_eq_some_iff.1 hstep
            obtain ⟨c, hc, rfl⟩ := Option.map_eq_some_iff.1 hchildren
            obtain ⟨above, habove, rfl⟩ := Option.map_eq_some_iff.1 hplace
            exact .child (ih habove) hc hstep
      · cases hplace

/-- The place of a control is the route to it. -/
theorem place?_eq_some (h : f.Rooted) : f.place? id = some place ↔ f.Route place id :=
  ⟨h.route_of_placeWithin, fun hroute =>
    h.placeWithin_route hroute (lt_size_of_contains (h.contains_route hroute))⟩

/-! ## Following a route -/

/-- An array has no more items than the form has slots. -/
theorem length_items_le {items : List Nat} (h : f.Rooted) (hitems : f.items? id = some items) :
    items.length ≤ f.slots.size := by
  obtain ⟨c, hc, hchildren⟩ := items?_eq_some.1 hitems
  have hbelow : items ⊆ List.range f.slots.size := fun x hx =>
    List.mem_range.2 (h.lt_size_of_mem hc (by rw [hchildren]; exact hx))
  exact Nat.le_trans ((h.nodup_items hitems).subperm hbelow).length_le
    (Nat.le_of_eq List.length_range)

/-- The step to a child leads to it, if the numbers of the controls fit into a word. -/
theorem child?_text (h : f.Rooted) (hsize : f.slots.size ≤ Text.maxWord + 1) {c : Control}
    {x : Nat} {step : Segment} (hc : f.control? id = some c)
    (hstep : c.children.place? x = some step) : f.child? id step.text = some x := by
  rw [child?, hc, Option.bind_some]
  refine (h.marked hc).find?_text hstep fun items hitems => ?_
  exact Nat.le_trans (h.length_items_le (items?_eq_some.2 ⟨c, hc, hitems⟩)) hsize

/-- Following the steps of a route leads to its end. -/
theorem follow_route (h : f.Rooted) (hsize : f.slots.size ≤ Text.maxWord + 1)
    (hroute : f.Route place id) :
    f.navigator.follow Form.root (place.map fun s => Step.child s.text) = some id := by
  induction hroute with
  | root => rfl
  | child _ hc hstep ih =>
      rw [follow_map_child_append, ih, Option.bind_some]
      exact h.child?_text hsize hc hstep

theorem isSegment_route (h : f.Rooted) (hroute : f.Route place id) :
    ∀ s ∈ place, Step.IsSegment s.text := by
  induction hroute with
  | root => exact fun _ hs => nomatch hs
  | child _ hc hstep ih =>
      intro s hs
      rcases List.mem_append.1 hs with hs | hs
      · exact ih s hs
      · rw [List.mem_singleton.1 hs]
        exact (h.marked hc).isSegment_text hstep

/-! ## Paths of controls -/

/-- The path of a control leads to it from the root. -/
theorem get?_path? (h : f.Rooted) (hsize : f.slots.size ≤ Text.maxWord + 1) {path : String}
    (hpath : f.path? id = some path) : f.get? path = some id := by
  rw [path?_eq] at hpath
  obtain ⟨place, hplace, rfl⟩ := Option.map_eq_some_iff.1 hpath
  have hroute := h.place?_eq_some.1 hplace
  rw [get?, resolve, Navigator.resolve, Segment.path]
  by_cases hnil : place = []
  · -- the empty path is the way to the root
    subst hnil
    exact h.follow_route hsize hroute
  · rw [Step.ofPath_intercalate (by simpa using hnil), List.map_map]
    · exact h.follow_route hsize hroute
    · intro text htext
      obtain ⟨s, hs, rfl⟩ := List.mem_map.1 htext
      exact h.isSegment_route hroute s hs

/-- Routes with the same texts lead to one control. -/
theorem eq_of_route (h : f.Rooted) {other : Nat} {place' : List Segment} (hroute : f.Route place id)
    (hroute' : f.Route place' other)
    (htexts : place.map Segment.text = place'.map Segment.text) : id = other := by
  induction hroute generalizing place' other with
  | root =>
      cases hroute' with
      | root => rfl
      | child => simp at htexts
  | child _ hc hstep ih =>
      cases hroute' with
      | root => simp at htexts
      | child habove hc' hstep' =>
          rw [List.map_append, List.map_append] at htexts
          obtain ⟨hsame, hlast⟩ := List.append_inj' htexts rfl
          obtain rfl := ih habove hsame
          cases hc.symm.trans hc'
          exact (h.marked hc).eq_of_text hstep hstep' (List.singleton_inj.1 hlast)

/-- A path is cut into the texts of the steps of its route. Only the root has none. -/
theorem cut_path (h : f.Rooted) (hroute : f.Route place id) (hne : place ≠ []) :
    Text.cut '.' (Segment.path place) = place.map Segment.text := by
  refine Step.cut_intercalate (by simpa using hne) fun text htext => ?_
  obtain ⟨s, hs, rfl⟩ := List.mem_map.1 htext
  exact h.isSegment_route hroute s hs

theorem path_ne_empty (h : f.Rooted) (hroute : f.Route place id) (hne : place ≠ []) :
    Segment.path place ≠ "" := by
  intro hempty
  have hcut := h.cut_path hroute hne
  rw [hempty] at hcut
  cases place with
  | nil => exact hne rfl
  | cons s place =>
      have htext : s.text = "" := (List.cons.inj hcut).1.symm
      refine (h.isSegment_route hroute s List.mem_cons_self).nonempty ?_
      rw [htext]
      rfl

/-- No two controls have the same path. -/
theorem path?_inj (h : f.Rooted) {other : Nat} {path : String} (hpath : f.path? id = some path)
    (hother : f.path? other = some path) : id = other := by
  rw [path?_eq] at hpath hother
  obtain ⟨place, hplace, rfl⟩ := Option.map_eq_some_iff.1 hpath
  obtain ⟨place', hplace', hsame⟩ := Option.map_eq_some_iff.1 hother
  have hroute := h.place?_eq_some.1 hplace
  have hroute' := h.place?_eq_some.1 hplace'
  refine h.eq_of_route hroute hroute' ?_
  by_cases hnil : place = []
  · by_cases hnil' : place' = []
    · rw [hnil, hnil']
    · subst hnil
      exact absurd hsame (h.path_ne_empty hroute' hnil')
  · by_cases hnil' : place' = []
    · subst hnil'
      exact absurd hsame.symm (h.path_ne_empty hroute hnil)
    · rw [← h.cut_path hroute hnil, ← h.cut_path hroute' hnil', hsame]

/-- The path of the root is empty. -/
theorem path?_root (h : f.Rooted) : f.path? Form.root = some "" := by
  rw [path?_eq, h.place?_eq_some.2 (.root h.root.1)]
  rfl

/-! ## What the root reaches -/

/-- The controls with a path are those that the root reaches. -/
theorem descends_iff_path? (h : f.Rooted) :
    f.Descends Form.root id ↔ ∃ path, f.path? id = some path := by
  simp only [path?_eq, Option.map_eq_some_iff, h.place?_eq_some]
  refine ⟨fun hid => ?_, fun ⟨_, place, hroute, _⟩ => descends_route hroute⟩
  obtain ⟨place, hroute⟩ := exists_route hid
  exact ⟨_, place, hroute, rfl⟩

/-- No step leads out of what the root reaches. -/
theorem descends_step (h : f.Rooted) {step : Step} (hstart : f.Descends Form.root start)
    (hstep : f.navigator.step start step = some id) : f.Descends Form.root id := by
  cases step with
  | root =>
      cases hstep
      exact .self h.root.1
  | parent =>
      have hup : f.parent? start = some id := hstep
      cases hstart with
      | self => cases h.root.2.symm.trans hup
      | child habove hlists =>
          obtain ⟨c, hc, hmem⟩ := hlists
          cases (h.child hc start hmem).symm.trans hup
          exact habove
  | current =>
      cases hstep
      exact hstart
  | child name =>
      obtain ⟨c, hc, hfind⟩ := Option.bind_eq_some_iff.1 hstep
      exact .child hstart ⟨c, hc, Children.mem_ids_of_find? hfind⟩

theorem descends_follow (h : f.Rooted) {steps : List Step} (hstart : f.Descends Form.root start)
    (hfollow : f.navigator.follow start steps = some id) : f.Descends Form.root id := by
  induction steps generalizing start with
  | nil =>
      cases hfollow
      exact hstart
  | cons step steps ih =>
      obtain ⟨next, hstep, hrest⟩ := Option.bind_eq_some_iff.1 hfollow
      exact ih (h.descends_step hstart hstep) hrest

/-! ## Groups with an empty piece -/

/-- A path with a group that has an empty piece leads nowhere, unless the group is a step of its
own. -/
theorem resolve_eq_none (h : f.Rooted) {path group : String} (hgroup : group ∈ Text.cut '/' path)
    (hother : group ∉ ["", ".", ".."]) (hempty : "" ∈ Text.cut '.' group) (anchor : ControlId) :
    f.resolve anchor path = none := by
  refine Navigator.follow_eq_none (Step.child_empty_mem_ofPath hgroup hother hempty)
    (fun here => ?_) anchor
  change f.child? here "" = none
  refine Option.eq_none_iff_forall_ne_some.2 fun id hid => ?_
  obtain ⟨c, hc, hfind⟩ := Option.bind_eq_some_iff.1 hid
  cases (h.marked hc).find?_empty.symm.trans hfind

end Rooted

end Form

end ReactiveForm
