import ReactiveForm.Proofs.Form.Routes
import ReactiveForm.Proofs.Session.ControlTree

/-!
# Paths over a session

The names of a model may repeat, and whatever is done in a session, a path names one control at most
(`addressed_of_run`). It leads to its control from the root, and from everywhere with a slash in
front. What can be found from a control that the root reaches has a path itself. Controls that an
object does not list, since a later part has the same name, have no path.

A text of an index is read as a number of the machine. So the numbers of the controls have to fit
into a word.
-/

namespace ReactiveForm

/-- The paths of a form name its controls. -/
structure Form.Addressed (f : Form) : Prop where
  /-- A path leads to the control that has it, from the root and from everywhere. -/
  found : ∀ {id : ControlId} {path : String}, f.path? id = some path →
    f.get? path = some id ∧ ∀ anchor, f.resolve anchor ("/" ++ path) = some id
  /-- No path belongs to two controls. -/
  distinct : ∀ {id other : ControlId} {path : String}, f.path? id = some path →
    f.path? other = some path → id = other
  /-- The controls with a path are those that the root reaches. -/
  reached : ∀ {id : ControlId}, f.Descends Form.root id ↔ ∃ path, f.path? id = some path
  /-- What is found from a control that the root reaches has a path that leads to it. -/
  named : ∀ {anchor id : ControlId} {path : String}, f.Descends Form.root anchor →
    f.resolve anchor path = some id → ∃ own, f.path? id = some own ∧ f.get? own = some id
  /-- A group with an empty piece leads nowhere, unless it is a step of its own. -/
  nowhere : ∀ {path group : String}, group ∈ Text.cut '/' path → group ∉ ["", ".", ".."] →
    "" ∈ Text.cut '.' group → ∀ anchor, f.resolve anchor path = none

theorem Form.Rooted.addressed {f : Form} (h : f.Rooted)
    (hsize : f.slots.size ≤ Text.maxWord + 1) : f.Addressed where
  found {id path} hpath := by
    have hget := h.get?_path? hsize hpath
    refine ⟨hget, fun anchor => ?_⟩
    rw [resolve, Navigator.resolve, Step.ofPath_slash]
    exact hget
  distinct := h.path?_inj
  reached := h.descends_iff_path?
  named {anchor id path} hanchor hresolve := by
    obtain ⟨own, hown⟩ := h.descends_iff_path?.1 (h.descends_follow hanchor hresolve)
    exact ⟨own, hown, h.get?_path? hsize hown⟩
  nowhere := h.resolve_eq_none

namespace Session

variable {s : Session} {m : Model}

/-! ## Forms over a session -/

theorem rooted_run (hsound : s.Sound) (h : s.form.Rooted) (ops : List Op) :
    (s.run ops).form.Rooted := lasting_run Form.lasting_rooted hsound h ops

/-- In every state of a session on a model that was described step by step, the paths name the
controls. Names may repeat. -/
theorem addressed_of_run {data : Json} {c : Config} {ops : List Op} (hm : m.Built)
    (hs : (start (.build m data c)).run ops = s)
    (hsize : s.form.slots.size ≤ Text.maxWord + 1) : s.form.Addressed := by
  have hrooted : s.form.Rooted :=
    hs ▸ rooted_run (sound_start m data c) (Form.rooted_build hm.wellNamed data c) ops
  exact hrooted.addressed hsize

/-! ## Two lists with one name

The second of two lists hides the first one. Then the second list loses its first item, and the one
after it takes its place.
-/

/-- A list without any tests. -/
def plainList : Property :=
  { Property.template with name := some "list", shape := .array .template }

/-- Two lists with one name. -/
def twinLists : Model := ((⟨"twins", [], none⟩ : Model).add plainList).add plainList

/-- Each list starts with two items. -/
def twinData : Json := .object [("list", .array [.natural 1, .natural 2])]

theorem built_twinLists : twinLists.Built := by
  have hempty : Model.ofProperties "twins" [] = .ok ⟨"twins", [], none⟩ :=
    if_neg (by decide +kernel)
  have hname : Property.named "list" = .ok { Property.template with name := some "list" } := rfl
  have hlist : plainList.Built := .withItem (.named hname) .template
  exact ((Model.Built.ofProperties (List.forall_mem_nil _) hempty).add hlist).add hlist

/-- The session in which this has happened. -/
def shiftedTwins : Session := (start (.build twinLists twinData .standard)).run [.remove 4 0]

/-- The remaining item of the second list is found by its path and by other texts of its index. The
first list and its items are there, but have no paths. -/
theorem addressed_shiftedTwins :
    shiftedTwins.form.Addressed ∧ shiftedTwins.form.controls = [0, 1, 2, 3, 4, 6] ∧
      shiftedTwins.form.path? 6 = some "list.0" ∧ shiftedTwins.form.get? "list.0" = some 6 ∧
      (∀ path ∈ ["list.+0", "./list/00", "list/../list.0"],
        shiftedTwins.form.get? path = some 6) ∧
      (∀ id ∈ [1, 2, 3], shiftedTwins.form.path? id = none) ∧
      ∀ anchor, shiftedTwins.form.resolve anchor "list..0" = none := by
  have haddressed : shiftedTwins.form.Addressed :=
    addressed_of_run built_twinLists (s := shiftedTwins) rfl (by decide +kernel)
  have hpath : shiftedTwins.form.path? 6 = some "list.0" := by decide +kernel
  have hgroup : "list..0" ∈ Text.cut '/' "list..0" := by decide +kernel
  exact ⟨haddressed, by decide +kernel, hpath, (haddressed.found hpath).1, by decide +kernel,
    by decide +kernel, haddressed.nowhere hgroup (by decide +kernel) (by decide +kernel)⟩

end Session

end ReactiveForm
