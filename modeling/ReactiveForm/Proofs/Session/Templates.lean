import ReactiveForm.Proofs.Form.Instances
import ReactiveForm.Proofs.Session.Paths

/-!
# Properties and controls over a session

A model is searched for the property of a path without any control, and a form is gone through
without any property. In a regular model the search finds what the path fits, and nothing else does.
Whatever is done in a session, what the form has at a path is an instance of what the model has
there, and every control has a path that its property fits (`instantiates_of_run`).

A control may be found by a path that is not its own, as `+1` and `01` are read as `1`. Such a path
fits the property as well. Nothing has to be at a path that fits a property: an array can have
fewer items.
-/

namespace ReactiveForm

/-- What the search for the property of a path finds is the only property that the path fits. -/
def Model.Searchable (m : Model) : Prop :=
  ∀ path, m.nodes.filter (fun p => p.matchesPath path) = (m.propertyFor? path).toList

/-- The controls of a form are instances of the properties that their paths fit. -/
structure Form.Instantiates (f : Form) (m : Model) : Prop where
  /-- What is found at a path is an instance of the property of the path. -/
  found : ∀ {path : String} {id : ControlId}, '/' ∉ path.toList → f.get? path = some id →
    m.propertyFor? path = f.property? id
  /-- The root is an instance of no property. -/
  root : f.property? Form.root = none
  /-- Every control has a path that its property fits, if the indices fit into a word. -/
  path : ∀ {id : ControlId}, f.contains id = true → ∃ path, f.path? id = some path ∧
    (f.slots.size ≤ Text.maxWord + 1 →
      ∀ p, f.property? id = some p → p.matchesPath path = true)

theorem Form.ControlTree.instantiates {f : Form} {m : Model} (h : f.ControlTree m)
    (ho : m.Orderly) (hrooted : f.Rooted) : f.Instantiates m where
  found := h.propertyFor?_of_get? ho
  root := h.property?_root
  path {id} hid := by
    obtain ⟨place, hplace⟩ := h.exists_place? hid
    have hpath : f.path? id = some (Segment.path place) := by
      rw [Form.path?_eq, hplace, Option.map_some]
    exact ⟨_, hpath, fun hsize p hp => h.matchesPath_path? ho hrooted hsize hpath hp⟩

namespace Session

/-- In a regular model the search for the property of a path finds what the path fits, and in every
state of a session on it the controls are instances of what their paths fit. -/
theorem instantiates_of_run {m : Model} (hm : m.Built) (hregular : m.Regular) :
    m.Searchable ∧ ∀ data c ops, ((start (.build m data c)).run ops).form.Instantiates m := by
  have ho := hm.orderly hregular
  refine ⟨ho.filter_matchesPath, fun data c ops => ?_⟩
  have hsound := sound_start m data c
  have htree := controlTree_run hsound (Form.controlTree_build hregular.distinct)
    hregular.distinct ops
  have hrooted := rooted_run hsound (Form.rooted_build hm.wellNamed data c) ops
  exact htree.instantiates ho hrooted

/-! ## Names and indices of digits

A part of an object may have a number for a name. Nothing but the name leads to it, whereas an item
is found by every text of its index.
-/

/-- Rows of cells, which have a part with a number for a name. -/
def mazeRows : Property :=
  let cell := { Property.template with shape := .object [plain "07" .value] }
  plain "rows" (.array { Property.template with shape := .array cell })

/-- The rows, and a value with a number for a name beside them. -/
def mazeModel : Model := ((⟨"maze", [], none⟩ : Model).add (plain "0" .value)).add mazeRows

/-- An empty row, and one with two cells. -/
def mazeData : Json :=
  .object [("0", .natural 1), ("rows", .array [.array [],
    .array [.object [("07", .natural 2)], .object [("07", .natural 3)]]])]

theorem built_mazeModel : mazeModel.Built := by
  have hempty : Model.ofProperties "maze" [] = .ok ⟨"maze", [], none⟩ :=
    if_neg (by decide +kernel)
  have hvalue : Property.named "0" = .ok (plain "0" .value) := rfl
  have hpart : Property.named "07" = .ok (plain "07" .value) := rfl
  have hname : Property.named "rows" = .ok (plain "rows" .value) := rfl
  have hcell := Property.Built.template.withChildren (List.forall_mem_singleton.2 (.named hpart))
  have hrows : mazeRows.Built := .withItem (.named hname) (.withItem .template hcell)
  exact ((Model.Built.ofProperties (List.forall_mem_nil _) hempty).add (.named hvalue)).add hrows

theorem regular_mazeModel : mazeModel.Regular where
  distinct := by
    have hcell : (Shape.object [(plain "07" .value).place "maze" "rows.[].[]"]).DistinctNames :=
      .object (by decide +kernel) (List.forall_mem_singleton.2 .value)
    exact .object (by decide +kernel)
      (List.forall_mem_cons.2 ⟨.value, List.forall_mem_singleton.2 (.array (.array hcell))⟩)
  top := by decide +kernel
  children := by decide +kernel
  items := by decide +kernel

/-- The session in which the first cell of the second row was taken out. -/
def mazeSession : Session := (start (.build mazeModel mazeData .standard)).run [.remove 4 0]

/-- The part of the remaining cell is found by other texts of the indices, but not by another text
of its name. -/
theorem instantiates_mazeSession :
    mazeModel.Searchable ∧ mazeSession.form.Instantiates mazeModel ∧
      mazeSession.form.path? 8 = some "rows.1.0.07" ∧
      (mazeSession.form.property? 8).map Property.path = some "rows.[].[].07" ∧
      (∀ path ∈ ["rows.1.0.07", "rows.+1.00.07"], mazeSession.form.get? path = some 8 ∧
        mazeModel.propertyFor? path = mazeSession.form.property? 8) ∧
      (∀ path ∈ ["rows.1.0.7", "+0", ""], (mazeModel.propertyFor? path).isNone = true) := by
  obtain ⟨hsearchable, hinstantiates⟩ := instantiates_of_run built_mazeModel regular_mazeModel
  have hform : mazeSession.form.Instantiates mazeModel := hinstantiates mazeData .standard _
  have hget : ∀ path ∈ ["rows.1.0.07", "rows.+1.00.07"],
      '/' ∉ path.toList ∧ mazeSession.form.get? path = some 8 := by decide +kernel
  exact ⟨hsearchable, hform, by decide +kernel, by decide +kernel,
    fun path hpath => ⟨(hget path hpath).2, hform.found (hget path hpath).1 (hget path hpath).2⟩,
    by decide +kernel⟩

end Session

end ReactiveForm
