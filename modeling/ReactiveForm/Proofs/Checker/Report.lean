import Mathlib.Data.List.Forall2
import Mathlib.Data.List.Nodup
import ReactiveForm.Proofs.Checker.Person
import ReactiveForm.Proofs.Config.Bounds
import ReactiveForm.Proofs.Form.Document
import ReactiveForm.Proofs.Form.Replacement
import ReactiveForm.Proofs.Form.Routes

/-!
# The report of a run

A run whose edits all lead to fields makes these edits one after the other, before any pipeline runs
(`foldlM_applyEdit`), and then waits longer than the longest debounce. So it reports on a form that
is up to date with the document and the edits (`exists_settled`).

Every control has a path, the paths are different, and only the path of the root is empty. So the
report has one entry for each control but the root (`reports_entries`). It holds no numbers and is
not deep, so a reader of what was printed finds these entries (`parse_report`), and in each of them
what the control shows (`ReportedAs`).
-/

namespace ReactiveForm

namespace Form

variable {f g : Form} {m : Model}

/-- Fields that get new values, one after the other, replace the values at their places. -/
theorem ControlTree.rootValue_setAll {values : List (ControlId × Json)} (h : f.ControlTree m)
    (hset : f.setAll values = .ok g) :
    g.rootValue =
      values.foldl (fun j v => j.replace ((f.place? v.1).getD []) v.2) f.rootValue := by
  induction values generalizing f with
  | nil =>
      cases hset
      rfl
  | cons first values ih =>
      obtain ⟨f', hfirst, hrest⟩ := setAll_cons_eq_ok hset
      have htree := sameTree_setValue hfirst
      obtain ⟨place, hplace⟩ := h.exists_place? (contains_of_setValue hfirst)
      rw [ih (h.sameTree htree.symm) hrest, List.foldl_cons, h.rootValue_setValue hfirst hplace,
        hplace, Option.getD_some]
      simp only [htree.place?]

/-- Every control but the root is described by a property. -/
theorem ControlTree.property?_ne_none (h : f.ControlTree m) (hm : m.DistinctNames) {id : ControlId}
    (hid : f.contains id = true) (hne : id ≠ Form.root) : f.property? id ≠ none := by
  obtain ⟨parent, c, -, -, hc, hcount⟩ := h.listed hid hne
  have hmem : id ∈ c.children.ids := List.count_pos_iff.1 (by omega)
  obtain ⟨p, hp, -⟩ := (h.fits hc).exists_property (h.distinctNames hm hc) hmem
  exact Option.ne_none_iff_exists'.2 ⟨p, hp⟩

theorem SameTree.kind? (t : SameTree f g) (id : ControlId) : f.kind? id = g.kind? id := by
  have hkind := congrArg (Option.map Children.kind) (t.shape.children id)
  rw [Option.map_map, Option.map_map] at hkind
  exact hkind

theorem exists_setValue_of_kind? {id : ControlId} (h : f.kind? id = some .field) (v : Json) :
    ∃ g, f.setValue id v = .ok g := by
  obtain ⟨k, hk, hkind⟩ := Option.map_eq_some_iff.1 h
  simp [setValue, hk, hkind]

end Form

theorem Session.form_launch (m : Model) (data : Json) (c : Config) :
    (launch m data c).form = .build m data c := rfl

namespace Checker

open Form

variable {f g : Form} {s : Session} {c : Config} {data : Json} {edits : List String}

/-! ## Edits -/

/-- The control and the value that an edit is about. -/
def edit? (f : Form) (edit : String) : Option (ControlId × Json) :=
  (Text.cutOnce? '=' edit).bind fun e =>
    (f.get? e.1).map fun id => (id, (Json.parse e.2).getD (.string e.2))

/-- The edit is a path and a value, and the path leads to a field. -/
def Applies (f : Form) (edit : String) : Prop :=
  ((edit? f edit).bind fun v => f.kind? v.1) = some .field

instance (f : Form) (edit : String) : Decidable (Applies f edit) :=
  inferInstanceAs (Decidable (_ = _))

/-- A document in which the edits of a form have replaced the values at the places of their fields,
one after the other. -/
def editedDocument (f : Form) (edits : List String) (document : Json) : Json :=
  (edits.filterMap (edit? f)).foldl (fun j v => j.replace ((f.place? v.1).getD []) v.2) document

theorem edit?_congr (t : SameTree f g) : edit? f = edit? g := by
  funext edit
  simp only [edit?, get?, t.resolve]

theorem Applies.congr {edit : String} (h : Applies f edit) (t : SameTree f g) :
    Applies g edit := by
  unfold Applies at *
  simpa only [edit?_congr t, t.kind?] using h

theorem applyEdit_eq {edit : String} {id : ControlId} {v : Json}
    (hedit : edit? s.form edit = some (id, v)) (hset : s.form.setValue id v = .ok g) :
    applyEdit s edit = .ok (s.withForm g) := by
  obtain ⟨⟨path, raw⟩, hcut, hedit⟩ := Option.bind_eq_some_iff.1 hedit
  obtain ⟨id', hget, heq⟩ := Option.map_eq_some_iff.1 hedit
  cases heq
  simp only [applyEdit, hcut, hget, Session.Editing.yields_setValue _ _ s, hset, Except.map]

/-- Edits that lead to fields are made one after the other. -/
theorem foldlM_applyEdit (hform : s.form = f) (h : ∀ edit ∈ edits, Applies f edit) :
    ∃ g, f.setAll (edits.filterMap (edit? f)) = .ok g ∧
      edits.foldlM applyEdit s = .ok (s.withForm g) := by
  induction edits generalizing s f with
  | nil =>
      subst hform
      exact ⟨s.form, rfl, rfl⟩
  | cons edit edits ih =>
      subst hform
      obtain ⟨hfirst, hrest⟩ := List.forall_mem_cons.1 h
      obtain ⟨⟨id, v⟩, hedit, hkind⟩ := Option.bind_eq_some_iff.1 hfirst
      obtain ⟨f', hset⟩ := exists_setValue_of_kind? hkind v
      have htree := sameTree_setValue hset
      obtain ⟨g, hall, hfold⟩ := @ih f' (s.withForm f') rfl fun edit hmem =>
        (hrest edit hmem).congr htree.symm
      refine ⟨g, ?_, ?_⟩
      · rw [List.filterMap_cons, hedit, setAll, List.foldlM_cons, hset, ← edit?_congr htree]
        exact hall
      · rw [List.foldlM_cons, applyEdit_eq hedit hset]
        exact hfold

theorem settled_eq {m : Model} (hm : person = .ok m)
    (hfold : edits.foldlM applyEdit (Session.launch m data c) = .ok s) :
    settled c data edits = .ok (s.advance (settleTime c)).form := by
  rw [settled, hm]
  change (edits.foldlM applyEdit (Session.launch m data c)).bind _ = _
  rw [hfold]
  rfl

/-! ## Waiting -/

/-- The settle time is a little longer than the longest debounce. -/
theorem settleTime_eq (hc : c.longestDebounce + 50 ≤ Text.maxWord) :
    settleTime c = c.longestDebounce + 50 := Nat.mod_eq_of_lt (Nat.lt_succ_of_le hc)

/-- After the settle time a person whose fields got new values is up to date. -/
theorem upToDate_person (hc : c.longestDebounce + 50 ≤ Text.maxWord)
    {values : List (ControlId × Json)} (hset : (build personModel data c).setAll values = .ok g)
    (hs : ((Session.launch personModel data c).withForm g).advance (settleTime c) = s) :
    SameDocument s.form g ∧ ∀ id, g.property? id ≠ none → s.form.UpToDate id ∧
      ∀ state, s.form.state? id = some state → state.pending = false := by
  have hperson := PersonTree.build data c
  have hwait : ∀ wait ∈ c.debounces, wait ≤ settleTime c := fun wait hwait => by
    rw [settleTime_eq hc]
    exact Nat.le_add_right_of_le (Config.le_longestDebounce wait hwait)
  simp only [Config.debounces, List.forall_mem_cons] at hwait
  obtain ⟨hvalid, hedit, hself, -⟩ := hwait
  obtain ⟨-, hdoc, hupToDate⟩ := Session.upToDate_of_setAll hset hperson.hasInquiry
    (hperson.declaresAll (soundTree_build personModel data c))
    (fun control => (policy_person data c control).symm ▸ ⟨hvalid, hedit, hself⟩) hs
  exact ⟨hdoc, fun id hp => ⟨(hupToDate id hp).1, fun state hstate =>
    ((hupToDate id hp).2 state hstate).1⟩⟩

/-- Edits that lead to fields, and then a wait, leave the form up to date with the edited
document. -/
theorem exists_settled (hc : c.longestDebounce + 50 ≤ Text.maxWord)
    (h : ∀ edit ∈ edits, Applies (build personModel data c) edit) :
    ∃ f, settled c data edits = .ok f ∧ SameTree f (build personModel data c) ∧
      f.rootValue = editedDocument (build personModel data c) edits
        ((Shape.object personModel.properties).project data) ∧
      ∀ id, f.property? id ≠ none → f.UpToDate id ∧
        ∀ state, f.state? id = some state → state.pending = false := by
  obtain ⟨g, hset, hfold⟩ := foldlM_applyEdit (Session.form_launch personModel data c) h
  obtain ⟨s, hs⟩ : ∃ s, ((Session.launch personModel data c).withForm g).advance (settleTime c) =
    s := ⟨_, rfl⟩
  obtain ⟨hdoc, hupToDate⟩ := upToDate_person hc hset hs
  refine ⟨s.form, ?_, hdoc.sameTree.trans (sameTree_setAll hset), ?_, fun id hp => ?_⟩
  · rw [settled_eq person_eq hfold, hs]
  · rw [rootValue, hdoc.value, ← rootValue_build personModel data c]
    exact (controlTree_build distinctNames_personModel).rootValue_setAll hset
  · exact hupToDate id (hdoc.sameTree.property? id ▸ hp)

/-! ## Entries -/

/-- The entry stands under the path of the control, and shows the verdicts of its tests on the
values of the form. No inquiry is pending. -/
structure ReportedAs (f : Form) (id : ControlId) (entry : String × Json) : Prop where
  path : f.path? id = some entry.1
  syncErrors : ((entry.2.field "state").field? "sync_errors").bind ControlState.errorsOfJson? =
    some (f.verdict id Property.validTests).errors?
  enabled : (entry.2.field "state").field? "enabled" =
    some (.bool (f.verdict id Property.editTests).passed)
  visible : (entry.2.field "state").field? "visible" =
    some (.bool (f.verdict id Property.viewTests).passed)
  pending : (entry.2.field "state").field? "pending" = some (.bool false)

/-- The entries have different paths, and they are those of the controls of a form, the root
excepted, one for each. -/
structure Reports (f : Form) (entries : List (String × Json)) : Prop where
  ascending : Keyed.Ascending entries
  exists_controls : ∃ ids, (f.controls.filter (· ≠ Form.root)).Perm ids ∧
    List.Forall₂ (ReportedAs f) ids entries

/-- A control at rest is up to date and waits for no inquiry. -/
def AtRest (f : Form) (id : ControlId) : Prop :=
  f.UpToDate id ∧ ∀ state, f.state? id = some state → state.pending = false

theorem field_state (s : ControlState) :
    (Json.ofFields [("state", s.toJson), ("messages", s.messagesToJson)]).field "state" =
      s.toJson := by
  have hfield : (Json.ofFields [("state", s.toJson), ("messages", s.messagesToJson)]).field?
      "state" = some s.toJson := (Json.field?_ofFields (by simp)).2 (by simp)
  rw [Json.field, hfield, Option.getD_some]

theorem AtRest.reportedAs {id : ControlId} {path : String} {s : ControlState} (h : AtRest f id)
    (hpath : f.path? id = some path) (hs : f.state? id = some s) :
    ReportedAs f id
      (path, .ofFields [("state", s.toJson), ("messages", s.messagesToJson)]) := by
  obtain ⟨hsync, henabled, hvisible⟩ := h.1 s hs
  have hshown := s.shownBy_toJson
  refine ⟨hpath, ?_, ?_, ?_, ?_⟩ <;> dsimp only <;> rw [field_state]
  · rw [hshown.syncErrors, hsync]
  · rw [hshown.enabled, henabled]
  · rw [hshown.visible, hvisible]
  · rw [hshown.pending, h.2 s hs]

theorem reportOf?_root (h : f.Rooted) : reportOf? f Form.root = none := by
  unfold reportOf?
  rw [h.path?_root]
  cases f.state? Form.root with
  | none => rfl
  | some state => rfl

theorem exists_reportOf? (h : f.Rooted) {id : ControlId} (hid : f.contains id = true)
    (hpath : ∃ path, f.path? id = some path) (hne : id ≠ Form.root) (hrest : AtRest f id) :
    ∃ entry, reportOf? f id = some entry ∧ ReportedAs f id entry := by
  obtain ⟨path, hpath⟩ := hpath
  obtain ⟨state, hstate⟩ := Option.isSome_iff_exists.1 ((isSome_state? f id).trans hid)
  have hnonempty : path.isEmpty = false := Bool.eq_false_iff.2 fun hempty => by
    rw [String.isEmpty_iff.1 hempty] at hpath
    exact hne (h.path?_inj hpath h.path?_root)
  refine ⟨_, ?_, hrest.reportedAs hpath hstate⟩
  simp [reportOf?, hpath, hstate, hnonempty]

theorem eq_of_reportOf? (h : f.Rooted) {id other : ControlId} {path : String}
    (hid : (reportOf? f id).map Prod.fst = some path)
    (hother : (reportOf? f other).map Prod.fst = some path) : id = other := by
  have hpath : ∀ {id}, (reportOf? f id).map Prod.fst = some path → f.path? id = some path := by
    intro id hid
    obtain ⟨entry, hentry, rfl⟩ := Option.map_eq_some_iff.1 hid
    unfold reportOf? at hentry
    split at hentry
    · rename_i hpath hstate
      split at hentry
      · cases hentry
      · cases hentry
        exact hpath
    · cases hentry
  exact h.path?_inj (hpath hid) (hpath hother)

/-- The report has one entry for each control but the root. -/
theorem reports_entries (h : f.Rooted)
    (hpaths : ∀ id, f.contains id = true → ∃ path, f.path? id = some path)
    (hrest : ∀ id, f.contains id = true → id ≠ Form.root → AtRest f id) :
    Reports f (entries f) := by
  have hall : ∀ ids : List ControlId, (∀ id ∈ ids, f.contains id = true) →
      List.Forall₂ (ReportedAs f) (ids.filter (· ≠ Form.root)) (ids.filterMap (reportOf? f)) := by
    intro ids hids
    induction ids with
    | nil => exact .nil
    | cons id ids ih =>
        obtain ⟨hid, hids⟩ := List.forall_mem_cons.1 hids
        by_cases hroot : id = Form.root
        · rw [List.filter_cons_of_neg (by simpa using hroot), hroot, List.filterMap_cons,
            reportOf?_root h]
          exact ih hids
        · obtain ⟨entry, hentry, hreported⟩ :=
            exists_reportOf? h hid (hpaths id hid) hroot (hrest id hid hroot)
          rw [List.filter_cons_of_pos (by simpa using hroot), List.filterMap_cons, hentry]
          exact .cons hreported (ih hids)
  have hnodup : ((f.controls.filterMap (reportOf? f)).map Prod.fst).Nodup := by
    rw [List.map_filterMap]
    exact (List.nodup_range.filter _).filterMap fun _ _ _ hid hother =>
      eq_of_reportOf? h hid hother
  -- the entries are sorted by their paths, and the controls along with them
  have hentries := hall f.controls fun id hid => (List.mem_filter.1 hid).2
  obtain ⟨ids, hreported, hids⟩ := List.perm_comp_forall₂ (Keyed.perm_ofList hnodup) hentries.flip
  exact ⟨Keyed.ascending_ofList _, ids, hids.symm, hreported.flip⟩

theorem legible_of_reportOf? {id : ControlId} {entry : String × Json}
    (h : reportOf? f id = some entry) (depth : Nat) : Json.Legible (depth + 4) entry.2 := by
  unfold reportOf? at h
  split at h
  · split at h
    · cases h
    · cases h
      refine Json.legible_ofFields ?_
      simp only [List.forall_mem_cons]
      exact ⟨ControlState.legible_toJson _, ControlState.legible_messagesToJson _,
        List.forall_mem_nil _⟩
  · cases h

/-- A reader of what is printed finds the entries of the report. -/
theorem parse_report (f : Form) :
    Json.parse ((report f).pretty 0) = some (.object (entries f)) := by
  refine Json.parse_pretty (Json.legible_ofFields fun entry hentry => ?_)
  obtain ⟨id, -, hid⟩ := List.mem_filterMap.1 hentry
  exact legible_of_reportOf? hid 122

/-! ## Runs -/

/-- A run that can read its arguments, its configuration and its document, and whose edits all lead
to fields, ends well if the longest debounce leaves room for the settle time and there is memory for
the streams. Behind the log it prints an object with one entry for each control but the root, by its
path. The form that it reports on has the controls of the document, and its values are those of the
document with the edits. Each entry shows the verdicts of the tests on these values, and no inquiry
is pending. -/
theorem run_reports_upToDate {s : Surroundings} {arguments : List String} {o : Options}
    (hoptions : Request.ofArguments arguments (s.environment.get? envFileVariable) = .check o)
    (hconfig : configuration s o.envFile = .ok c) (hdata : document s o.data = .ok data)
    (hdebounce : c.longestDebounce + 50 ≤ Text.maxWord)
    (hcapacity : Stream.roundUp c.channelCapacity ≤ s.maxPlaces)
    (hedits : ∀ edit ∈ o.edits, Applies (build personModel data c) edit) :
    ∃ f text printed, run s arguments =
        ⟨0, s.log (begun c ++ [completed f]) ++ text ++ "\n", ""⟩ ∧
      Json.parse text = some (.object printed) ∧ Reports f printed ∧
      SameTree f (build personModel data c) ∧
      f.rootValue = editedDocument (build personModel data c) o.edits
        ((Shape.object personModel.properties).project data) ∧
      ∀ id, f.contains id = true →
        ∃ place, f.place? id = some place ∧ f.value id = f.rootValue.place place := by
  obtain ⟨f, hsettled, htree, hvalue, hupToDate⟩ := exists_settled hdebounce hedits
  have hcontrols : f.ControlTree personModel :=
    (controlTree_build distinctNames_personModel).sameTree htree.symm
  have hrooted : f.Rooted := (rooted_build wellNamed_personModel data c).sameTree htree.symm
  have hpaths : ∀ id, f.contains id = true → ∃ path, f.path? id = some path := fun id hid =>
    hrooted.descends_iff_path?.1 ((hcontrols.contains_iff_descends id).1 hid)
  have hrest : ∀ id, f.contains id = true → id ≠ Form.root → AtRest f id := fun id hid hne =>
    hupToDate id (hcontrols.property?_ne_none distinctNames_personModel hid hne)
  refine ⟨f, (report f).pretty 0, entries f, ?_, parse_report f,
    reports_entries hrooted hpaths hrest, htree, hvalue, fun id hid => ?_⟩
  · have hchecked : checked s o c = .ok f := by
      rw [checked_eq hdata, if_neg (Nat.not_lt.2 hcapacity), hsettled]
    simp only [run, hoptions, check, hconfig, hchecked]
  · obtain ⟨place, hplace⟩ := hcontrols.exists_place? hid
    exact ⟨place, hplace, (hcontrols.soundTree.rootValue_place hplace).symm⟩

/-- A document with a driver of nineteen and two nicknames. -/
def driverInput : String :=
  "\x7b\"age\": 19, \"car\": \x7b\"model\": \"A1\"\x7d, \"nicknames\": [\"Al\", \"\"]\x7d"

/-- The driver is checked with a debounce, and the log is switched off. -/
def driverSurroundings : Surroundings where
  environment := .ofList [("FIELDRULES_DEPENDENCY_VALID_DEBOUNCE_MS", "20")]
  fileText _ := none
  input := some driverInput
  log _ := ""
  slotSize := 56

/-- The age goes down and up again. -/
def driverEdits : List String := ["age=16", "car.make=Audi", "nicknames.1=Bo", "age=22"]

/-- The configuration of the driver. -/
def driverConfig : Config := .ofVariables driverSurroundings.environment.get?

/-- The driver is reported with the last age. -/
theorem exists_report_driver :
    ∃ data f text printed, document driverSurroundings none = .ok data ∧
      run driverSurroundings (driverEdits.flatMap fun edit => ["--set", edit]) =
        ⟨0, text ++ "\n", ""⟩ ∧
      Json.parse text = some (.object printed) ∧ Reports f printed ∧
      (f.rootValue.field "age").natural? = some 22 := by
  have hoptions : Request.ofArguments (driverEdits.flatMap fun edit => ["--set", edit])
      (driverSurroundings.environment.get? envFileVariable) = .check ⟨none, driverEdits, none⟩ := by
    decide +kernel
  have hconfig : configuration driverSurroundings none = .ok driverConfig := by rfl
  obtain ⟨data, hparse⟩ := Option.isSome_iff_exists.1
    (show (Json.parse driverInput).isSome = true by decide +kernel)
  have hread : (Json.parse driverInput).getD .null = data := by rw [hparse, Option.getD_some]
  have hdata : document driverSurroundings none = .ok data := by
    simp [document, driverSurroundings, hparse, bind, Except.bind]
  have hedits : ∀ edit ∈ driverEdits, Applies (build personModel data driverConfig) edit := by
    rw [← hread]
    decide +kernel
  obtain ⟨f, text, printed, hrun, hprinted, hreports, -, hvalue, -⟩ := run_reports_upToDate
    hoptions hconfig hdata (by decide +kernel) (by decide +kernel) hedits
  have hage : (f.rootValue.field "age").natural? = some 22 := by
    rw [hvalue, ← hread]
    decide +kernel
  refine ⟨data, f, text, printed, hdata, ?_, hprinted, hreports, hage⟩
  rw [hrun, driverSurroundings, String.empty_append]

end Checker

end ReactiveForm
