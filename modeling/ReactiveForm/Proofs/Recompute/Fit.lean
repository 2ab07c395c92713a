import ReactiveForm.Proofs.Recompute.Outline

/-!
# Schedulers that fit a form

A scheduler that was fitted to a form has a pipeline for each dependency that a control declares and
no others (`DependenciesFit`), and a new one has the pipelines for the own changes of each control
that has a property (`OwnFit`). Both depend on the tree of the form and on the outline of the
scheduler only, so they last for as long as the structure of the form does.
-/

namespace ReactiveForm.Scheduler

variable {s s' : Scheduler} {f g : Form} {id : ControlId}

/-- How the pipelines of a control for its dependencies are set up. -/
def dependencySettings (f : Form) (id : ControlId) : Reaction → ChangeSettings
  | .validity => (f.policy id).dependencyValid
  | .editability => (f.policy id).dependencyEdit

/-- The paths on which tests of a property depend. -/
def pathsFor (p : Property) : Reaction → List String
  | .validity => validPaths p
  | .editability => editPaths p

/-- A path of a control leads to another control whose changes trigger a reaction. -/
def DependsOn (f : Form) (control watched : ControlId) (reaction : Reaction) : Prop :=
  ∃ p path, f.property? control = some p ∧ path ∈ pathsFor p reaction ∧
    f.resolve (anchor f control) path = some watched

/-- The scheduler has a pipeline for each dependency of the form and no others. -/
structure DependenciesFit (f : Form) (s : Scheduler) : Prop where
  complete : ∀ {control watched reaction}, DependsOn f control watched reaction →
    f.contains watched = true →
      ∃ q ∈ s.dependencies, q.control = control ∧ q.watched = watched ∧ q.reaction = reaction
  dependsOn : ∀ q ∈ s.dependencies, DependsOn f q.control q.watched q.reaction
  settings : ∀ q ∈ s.dependencies,
    q.watcher.settings = dependencySettings f q.control q.reaction

/-- The scheduler has the pipelines for the own changes of each control, and no others. -/
structure OwnFit (f : Form) (s : Scheduler) : Prop where
  editability : ∀ {id q}, s.editability? id = some q → q.control = id ∧ q.watched = id ∧
    q.reaction = .editability ∧ q.watcher.settings = (f.policy id).selfEdit
  exists_editability : ∀ {id p}, f.property? id = some p →
    ¬ (p.editTests = [] ∧ p.viewTests = []) → ∃ q, s.editability? id = some q
  inquiry : ∀ {id q}, s.inquiry? id = some q → ∃ p, f.property? id = some p ∧ q.control = id ∧
    q.tests = p.validTests ∧ q.settings = (f.policy id).selfAsyncValid
  exists_inquiry : ∀ {id p}, f.property? id = some p → p.validTests.any Test.hasInquiry = true →
    ∃ q, s.inquiry? id = some q

theorem DependsOn.congr (t : Form.SameTree f g) {control watched : ControlId}
    {reaction : Reaction} (h : DependsOn f control watched reaction) :
    DependsOn g control watched reaction := by
  obtain ⟨p, path, hp, hpath, hresolve⟩ := h
  refine ⟨p, path, t.property? control ▸ hp, hpath, ?_⟩
  rw [← t.anchor control, ← t.resolve]
  exact hresolve

private theorem mem_dependencies_congr {q : ChangePipeline}
    (h : s.dependencies.map ChangePipeline.outline = s'.dependencies.map ChangePipeline.outline)
    (hq : q ∈ s.dependencies) : ∃ q' ∈ s'.dependencies, q'.outline = q.outline :=
  List.mem_map.1 (h ▸ List.mem_map_of_mem hq)

theorem DependenciesFit.congr (t : Form.SameTree f g)
    (h : s.dependencies.map ChangePipeline.outline = s'.dependencies.map ChangePipeline.outline)
    (fit : DependenciesFit f s) : DependenciesFit g s' where
  complete hdep hwatched := by
    obtain ⟨q, hq, hcontrol, hwatched, hreaction⟩ :=
      fit.complete (hdep.congr t.symm) ((t.contains _).trans hwatched)
    obtain ⟨q', hq', houtline⟩ := mem_dependencies_congr h hq
    obtain ⟨hcontrol', hwatched', hreaction', -⟩ := ChangePipeline.eq_of_outline houtline
    exact ⟨q', hq', hcontrol'.trans hcontrol, hwatched'.trans hwatched,
      hreaction'.trans hreaction⟩
  dependsOn q hq := by
    obtain ⟨q', hq', houtline⟩ := mem_dependencies_congr h.symm hq
    obtain ⟨hcontrol, hwatched, hreaction, -⟩ := ChangePipeline.eq_of_outline houtline
    rw [← hcontrol, ← hwatched, ← hreaction]
    exact (fit.dependsOn q' hq').congr t
  settings q hq := by
    obtain ⟨q', hq', houtline⟩ := mem_dependencies_congr h.symm hq
    obtain ⟨hcontrol, -, hreaction, hsettings⟩ := ChangePipeline.eq_of_outline houtline
    rw [← hsettings, ← hcontrol, ← hreaction, fit.settings q' hq']
    unfold dependencySettings
    rw [t.policy]

theorem OwnFit.congr (t : Form.SameTree f g) (h : SameOutline s s') (fit : OwnFit f s) :
    OwnFit g s' where
  editability {id q} hq := by
    obtain ⟨q', hq', houtline⟩ := Option.map_eq_some_iff.1
      ((h.editability? id).trans (congrArg (Option.map _) hq))
    obtain ⟨hcontrol, hwatched, hreaction, hsettings⟩ := ChangePipeline.eq_of_outline houtline
    rw [← t.policy, ← hcontrol, ← hwatched, ← hreaction, ← hsettings]
    exact fit.editability hq'
  exists_editability {id p} hp htests := by
    obtain ⟨q, hq⟩ := fit.exists_editability ((t.property? id).trans hp) htests
    obtain ⟨q', hq', -⟩ := Option.map_eq_some_iff.1
      ((h.editability? id).symm.trans (congrArg (Option.map _) hq))
    exact ⟨q', hq'⟩
  inquiry {id q} hq := by
    obtain ⟨q', hq', houtline⟩ := Option.map_eq_some_iff.1
      ((h.inquiry? id).trans (congrArg (Option.map _) hq))
    obtain ⟨hcontrol, htests, hsettings⟩ := InquiryPipeline.eq_of_outline houtline
    obtain ⟨p, hp, hfit⟩ := fit.inquiry hq'
    rw [← t.policy, ← hcontrol, ← htests, ← hsettings]
    exact ⟨p, (t.property? id).symm.trans hp, hfit⟩
  exists_inquiry {id p} hp htests := by
    obtain ⟨q, hq⟩ := fit.exists_inquiry ((t.property? id).trans hp) htests
    obtain ⟨q', hq', -⟩ := Option.map_eq_some_iff.1
      ((h.inquiry? id).symm.trans (congrArg (Option.map _) hq))
    exact ⟨q', hq'⟩

/-! ## Fitting a scheduler -/

theorem watch?_eq_some {control watched : ControlId} {reaction : Reaction}
    {settings : ChangeSettings} {q : ChangePipeline}
    (h : watch? f control watched reaction settings = some q) :
    f.contains watched = true ∧ ∃ stream, f.changes? watched = some stream ∧
      q = ⟨control, watched, reaction, .create stream settings⟩ := by
  unfold watch? at h
  obtain ⟨hwatched, h⟩ := Option.ite_none_right_eq_some.1 h
  obtain ⟨stream, hstream, rfl⟩ := Option.map_eq_some_iff.1 h
  exact ⟨hwatched, stream, hstream, rfl⟩

theorem exists_changes?_of_contains (hid : f.contains id = true) :
    ∃ stream, f.changes? id = some stream := by
  unfold Form.contains Form.control? at hid
  cases hslot : f.slots[id]? with
  | none => simp [hslot] at hid
  | some slot => exact ⟨slot.changes, by simp [Form.changes?, hslot]⟩

theorem exists_watch?_of_contains {watched : ControlId} (control : ControlId) (reaction : Reaction)
    (settings : ChangeSettings) (hwatched : f.contains watched = true) :
    ∃ q, watch? f control watched reaction settings = some q := by
  obtain ⟨stream, hstream⟩ := exists_changes?_of_contains hwatched
  exact ⟨_, by rw [watch?, if_pos hwatched, hstream, Option.map_some]⟩

private theorem mem_watchPaths {reaction : Reaction} {settings : ChangeSettings}
    {paths : List String} {q : ChangePipeline} :
    q ∈ watchPaths f id reaction settings paths ↔
      ∃ path ∈ paths, ∃ watched, f.resolve (anchor f id) path = some watched ∧
        watch? f id watched reaction settings = some q := by
  simp only [watchPaths, List.mem_filterMap, Option.bind_eq_some_iff]

/-- The pipelines of a control for its dependencies watch just what the control depends on. -/
theorem mem_dependenciesOf {q : ChangePipeline} :
    q ∈ dependenciesOf f id ↔ ∃ watched reaction, DependsOn f id watched reaction ∧
      watch? f id watched reaction (dependencySettings f id reaction) = some q := by
  unfold dependenciesOf
  constructor
  · intro hq
    cases hp : f.property? id with
    | none => simp [hp] at hq
    | some p =>
        simp only [hp, List.mem_append, mem_watchPaths] at hq
        rcases hq with ⟨path, hpath, watched, hresolve, hwatch⟩ |
          ⟨path, hpath, watched, hresolve, hwatch⟩
        · exact ⟨watched, .validity, ⟨p, path, hp, hpath, hresolve⟩, hwatch⟩
        · exact ⟨watched, .editability, ⟨p, path, hp, hpath, hresolve⟩, hwatch⟩
  · rintro ⟨watched, reaction, ⟨p, path, hp, hpath, hresolve⟩, hwatch⟩
    simp only [hp, List.mem_append, mem_watchPaths]
    cases reaction with
    | validity => exact .inl ⟨path, hpath, watched, hresolve, hwatch⟩
    | editability => exact .inr ⟨path, hpath, watched, hresolve, hwatch⟩

theorem mem_controls : id ∈ f.controls ↔ f.contains id = true := by
  simp only [Form.controls, List.mem_filter, List.mem_range, and_iff_right_iff_imp]
  exact Form.lt_size_of_contains

theorem contains_of_property? {p : Property} (hp : f.property? id = some p) :
    f.contains id = true := by
  obtain ⟨c, hc, -⟩ := Option.bind_eq_some_iff.1 hp
  simp [Form.contains, hc]

/-- After a rebuild every pipeline for a dependency is new. -/
theorem watch?_of_mem_rebuild {q : ChangePipeline} (hq : q ∈ (s.rebuild f).dependencies) :
    DependsOn f q.control q.watched q.reaction ∧
      watch? f q.control q.watched q.reaction (dependencySettings f q.control q.reaction) =
        some q := by
  obtain ⟨id, -, hq⟩ := List.mem_flatMap.1 hq
  obtain ⟨watched, reaction, hdep, hwatch⟩ := mem_dependenciesOf.1 hq
  obtain ⟨-, stream, -, rfl⟩ := watch?_eq_some hwatch
  exact ⟨hdep, hwatch⟩

theorem dependenciesFit_rebuild (s : Scheduler) (f : Form) : DependenciesFit f (s.rebuild f) where
  complete {control watched reaction} hdep hwatched := by
    obtain ⟨q, hq⟩ := exists_watch?_of_contains control reaction
      (dependencySettings f control reaction) hwatched
    have hcontrol : control ∈ f.controls := by
      obtain ⟨p, -, hp, -⟩ := hdep
      exact mem_controls.2 (contains_of_property? hp)
    refine ⟨q, List.mem_flatMap.2
      ⟨control, hcontrol, mem_dependenciesOf.2 ⟨watched, reaction, hdep, hq⟩⟩, ?_⟩
    obtain ⟨-, stream, -, rfl⟩ := watch?_eq_some hq
    exact ⟨rfl, rfl, rfl⟩
  dependsOn q hq := (watch?_of_mem_rebuild hq).1
  settings q hq := by
    obtain ⟨-, stream, -, heq⟩ := watch?_eq_some (watch?_of_mem_rebuild hq).2
    exact congrArg (fun p => p.watcher.settings) heq

theorem control_ownOf? {o : OwnPipelines} (ho : ownOf? f id = some o) : o.control = id := by
  obtain ⟨p, -, rfl⟩ := Option.map_eq_some_iff.1 ho
  rfl

/-- A new inquiry pipeline waits, and its first inquiry is requested. -/
theorem waiting_of_ownOf? {o : OwnPipelines} {p : InquiryPipeline} (ho : ownOf? f id = some o)
    (hp : o.inquiry = some p) : p.phase = .waiting ∧ p.requests = 1 := by
  obtain ⟨property, -, rfl⟩ := Option.map_eq_some_iff.1 ho
  obtain ⟨-, hp⟩ := Option.ite_none_right_eq_some.1 hp
  obtain ⟨stream, -, rfl⟩ := Option.map_eq_some_iff.1 hp
  exact ⟨rfl, rfl⟩

private theorem find?_filterMap_ownOf? (f : Form) (id : ControlId) (ids : List ControlId) :
    (ids.filterMap (ownOf? f)).find? (·.control == id) =
      if id ∈ ids then ownOf? f id else none := by
  induction ids with
  | nil => simp
  | cons first ids ih =>
      by_cases heq : id = first
      · subst heq
        cases ho : ownOf? f id with
        | none => simp [ho, ih]
        | some o => simp [ho, control_ownOf? ho]
      · cases ho : ownOf? f first with
        | none => simp [ho, ih, heq]
        | some o =>
            have hne : (o.control == id) = false :=
              beq_eq_false_iff_ne.2 fun hid => heq (hid.symm.trans (control_ownOf? ho))
            simp [ho, ih, heq, hne]

private theorem knows_eq (s : Scheduler) (id : ControlId) : s.knows id = (s.own? id).isSome := by
  rw [knows, own?, List.isSome_find?]

/-- Among the pipelines of one control a filter by the control keeps all or none. -/
private theorem find?_filter_control (keep : ControlId → Bool) (own : List OwnPipelines)
    (id : ControlId) :
    (own.filter fun o => keep o.control).find? (·.control == id) =
      if keep id then own.find? (·.control == id) else none := by
  rw [List.find?_filter]
  split
  · rename_i hkeep
    refine congrArg (fun found => List.find? found own) (funext fun o => ?_)
    by_cases heq : o.control = id
    · simp [heq, hkeep]
    · simp [heq]
  · rename_i hkeep
    refine List.find?_eq_none.2 fun o _ => ?_
    by_cases heq : o.control = id
    · simp [heq, hkeep]
    · simp [heq]

/-- A rebuild keeps the own pipelines of a control that is still there, and makes new ones for a
control that had none. -/
theorem own?_rebuild (s : Scheduler) (f : Form) (id : ControlId) :
    (s.rebuild f).own? id =
      if f.contains id then (s.own? id).or (ownOf? f id) else none := by
  have hown : (s.rebuild f).own = s.own.filter (fun o => f.contains o.control) ++
      (f.controls.filter fun id => !s.knows id).filterMap (ownOf? f) := rfl
  rw [own?, hown, List.find?_append, find?_filter_control f.contains, find?_filterMap_ownOf?]
  simp only [List.mem_filter, mem_controls, knows_eq]
  split
  · rename_i hid
    rw [own?]
    cases s.own.find? (·.control == id) with
    | some o => rfl
    | none => simp [hid]
  · rename_i hid
    simp [hid]

theorem own?_rebuild_cases {o : OwnPipelines} (ho : (s.rebuild f).own? id = some o) :
    s.own? id = some o ∧ f.contains id = true ∨ ownOf? f id = some o := by
  rw [own?_rebuild] at ho
  obtain ⟨hid, ho⟩ := Option.ite_none_right_eq_some.1 ho
  exact (Option.or_eq_some_iff.1 ho).imp (⟨·, hid⟩) And.right

/-- A new scheduler has the own pipelines of each control with a property. -/
theorem own?_attach (f : Form) (id : ControlId) : (attach f).own? id = ownOf? f id := by
  rw [attach, own?_rebuild, show empty.own? id = none from rfl, Option.none_or, ite_eq_left_iff]
  intro hid
  cases hp : f.property? id with
  | none => simp [ownOf?, hp]
  | some p => exact absurd (contains_of_property? hp) hid

theorem dependenciesFit_attach (f : Form) : DependenciesFit f (attach f) :=
  dependenciesFit_rebuild empty f

theorem editability?_attach (f : Form) (id : ControlId) :
    (attach f).editability? id = (ownOf? f id).bind OwnPipelines.editability := by
  rw [editability?, own?_attach]

theorem inquiry?_attach (f : Form) (id : ControlId) :
    (attach f).inquiry? id = (f.property? id).bind (inquiryOf? f id) := by
  rw [inquiry?_eq, own?_attach, ownOf?, Option.bind_map]
  rfl

theorem waiting_attach {p : InquiryPipeline} (hp : (attach f).inquiry? id = some p) :
    p.phase = .waiting ∧ p.requests = 1 := by
  rw [inquiry?_eq, own?_attach] at hp
  obtain ⟨o, ho, hp⟩ := Option.bind_eq_some_iff.1 hp
  exact waiting_of_ownOf? ho hp

theorem ownFit_attach (f : Form) : OwnFit f (attach f) where
  editability {id q} hq := by
    rw [editability?_attach, ownOf?, Option.bind_map] at hq
    obtain ⟨p, -, hq⟩ := Option.bind_eq_some_iff.1 hq
    obtain ⟨-, hq⟩ := Option.ite_none_left_eq_some.1 hq
    obtain ⟨-, stream, -, rfl⟩ := watch?_eq_some hq
    exact ⟨rfl, rfl, rfl, rfl⟩
  exists_editability {id p} hp htests := by
    obtain ⟨q, hq⟩ := exists_watch?_of_contains id .editability (f.policy id).selfEdit
      (contains_of_property? hp)
    refine ⟨q, ?_⟩
    rw [editability?_attach, ownOf?, hp]
    simpa [List.isEmpty_iff, htests] using hq
  inquiry {id q} hq := by
    rw [inquiry?_attach] at hq
    obtain ⟨p, hp, hq⟩ := Option.bind_eq_some_iff.1 hq
    obtain ⟨-, hq⟩ := Option.ite_none_right_eq_some.1 hq
    obtain ⟨stream, -, rfl⟩ := Option.map_eq_some_iff.1 hq
    exact ⟨p, hp, rfl, rfl, rfl⟩
  exists_inquiry {id p} hp htests := by
    obtain ⟨stream, hstream⟩ := exists_changes?_of_contains (contains_of_property? hp)
    rw [inquiry?_attach, hp, Option.bind_some, inquiryOf?, if_pos htests, hstream, Option.map_some]
    exact ⟨_, rfl⟩

/-! ## One entry for each control -/

private theorem controls_filterMap_ownOf? (f : Form) (ids : List ControlId) :
    ((ids.filterMap (ownOf? f)).map OwnPipelines.control).Sublist ids := by
  induction ids with
  | nil => exact .slnil
  | cons id ids ih =>
      cases ho : ownOf? f id with
      | none =>
          rw [List.filterMap_cons_none ho]
          exact ih.cons id
      | some o =>
          rw [List.filterMap_cons_some ho, List.map_cons, control_ownOf? ho]
          exact ih.cons_cons id

/-- A rebuild makes own pipelines only for controls that have none. -/
theorem nodup_controls_rebuild (h : (s.own.map OwnPipelines.control).Nodup) (f : Form) :
    ((s.rebuild f).own.map OwnPipelines.control).Nodup := by
  have hadded := controls_filterMap_ownOf? f (f.controls.filter fun id => !s.knows id)
  have hlive : f.controls.Nodup := List.nodup_range.filter _
  have hown : (s.rebuild f).own = s.own.filter (fun o => f.contains o.control) ++
      (f.controls.filter fun id => !s.knows id).filterMap (ownOf? f) := rfl
  rw [hown, List.map_append]
  refine List.nodup_append.2
    ⟨h.sublist (List.filter_sublist.map _), hadded.nodup (hlive.filter _), ?_⟩
  rintro id hold _ hnew rfl
  obtain ⟨o, ho, rfl⟩ := List.mem_map.1 hold
  have hunknown := (List.mem_filter.1 (hadded.subset hnew)).2
  have hknown : s.knows o.control = true :=
    List.any_eq_true.2 ⟨o, (List.mem_filter.1 ho).1, beq_self_eq_true _⟩
  simp [hknown] at hunknown

theorem nodup_controls_attach (f : Form) : ((attach f).own.map OwnPipelines.control).Nodup :=
  nodup_controls_rebuild (s := empty) List.nodup_nil f

/-- The own pipelines of a control are found where they are. -/
theorem own?_of_mem (h : (s.own.map OwnPipelines.control).Nodup) {o : OwnPipelines}
    (ho : o ∈ s.own) : s.own? o.control = some o := by
  unfold own?
  generalize s.own = own at h ho ⊢
  induction own with
  | nil => cases ho
  | cons first own ih =>
      rw [List.map_cons, List.nodup_cons] at h
      rcases List.mem_cons.1 ho with rfl | ho
      · simp
      · have hne : (first.control == o.control) = false :=
          beq_eq_false_iff_ne.2 fun heq => h.1 (heq ▸ List.mem_map_of_mem ho)
        rw [List.find?_cons, hne]
        exact ih h.2 ho

/-- A new scheduler has recorded nothing. -/
theorem entry_attach (f : Form) (id : ControlId) : (attach f).table.entry id = .initial := by
  rw [attach, rebuild, ScheduleTable.entry_foldl_touch]
  rfl

/-- A rebuild keeps the entries of the controls that are there. -/
theorem entry_rebuild (s : Scheduler) (hid : f.contains id = true) :
    (s.rebuild f).table.entry id = s.table.entry id := by
  rw [rebuild, ScheduleTable.entry_foldl_touch, ScheduleTable.entry_retain hid]

/-- A rebuild drops all other entries. -/
theorem entry_rebuild_of_not_contains (s : Scheduler) (hid : ¬ f.contains id = true) :
    (s.rebuild f).table.entry id = .initial := by
  rw [rebuild, ScheduleTable.entry_foldl_touch, ScheduleTable.entry_retain_of_not_contains hid]

end ReactiveForm.Scheduler
