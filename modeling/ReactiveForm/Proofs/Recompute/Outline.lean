import ReactiveForm.Proofs.Form.Tree
import ReactiveForm.Recompute.Scheduler

/-!
# What stays of a scheduler as it works

A scheduler works on its watchers, its inquiries and its table. Which pipelines there are, what each
of them is for and how it is set up stays: the schedulers have the same outline (`SameOutline`). For
each change that a scheduler can undergo there are statements about what it looks up afterwards: the
entry of a control, its inquiry pipeline, and all pipelines that run checks.
-/

namespace ReactiveForm

/-! ## The table -/

namespace ScheduleTable

variable {t : ScheduleTable} {f : Form} {id other : ControlId}

private theorem lookup_map_modify (change : ScheduleEntry → ScheduleEntry) :
    (t.map fun e => if e.1 = id then (id, change e.2) else e).lookup other =
      if other = id then (t.lookup other).map change else t.lookup other := by
  induction t with
  | nil => simp
  | cons e t ih =>
      rw [List.map_cons, List.lookup_cons, List.lookup_cons, ih]
      by_cases he : e.1 = id
      · rw [if_pos he, he]
        by_cases hother : other = id
        · simp [hother]
        · simp only [beq_eq_false_iff_ne.2 hother, if_neg hother]
      · rw [if_neg he]
        by_cases hother : other = id
        · have hne : (other == e.1) = false := beq_eq_false_iff_ne.2 fun heq => he (heq ▸ hother)
          simp only [hne, if_pos hother]
        · simp only [if_neg hother]

theorem entry_modify (t : ScheduleTable) (id : ControlId)
    (change : ScheduleEntry → ScheduleEntry) (other : ControlId) :
    (t.modify id change).entry other =
      if other = id then change (t.entry other) else t.entry other := by
  unfold modify entry
  split
  · rename_i hthere
    rw [lookup_map_modify]
    split
    · rename_i heq
      subst heq
      obtain ⟨e, he⟩ := Option.isSome_iff_exists.1 hthere
      simp [he]
    · rfl
  · rename_i hmissing
    rw [List.lookup_append]
    by_cases heq : other = id
    · subst heq
      have hnone : t.lookup other = none := Option.not_isSome_iff_eq_none.1 hmissing
      simp [hnone]
    · have hne : (other == id) = false := beq_eq_false_iff_ne.2 heq
      rw [List.lookup_cons, hne, List.lookup_nil, Option.or_none, if_neg heq]

theorem entry_retain (hid : f.contains id = true) : (t.retain f).entry id = t.entry id := by
  unfold retain entry
  refine congrArg (fun o => Option.getD o _) ?_
  induction t with
  | nil => rfl
  | cons e t ih =>
      rw [List.filter_cons, List.lookup_cons]
      split
      · rw [List.lookup_cons, ih]
      · rename_i hgone
        rw [ih]
        have hne : (id == e.1) = false := by
          rw [beq_eq_false_iff_ne]
          rintro rfl
          exact hgone hid
        rw [hne]

theorem entry_retain_of_not_contains (hid : ¬ f.contains id = true) :
    (t.retain f).entry id = .initial := by
  have hnone : (t.retain f).lookup id = none := by
    refine List.lookup_eq_none_iff.2 fun e he => ?_
    rw [bne_iff_ne]
    rintro rfl
    exact hid (List.mem_filter.1 he).2
  rw [entry, hnone, Option.getD_none]

theorem entry_foldl_touch (ids : List ControlId) :
    (ids.foldl (fun t id => t.modify id fun e => e) t).entry other = t.entry other := by
  induction ids generalizing t with
  | nil => rfl
  | cons id ids ih =>
      rw [List.foldl_cons, ih, entry_modify]
      split <;> rfl

end ScheduleTable

/-! ## Outlines -/

/-- What stays of a pipeline that runs checks. -/
def ChangePipeline.outline (p : ChangePipeline) : ChangePipeline :=
  { p with watcher := ⟨0, p.watcher.settings, none, .idle⟩ }

theorem ChangePipeline.eq_of_outline {p q : ChangePipeline} (h : p.outline = q.outline) :
    p.control = q.control ∧ p.watched = q.watched ∧ p.reaction = q.reaction ∧
      p.watcher.settings = q.watcher.settings := by
  have hcontrol := congrArg ChangePipeline.control h
  have hwatched := congrArg ChangePipeline.watched h
  have hreaction := congrArg ChangePipeline.reaction h
  have hsettings := congrArg (fun p => p.watcher.settings) h
  exact ⟨hcontrol, hwatched, hreaction, hsettings⟩

/-- What stays of an inquiry pipeline. -/
def InquiryPipeline.outline (p : InquiryPipeline) : InquiryPipeline :=
  { p with receiver := 0, requests := 0, phase := .waiting }

theorem InquiryPipeline.eq_of_outline {p q : InquiryPipeline} (h : p.outline = q.outline) :
    p.control = q.control ∧ p.tests = q.tests ∧ p.settings = q.settings := by
  have hcontrol := congrArg InquiryPipeline.control h
  have htests := congrArg InquiryPipeline.tests h
  have hsettings := congrArg InquiryPipeline.settings h
  exact ⟨hcontrol, htests, hsettings⟩

/-- What stays of the own pipelines of a control. -/
def OwnPipelines.outline (o : OwnPipelines) : OwnPipelines :=
  { o with
    editability := o.editability.map ChangePipeline.outline
    inquiry := o.inquiry.map InquiryPipeline.outline }

namespace Scheduler

variable {s s' s'' : Scheduler} {f g : Form} {id : ControlId}

/-- The pipelines for the own changes of a control. -/
def own? (s : Scheduler) (id : ControlId) : Option OwnPipelines :=
  s.own.find? (·.control == id)

/-- The pipeline for the editability of a control. -/
def editability? (s : Scheduler) (id : ControlId) : Option ChangePipeline :=
  (s.own? id).bind OwnPipelines.editability

/-- The scheduler has a pipeline that runs checks, for a dependency or for own changes. -/
def Watches (s : Scheduler) (p : ChangePipeline) : Prop :=
  p ∈ s.dependencies ∨ ∃ id, s.editability? id = some p

/-- The schedulers have the same pipelines, each set up in the same way. -/
structure SameOutline (s s' : Scheduler) : Prop where
  dependencies : s.dependencies.map ChangePipeline.outline =
    s'.dependencies.map ChangePipeline.outline
  own : ∀ id, (s.own? id).map OwnPipelines.outline = (s'.own? id).map OwnPipelines.outline
  controls : s.own.map OwnPipelines.control = s'.own.map OwnPipelines.control

theorem SameOutline.refl (s : Scheduler) : SameOutline s s := ⟨rfl, fun _ => rfl, rfl⟩

theorem SameOutline.symm (h : SameOutline s s') : SameOutline s' s :=
  ⟨h.dependencies.symm, fun id => (h.own id).symm, h.controls.symm⟩

theorem SameOutline.trans (h : SameOutline s s') (h' : SameOutline s' s'') : SameOutline s s'' :=
  ⟨h.dependencies.trans h'.dependencies, fun id => (h.own id).trans (h'.own id),
    h.controls.trans h'.controls⟩

theorem inquiry?_eq (s : Scheduler) (id : ControlId) :
    s.inquiry? id = (s.own? id).bind OwnPipelines.inquiry := rfl

theorem map_outline_editability?_congr
    (h : (s.own? id).map OwnPipelines.outline = (s'.own? id).map OwnPipelines.outline) :
    (s.editability? id).map ChangePipeline.outline =
      (s'.editability? id).map ChangePipeline.outline := by
  have hmap := congrArg (fun o => o.bind OwnPipelines.editability) h
  rw [Option.bind_map, Option.bind_map] at hmap
  rw [Scheduler.editability?, Scheduler.editability?, Option.map_bind, Option.map_bind]
  exact hmap

theorem SameOutline.editability? (h : SameOutline s s') (id : ControlId) :
    (s.editability? id).map ChangePipeline.outline =
      (s'.editability? id).map ChangePipeline.outline :=
  map_outline_editability?_congr (h.own id)

theorem SameOutline.inquiry? (h : SameOutline s s') (id : ControlId) :
    (s.inquiry? id).map InquiryPipeline.outline = (s'.inquiry? id).map InquiryPipeline.outline := by
  have hmap := congrArg (fun o => o.bind OwnPipelines.inquiry) (h.own id)
  rw [Option.bind_map, Option.bind_map] at hmap
  rw [inquiry?_eq, inquiry?_eq, Option.map_bind, Option.map_bind]
  exact hmap

theorem sameOutline_modifyEntry (s : Scheduler) (id : ControlId)
    (change : ScheduleEntry → ScheduleEntry) : SameOutline (s.modifyEntry id change) s :=
  ⟨rfl, fun _ => rfl, rfl⟩

theorem control_of_own? {o : OwnPipelines} (ho : s.own? id = some o) : o.control = id := by
  simpa using List.find?_some ho

theorem mem_own_of_own? {o : OwnPipelines} (ho : s.own? id = some o) : o ∈ s.own :=
  List.mem_of_find?_eq_some ho

theorem controls_modifyOwn {change : OwnPipelines → OwnPipelines}
    (hcontrol : ∀ o, (change o).control = o.control) (s : Scheduler) (id : ControlId) :
    (s.modifyOwn id change).own.map OwnPipelines.control = s.own.map OwnPipelines.control := by
  unfold modifyOwn
  dsimp only
  rw [List.map_map]
  refine List.map_congr_left fun o _ => ?_
  rw [Function.comp_apply]
  split
  · exact hcontrol o
  · rfl

/-- Changing the own pipelines of a control leaves those of the others. -/
theorem own?_modifyOwn {change : OwnPipelines → OwnPipelines}
    (hcontrol : ∀ o, (change o).control = o.control) (s : Scheduler) (id other : ControlId) :
    (s.modifyOwn id change).own? other =
      if other = id then (s.own? other).map change else s.own? other := by
  unfold own? modifyOwn
  dsimp only
  induction s.own with
  | nil => simp
  | cons o own ih =>
      have hkeep : (if o.control = id then change o else o).control = o.control := by
        split
        · exact hcontrol o
        · rfl
      rw [List.map_cons, List.find?_cons, List.find?_cons, hkeep, ih]
      by_cases ho : o.control = other
      · subst ho
        by_cases hid : o.control = id
        · simp [hid]
        · simp [hid]
      · have hne : (o.control == other) = false := beq_eq_false_iff_ne.2 ho
        simp only [hne]

/-! ## Requests and phases of inquiries -/

/-- Changing the inquiries of a control leaves all pipelines that run checks. -/
theorem editability?_modifyInquiry (s : Scheduler) (id : ControlId)
    (change : Option InquiryPipeline → Option InquiryPipeline) (other : ControlId) :
    (s.modifyOwn id fun o => { o with inquiry := change o.inquiry }).editability? other =
      s.editability? other := by
  rw [editability?, own?_modifyOwn (by exact fun _ => rfl), editability?]
  split
  · rw [Option.bind_map]
    rfl
  · rfl

theorem inquiry?_modifyInquiry (s : Scheduler) (id other : ControlId)
    (change : Option InquiryPipeline → Option InquiryPipeline) (hnone : change none = none) :
    (s.modifyOwn id fun o => { o with inquiry := change o.inquiry }).inquiry? other =
      if other = id then change (s.inquiry? other) else s.inquiry? other := by
  rw [inquiry?_eq, own?_modifyOwn (by exact fun _ => rfl), inquiry?_eq]
  split
  · cases s.own? other with
    | none => exact hnone.symm
    | some o => rfl
  · rfl

theorem editability?_request (s : Scheduler) (id other : ControlId) :
    (s.request id).editability? other = s.editability? other :=
  editability?_modifyInquiry s id (Option.map fun p => { p with requests := p.requests + 1 }) other

theorem inquiry?_request (s : Scheduler) (id other : ControlId) :
    (s.request id).inquiry? other =
      if other = id then
        (s.inquiry? other).map fun p => { p with requests := p.requests + 1 }
      else s.inquiry? other :=
  inquiry?_modifyInquiry s id other _ rfl

theorem sameOutline_request (s : Scheduler) (id : ControlId) : SameOutline (s.request id) s where
  dependencies := rfl
  controls := controls_modifyOwn (by exact fun _ => rfl) s id
  own other := by
    rw [request, own?_modifyOwn (by exact fun _ => rfl)]
    split
    · rw [Option.map_map]
      refine congrArg (fun change => Option.map change _) (funext fun o => ?_)
      simp only [Function.comp_apply, OwnPipelines.outline, Option.map_map]
      rfl
    · rfl

theorem editability?_putInquiry (s : Scheduler) (p : InquiryPipeline) (other : ControlId) :
    (s.putInquiry p).editability? other = s.editability? other :=
  editability?_modifyInquiry s p.control (fun _ => some p) other

/-- An inquiry pipeline that is put in the place of another one is the one of its control. -/
theorem inquiry?_putInquiry {p old : InquiryPipeline} (hold : s.inquiry? p.control = some old)
    (other : ControlId) :
    (s.putInquiry p).inquiry? other = if other = p.control then some p else s.inquiry? other := by
  obtain ⟨o, ho, -⟩ := Option.bind_eq_some_iff.1 hold
  rw [putInquiry, inquiry?_eq, own?_modifyOwn (by exact fun _ => rfl)]
  split
  · rename_i heq
    subst heq
    rw [own?, ho]
    rfl
  · rfl

theorem sameOutline_putInquiry {p old : InquiryPipeline}
    (hold : s.inquiry? p.control = some old) (houtline : p.outline = old.outline) :
    SameOutline (s.putInquiry p) s where
  dependencies := rfl
  controls := controls_modifyOwn (by exact fun _ => rfl) s p.control
  own other := by
    rw [putInquiry, own?_modifyOwn (by exact fun _ => rfl)]
    split
    · rename_i heq
      subst heq
      obtain ⟨o, ho, hinquiry⟩ := Option.bind_eq_some_iff.1 hold
      rw [own?, ho]
      simp [OwnPipelines.outline, hinquiry, houtline]
    · rfl

/-! ## Watchers -/

theorem sameOutline_setDependency {i : Nat} {p old : ChangePipeline}
    (hold : s.dependencies[i]? = some old) (houtline : p.outline = old.outline) :
    SameOutline { s with dependencies := s.dependencies.set i p } s where
  dependencies := by
    rw [List.map_set, houtline]
    refine List.ext_getElem? fun j => ?_
    rw [List.getElem?_set]
    split
    · rename_i heq
      subst heq
      obtain ⟨hlt, hget⟩ := List.getElem?_eq_some_iff.1 hold
      simp [hlt, hget]
    · rfl
  own _ := rfl
  controls := rfl

theorem editability?_setEditability {p old : ChangePipeline}
    (hold : s.editability? id = some old) (other : ControlId) :
    (s.modifyOwn id fun o => { o with editability := some p }).editability? other =
      if other = id then some p else s.editability? other := by
  obtain ⟨o, ho, -⟩ := Option.bind_eq_some_iff.1 hold
  rw [editability?, own?_modifyOwn (by exact fun _ => rfl)]
  split
  · rename_i heq
    subst heq
    rw [ho]
    rfl
  · rfl

theorem inquiry?_setEditability (s : Scheduler) (id other : ControlId) (p : ChangePipeline) :
    (s.modifyOwn id fun o => { o with editability := some p }).inquiry? other =
      s.inquiry? other := by
  rw [inquiry?_eq, own?_modifyOwn (by exact fun _ => rfl), inquiry?_eq]
  split
  · rw [Option.bind_map]
    rfl
  · rfl

theorem sameOutline_setEditability {p old : ChangePipeline} (hold : s.editability? id = some old)
    (houtline : p.outline = old.outline) :
    SameOutline (s.modifyOwn id fun o => { o with editability := some p }) s where
  dependencies := rfl
  controls := controls_modifyOwn (by exact fun _ => rfl) s id
  own other := by
    obtain ⟨o, ho, hedit⟩ := Option.bind_eq_some_iff.1 hold
    rw [own?_modifyOwn (by exact fun _ => rfl)]
    split
    · rename_i heq
      subst heq
      rw [ho]
      simp [OwnPipelines.outline, hedit, houtline]
    · rfl

end Scheduler

end ReactiveForm
