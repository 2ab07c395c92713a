import ReactiveForm.Proofs.Form.Items
import ReactiveForm.Proofs.Recompute.Fit
import ReactiveForm.Proofs.Test.Dependencies

/-!
# Which pipelines there are

At any time a scheduler has, up to what its pipelines are doing, just the pipelines that a new one
would have (`Subscribed`): those for dependencies in the order of the controls and of their paths,
and those for the own changes of each control. This lasts while the structure of the form stays, and
a rebuild restores it after a change to the structure.

So the pipelines of a control that watch certain others can be counted on the form: there is one for
each path that leads to them (`countP_dependencies`).
-/

namespace ReactiveForm.Scheduler

variable {s s' : Scheduler} {f g : Form} {id control watched : ControlId} {reaction : Reaction}
  {settings : ChangeSettings}

/-! ## What new pipelines are for -/

theorem map_outline_watch? (f : Form) (control watched : ControlId) (reaction : Reaction)
    (settings : ChangeSettings) :
    (watch? f control watched reaction settings).map ChangePipeline.outline =
      if f.contains watched then
        some ⟨control, watched, reaction, ⟨0, settings, none, .idle⟩⟩
      else none := by
  unfold watch?
  split
  · rename_i hwatched
    obtain ⟨stream, hstream⟩ := exists_changes?_of_contains hwatched
    rw [hstream]
    rfl
  · rfl

theorem map_outline_inquiryOf? {p : Property} (hid : f.contains id = true) :
    (inquiryOf? f id p).map InquiryPipeline.outline =
      if p.validTests.any Test.hasInquiry then
        some ⟨id, p.validTests, (f.policy id).selfAsyncValid, 0, 0, .waiting⟩
      else none := by
  unfold inquiryOf?
  split
  · obtain ⟨stream, hstream⟩ := exists_changes?_of_contains hid
    rw [hstream]
    rfl
  · rfl

private theorem map_outline_watchPaths_congr (t : Form.SameTree f g) (id : ControlId)
    (reaction : Reaction) (settings : ChangeSettings) (paths : List String) :
    (watchPaths f id reaction settings paths).map ChangePipeline.outline =
      (watchPaths g id reaction settings paths).map ChangePipeline.outline := by
  simp only [watchPaths, List.map_filterMap, Option.map_bind, Function.comp_def,
    map_outline_watch?, t.contains, t.resolve, t.anchor]

theorem map_outline_dependenciesOf_congr (t : Form.SameTree f g) (id : ControlId) :
    (dependenciesOf f id).map ChangePipeline.outline =
      (dependenciesOf g id).map ChangePipeline.outline := by
  unfold dependenciesOf
  rw [t.property?, t.policy]
  cases g.property? id with
  | none => rfl
  | some p => simp only [List.map_append, map_outline_watchPaths_congr t]

/-- What the own pipelines of a control are for is up to its property and its policy. -/
theorem map_outline_ownOf?_congr (hdefaults : g.defaults = f.defaults)
    (hproperty : g.property? id = f.property? id) :
    (ownOf? g id).map OwnPipelines.outline = (ownOf? f id).map OwnPipelines.outline := by
  have hpolicy : g.policy id = f.policy id := by rw [Form.policy, Form.policy, hproperty, hdefaults]
  cases hp : f.property? id with
  | none => rw [ownOf?, ownOf?, hproperty, hp]; rfl
  | some p =>
      have hf := contains_of_property? hp
      have hg := contains_of_property? (hproperty.trans hp)
      rw [ownOf?, ownOf?, hproperty, hp]
      simp only [Option.map_some, OwnPipelines.outline, map_outline_inquiryOf? hf,
        map_outline_inquiryOf? hg, apply_ite (Option.map ChangePipeline.outline),
        map_outline_watch?, hf, hg, hpolicy]

theorem controls_congr (t : Form.SameTree f g) : f.controls = g.controls := by
  unfold Form.controls
  rw [t.size]
  exact List.filter_congr fun id _ => t.contains id

/-! ## Schedulers that have just these pipelines -/

/-- The scheduler has just the pipelines that a new one would have for the form. -/
structure Subscribed (f : Form) (s : Scheduler) : Prop where
  dependencies : s.dependencies.map ChangePipeline.outline =
    (f.controls.flatMap (dependenciesOf f)).map ChangePipeline.outline
  own : ∀ id, (s.own? id).map OwnPipelines.outline = (ownOf? f id).map OwnPipelines.outline
  nodup : (s.own.map OwnPipelines.control).Nodup

namespace Subscribed

theorem congr (t : Form.SameTree f g) (h : SameOutline s s') (hs : Subscribed f s) :
    Subscribed g s' where
  dependencies := by
    rw [← h.dependencies, hs.dependencies, List.map_flatMap, List.map_flatMap, controls_congr t]
    exact congrArg (fun make => List.flatMap make g.controls)
      (funext (map_outline_dependenciesOf_congr t))
  own id := by
    rw [← h.own, hs.own]
    exact map_outline_ownOf?_congr t.defaults (t.property? id)
  nodup := h.controls ▸ hs.nodup

/-- A rebuild fits the pipelines to a form in which the controls that stay keep their properties. -/
theorem rebuild (hs : Subscribed f s) (hkeeps : Form.KeepsProperties f g) :
    Subscribed g (s.rebuild g) where
  dependencies := rfl
  own id := by
    rw [own?_rebuild]
    split
    · rename_i hid
      cases ho : s.own? id with
      | none => rw [Option.none_or]
      | some o =>
          -- the pipelines that stay are those of a control that was there before
          have hold := hs.own id
          rw [ho, Option.map_some] at hold
          obtain ⟨o', ho', -⟩ := Option.map_eq_some_iff.1 hold.symm
          obtain ⟨p, hp, -⟩ := Option.map_eq_some_iff.1 ho'
          rw [Option.some_or, Option.map_some, hold]
          exact (map_outline_ownOf?_congr hkeeps.defaults
            (hkeeps.property? id (contains_of_property? hp) hid)).symm
    · rename_i hid
      cases hp : g.property? id with
      | none => rw [ownOf?, hp]; rfl
      | some p => exact absurd (contains_of_property? hp) hid
  nodup := nodup_controls_rebuild hs.nodup g

theorem attach (f : Form) : Subscribed f (attach f) where
  dependencies := rfl
  own id := by rw [own?_attach]
  nodup := nodup_controls_attach f

/-- What is no control with a property has no pipelines. -/
theorem own?_eq_none (hs : Subscribed f s) (hp : f.property? id = none) : s.own? id = none := by
  have howned := hs.own id
  rwa [ownOf?, hp, Option.map_none, Option.map_none, Option.map_eq_none_iff] at howned

/-- A control with tests of editability or visibility has a pipeline for its own changes. -/
theorem editability? (hs : Subscribed f s) {p : Property} (hp : f.property? id = some p) :
    (s.editability? id).map ChangePipeline.outline =
      if p.editTests.isEmpty ∧ p.viewTests.isEmpty then none
      else some ⟨id, id, .editability, ⟨0, (f.policy id).selfEdit, none, .idle⟩⟩ := by
  have howned := congrArg (fun o => o.bind OwnPipelines.editability) (hs.own id)
  rw [Option.bind_map, Option.bind_map, ownOf?, hp, Option.map_some, Option.bind_some] at howned
  have hoption : (s.editability? id).map ChangePipeline.outline =
      (s.own? id).bind (OwnPipelines.editability ∘ OwnPipelines.outline) := by
    rw [Scheduler.editability?, Option.map_bind]
    rfl
  rw [hoption, howned]
  simp only [Function.comp_apply, OwnPipelines.outline,
    apply_ite (Option.map ChangePipeline.outline), Option.map_none, map_outline_watch?,
    contains_of_property? hp, if_true]

/-- A control with inquiries has a pipeline for them. -/
theorem inquiry? (hs : Subscribed f s) {p : Property} (hp : f.property? id = some p) :
    (s.inquiry? id).map InquiryPipeline.outline =
      if p.validTests.any Test.hasInquiry then
        some ⟨id, p.validTests, (f.policy id).selfAsyncValid, 0, 0, .waiting⟩
      else none := by
  have howned := congrArg (fun o => o.bind OwnPipelines.inquiry) (hs.own id)
  rw [Option.bind_map, Option.bind_map, ownOf?, hp, Option.map_some, Option.bind_some] at howned
  have hoption : (s.inquiry? id).map InquiryPipeline.outline =
      (s.own? id).bind (OwnPipelines.inquiry ∘ OwnPipelines.outline) := by
    rw [inquiry?_eq, Option.map_bind]
    rfl
  rw [hoption, howned]
  exact map_outline_inquiryOf? (contains_of_property? hp)

private theorem exists_property_of_own? (hs : Subscribed f s) {o : OwnPipelines}
    (ho : s.own? id = some o) : ∃ p, f.property? id = some p := by
  have howned := hs.own id
  rw [ho, Option.map_some] at howned
  obtain ⟨o', ho', -⟩ := Option.map_eq_some_iff.1 howned.symm
  obtain ⟨p, hp, -⟩ := Option.map_eq_some_iff.1 ho'
  exact ⟨p, hp⟩

theorem eq_of_editability? (hs : Subscribed f s) {q : ChangePipeline}
    (hq : s.editability? id = some q) :
    q.control = id ∧ q.watched = id ∧ q.reaction = .editability ∧
      q.watcher.settings = (f.policy id).selfEdit := by
  obtain ⟨o, ho, -⟩ := Option.bind_eq_some_iff.1 hq
  obtain ⟨p, hp⟩ := hs.exists_property_of_own? ho
  have houtline := hs.editability? hp
  rw [hq, Option.map_some] at houtline
  split at houtline
  · cases houtline
  · exact ChangePipeline.eq_of_outline (q := ⟨id, id, .editability, ⟨0, _, none, .idle⟩⟩)
      (Option.some.inj houtline)

/-- An inquiry pipeline has the validity tests of its control. -/
theorem exists_property_of_inquiry? (hs : Subscribed f s) {q : InquiryPipeline}
    (hq : s.inquiry? id = some q) : ∃ p, f.property? id = some p ∧ q.tests = p.validTests := by
  obtain ⟨o, ho, -⟩ := Option.bind_eq_some_iff.1 hq
  obtain ⟨p, hp⟩ := hs.exists_property_of_own? ho
  have houtline := hs.inquiry? hp
  rw [hq, Option.map_some] at houtline
  split at houtline
  · exact ⟨p, hp, congrArg InquiryPipeline.tests (Option.some.inj houtline)⟩
  · cases houtline

theorem contains_of_inquiry? (hs : Subscribed f s) {q : InquiryPipeline}
    (hq : s.inquiry? id = some q) : f.contains id = true := by
  obtain ⟨p, hp, -⟩ := hs.exists_property_of_inquiry? hq
  exact contains_of_property? hp

/-- A new scheduler has inquiry pipelines for the same controls. -/
theorem exists_inquiry?_attach (hs : Subscribed f s) {q : InquiryPipeline}
    (hq : s.inquiry? id = some q) : ∃ q', (Scheduler.attach f).inquiry? id = some q' := by
  obtain ⟨p, hp, -⟩ := hs.exists_property_of_inquiry? hq
  have houtline := ((attach f).inquiry? hp).trans (hs.inquiry? hp).symm
  rw [hq, Option.map_some] at houtline
  obtain ⟨q', hq', -⟩ := Option.map_eq_some_iff.1 houtline
  exact ⟨q', hq'⟩

end Subscribed

/-! ## Paths that lead to given controls -/

/-- The tests that are run by a reaction. -/
def testsFor (p : Property) : Reaction → List Test
  | .validity => p.validTests
  | .editability => p.editTests ++ p.viewTests

/-- A path that a control declares for a reaction leads to one of the given controls. -/
def LeadsInto (f : Form) (control : ControlId) (reaction : Reaction) (ids : List ControlId)
    (path : String) : Prop :=
  ∃ p, f.property? control = some p ∧ path ∈ (testsFor p reaction).flatMap Test.dependencies ∧
    ∃ watched ∈ ids, f.resolve (anchor f control) path = some watched

/-- The paths that a control declares for a reaction and that lead to one of the given controls. -/
def pathsInto (f : Form) (control : ControlId) (reaction : Reaction) (ids : List ControlId) :
    List String :=
  (((f.property? control).map (pathsFor · reaction)).getD []).filter fun path =>
    (f.resolve (anchor f control) path).any fun watched => decide (watched ∈ ids)

/-- The paths of all tests that have a part in a reaction are collected at once. -/
theorem pathsFor_eq (p : Property) (reaction : Reaction) :
    pathsFor p reaction = Test.dependencyPaths (testsFor p reaction) := by
  cases reaction with
  | validity => rfl
  | editability => exact editPaths_eq p

/-- Every declared path is there once. -/
theorem pathsFor_spec (p : Property) (reaction : Reaction) :
    (pathsFor p reaction).Nodup ∧
      ∀ path, path ∈ pathsFor p reaction ↔
        path ∈ (testsFor p reaction).flatMap Test.dependencies := by
  rw [pathsFor_eq]
  exact ⟨nodup_distinct _, fun _ => mem_distinct⟩

theorem pathsInto_spec (f : Form) (control : ControlId) (reaction : Reaction)
    (ids : List ControlId) :
    (pathsInto f control reaction ids).Nodup ∧
      ∀ path, path ∈ pathsInto f control reaction ids ↔ LeadsInto f control reaction ids path := by
  unfold pathsInto LeadsInto
  cases f.property? control with
  | none => simp
  | some p =>
      refine ⟨(pathsFor_spec p reaction).1.filter _, fun path => ?_⟩
      rw [List.mem_filter, Option.map_some, Option.getD_some, (pathsFor_spec p reaction).2,
        Option.any_eq_true]
      simp only [Option.some.injEq, decide_eq_true_eq]
      exact ⟨fun ⟨hpath, watched, hresolve, hmem⟩ => ⟨p, rfl, hpath, watched, hmem, hresolve⟩,
        fun ⟨_, hp, hpath, watched, hmem, hresolve⟩ =>
          ⟨hp ▸ hpath, watched, hresolve, hmem⟩⟩

/-! ## What the pipelines of a control watch -/

/-- Whether a pipeline runs a reaction of a control. -/
def runs (control : ControlId) (reaction : Reaction) (q : ChangePipeline) : Bool :=
  decide (q.control = control ∧ q.reaction = reaction)

/-- Whether a pipeline runs a reaction of a control when one of the given controls changes. -/
def triggers (control : ControlId) (reaction : Reaction) (ids : List ControlId)
    (q : ChangePipeline) : Bool :=
  decide (q.control = control ∧ q.reaction = reaction ∧ q.watched ∈ ids)

/-- What only one of several different numbers contributes to is there once. -/
private theorem filter_flatMap_of_nodup {α : Type} {make : Nat → List α} {P : α → Bool} (one : Nat)
    (hother : ∀ n, n ≠ one → ∀ a ∈ make n, P a = false) {l : List Nat} (hnodup : l.Nodup) :
    (l.flatMap make).filter P = if one ∈ l then (make one).filter P else [] := by
  induction l with
  | nil => rfl
  | cons first l ih =>
      rw [List.nodup_cons] at hnodup
      rw [List.flatMap_cons, List.filter_append, ih hnodup.2]
      by_cases heq : first = one
      · subst heq
        simp [hnodup.1]
      · have hnil : (make first).filter P = [] :=
          List.filter_eq_nil_iff.2 fun a ha => by simp [hother first heq a ha]
        simp [hnil, Ne.symm heq]

/-- Among the paths of a control those that lead to a live control have a pipeline each. -/
private theorem map_watched_watchPaths (done : Reaction) (settings : ChangeSettings)
    (paths : List String) :
    ((watchPaths f control done settings paths).filter (runs control reaction)).map
        (fun q => some q.watched) =
      if done = reaction then
        (paths.filter fun path =>
          (f.resolve (anchor f control) path).any fun watched => decide (watched ∈ f.controls)).map
            (f.resolve (anchor f control))
      else [] := by
  have hmade : ∀ q ∈ watchPaths f control done settings paths,
      runs control reaction q = decide (done = reaction) := by
    intro q hq
    obtain ⟨path, -, hq⟩ := List.mem_filterMap.1 hq
    obtain ⟨watched, -, hwatch⟩ := Option.bind_eq_some_iff.1 hq
    obtain ⟨-, stream, -, rfl⟩ := watch?_eq_some hwatch
    simp [runs]
  rw [List.filter_congr hmade]
  split
  · rename_i heq
    subst heq
    rw [List.filter_eq_self.2 fun _ _ => decide_eq_true rfl]
    clear hmade
    induction paths with
    | nil => rfl
    | cons path paths ih =>
        rw [watchPaths] at ih ⊢
        rw [List.filterMap_cons, List.filter_cons]
        cases hresolve : f.resolve (anchor f control) path with
        | none => simpa using ih
        | some watched =>
            by_cases hwatched : f.contains watched = true
            · obtain ⟨stream, hstream⟩ := exists_changes?_of_contains hwatched
              simpa [watch?, hwatched, hstream, mem_controls, hresolve] using ih
            · simpa [watch?, hwatched, mem_controls] using ih
  · rename_i hne
    simp [hne]

/-- The pipelines for a reaction of a control watch what its paths lead to. There is one for each
path that leads to a live control. -/
theorem Subscribed.map_watched (hs : Subscribed f s) (control : ControlId) (reaction : Reaction) :
    (s.dependencies.filter (runs control reaction)).map (fun q => some q.watched) =
      (pathsInto f control reaction f.controls).map (f.resolve (anchor f control)) := by
  have houtline : ∀ l : List ChangePipeline,
      ((l.map ChangePipeline.outline).filter (runs control reaction)).map
          (fun q => some q.watched) =
        (l.filter (runs control reaction)).map (fun q => some q.watched) := fun l => by
    rw [List.filter_map, List.map_map]
    rfl
  have hnodup : f.controls.Nodup := List.nodup_range.filter _
  rw [← houtline, hs.dependencies, houtline, filter_flatMap_of_nodup control ?_ hnodup]
  · cases hp : f.property? control with
    | none => simp [dependenciesOf, pathsInto, hp]
    | some p =>
        have hcontrol : control ∈ f.controls := mem_controls.2 (contains_of_property? hp)
        rw [if_pos hcontrol, dependenciesOf, hp, List.filter_append, List.map_append,
          map_watched_watchPaths, map_watched_watchPaths, pathsInto, hp]
        cases reaction <;> simp [pathsFor]
  · intro id hne q hq
    obtain ⟨watched, done, -, hwatch⟩ := mem_dependenciesOf.1 hq
    obtain ⟨-, stream, -, rfl⟩ := watch?_eq_some hwatch
    simp [runs, hne]

/-! ## Counting pipelines -/

/-- There is a pipeline for each path that leads to one of the given controls. -/
theorem Subscribed.countP_dependencies (hs : Subscribed f s) {ids : List ControlId}
    (hids : ∀ id ∈ ids, f.contains id = true) (control : ControlId) (reaction : Reaction) :
    s.dependencies.countP (triggers control reaction ids) =
      (pathsInto f control reaction ids).length := by
  have hleads : ∀ path, (f.resolve (anchor f control) path).any (fun id => decide (id ∈ ids)) =
      ((f.resolve (anchor f control) path).any (fun id => decide (id ∈ ids)) &&
        (f.resolve (anchor f control) path).any fun id => decide (id ∈ f.controls)) := by
    intro path
    cases f.resolve (anchor f control) path with
    | none => rfl
    | some id =>
        by_cases hid : id ∈ ids
        · simp [hid, mem_controls, hids id hid]
        · simp [hid]
  calc s.dependencies.countP (triggers control reaction ids)
    _ = (s.dependencies.filter (runs control reaction)).countP
          fun q => decide (q.watched ∈ ids) := by
        rw [List.countP_filter]
        refine List.countP_congr fun q _ => ?_
        simp [triggers, runs, and_comm, and_assoc]
    _ = ((s.dependencies.filter (runs control reaction)).map fun q => some q.watched).countP
          (Option.any fun id => decide (id ∈ ids)) := by
        rw [List.countP_map]
        rfl
    _ = (pathsInto f control reaction f.controls).countP
          fun path => (f.resolve (anchor f control) path).any fun id => decide (id ∈ ids) := by
        rw [hs.map_watched, List.countP_map]
        rfl
    _ = (pathsInto f control reaction ids).length := by
        rw [pathsInto, List.countP_filter, List.countP_eq_length_filter, pathsInto]
        simp only [← hleads]

/-- Whether a control has tests of editability or visibility. -/
def showsTests (f : Form) (control : ControlId) : Bool :=
  (f.property? control).any fun p => !(p.editTests.isEmpty && p.viewTests.isEmpty)

/-- There is a pipeline for the editability of a control that has tests of it. -/
theorem Subscribed.countP_editability (hs : Subscribed f s) (control : ControlId)
    (reaction : Reaction) (ids : List ControlId) :
    (s.editability? control).toList.countP (triggers control reaction ids) =
      if reaction = .editability ∧ control ∈ ids ∧ showsTests f control = true then 1 else 0 := by
  cases hp : f.property? control with
  | none =>
      have hnone : s.editability? control = none := by
        rw [Scheduler.editability?, hs.own?_eq_none hp, Option.bind_none]
      simp [hnone, showsTests, hp]
  | some p =>
      have houtline := hs.editability? hp
      split at houtline
      · rename_i hempty
        rw [Option.map_eq_none_iff.1 houtline]
        simp [showsTests, hp, hempty]
      · rename_i hsome
        obtain ⟨q, hq, -⟩ := Option.map_eq_some_iff.1 houtline
        obtain ⟨hcontrol, hwatched, hreaction, -⟩ := hs.eq_of_editability? hq
        have hshows : showsTests f control = true := by
          rw [showsTests, hp, Option.any_some, Bool.not_eq_true', ← Bool.not_eq_true,
            Bool.and_eq_true]
          exact hsome
        rw [hq, Option.toList_some, List.countP_singleton, triggers, hcontrol, hwatched, hreaction]
        simp only [hshows, decide_eq_true_eq, true_and, and_true, @eq_comm _ Reaction.editability]

end ReactiveForm.Scheduler
