import ReactiveForm.Proofs.Recompute.Events
import ReactiveForm.Proofs.Recompute.Subscribed

/-!
# Subscriptions that are up to date

A scheduler that has just the pipelines that a new one would have is up to date with its form
(`Scheduler.UpToDate`): for each dependency path of a control that leads to a live control there is
one pipeline, which watches what the path leads to now, and the own pipelines of a control are those
that its tests ask for.

The own pipelines of a control are made once. From then on they go on from where they are
(`Engine.GoesOn`): watchers move along the streams, triggers are taken, requests are added, and time
passes. A pipeline that was made anew would have forgotten what it had yielded and received.
-/

namespace ReactiveForm

namespace Scheduler

variable {s : Scheduler} {f : Form}

/-- The subscriptions of a scheduler are those that a new one would have for the form. -/
structure UpToDate (f : Form) (s : Scheduler) : Prop where
  dependencies : s.dependencies.map ChangePipeline.outline =
    (attach f).dependencies.map ChangePipeline.outline
  own : (s.own.map OwnPipelines.outline).Perm ((attach f).own.map OwnPipelines.outline)
  dependencyCount : s.dependencyCount = (attach f).dependencyCount
  ownCount : s.ownCount = (attach f).ownCount
  /-- There is a pipeline for each path that a control declares for a reaction and that leads to a
  live control, and it watches what the path leads to. -/
  watched : ∀ control reaction, ∃ paths : List String, paths.Nodup ∧
    (∀ path, path ∈ paths ↔ LeadsInto f control reaction f.controls path) ∧
    (s.dependencies.filter (runs control reaction)).map (fun q => some q.watched) =
      paths.map (f.resolve (anchor f control))
  /-- A control has a pipeline for its editability if it has such tests, and one for its inquiries
  if one of its validity tests has any. -/
  owned : ∀ control p, f.property? control = some p → ∃ o ∈ s.own, o.control = control ∧
    o.editability.isSome = !(p.editTests.isEmpty && p.viewTests.isEmpty) ∧
    o.inquiry.isSome = p.validTests.any Test.hasInquiry
  once : (s.own.map OwnPipelines.control).Nodup
  /-- Nothing belongs to a control that is gone, or watches one. -/
  live : ∀ q ∈ s.dependencies, f.contains q.control = true ∧ f.contains q.watched = true
  ownLive : ∀ o ∈ s.own, ∃ p, f.property? o.control = some p

namespace Subscribed

private theorem mem_outlines (hs : Subscribed f s) (o : OwnPipelines) :
    o ∈ s.own.map OwnPipelines.outline ↔
      (ownOf? f o.control).map OwnPipelines.outline = some o := by
  rw [← hs.own, List.mem_map]
  constructor
  · rintro ⟨o', ho', rfl⟩
    have hfound : s.own? o'.outline.control = some o' := own?_of_mem hs.nodup ho'
    rw [hfound, Option.map_some]
  · intro ho
    obtain ⟨o', ho', heq⟩ := Option.map_eq_some_iff.1 ho
    exact ⟨o', mem_own_of_own? ho', heq⟩

private theorem nodup_outlines (hs : Subscribed f s) :
    (s.own.map OwnPipelines.outline).Nodup := by
  have hcontrols : ((s.own.map OwnPipelines.outline).map OwnPipelines.control).Nodup := by
    rw [List.map_map]
    exact hs.nodup
  exact List.Pairwise.of_map OwnPipelines.control
    (fun o o' hne heq => hne (congrArg OwnPipelines.control heq)) hcontrols

/-- Two schedulers for a form have the same own pipelines, up to what these are doing. -/
theorem perm_own {s' : Scheduler} (hs : Subscribed f s) (hs' : Subscribed f s') :
    (s.own.map OwnPipelines.outline).Perm (s'.own.map OwnPipelines.outline) :=
  (List.perm_ext_iff_of_nodup hs.nodup_outlines hs'.nodup_outlines).2 fun o =>
    (hs.mem_outlines o).trans (hs'.mem_outlines o).symm

/-- How many tasks there are is read off the outlines, in any order. -/
private theorem ownCount_congr {s' : Scheduler}
    (h : (s.own.map OwnPipelines.outline).Perm (s'.own.map OwnPipelines.outline)) :
    s.ownCount = s'.ownCount := by
  have hcount : ∀ o : OwnPipelines, o.outline.count = o.count := by
    rintro ⟨control, editability, inquiry⟩
    cases editability <;> cases inquiry <;> rfl
  have hsum : ∀ t : Scheduler,
      t.ownCount = ((t.own.map OwnPipelines.outline).map OwnPipelines.count).sum := fun t => by
    have hmap : (t.own.map OwnPipelines.outline).map OwnPipelines.count =
        t.own.map OwnPipelines.count := by
      rw [List.map_map]
      exact List.map_congr_left fun o _ => hcount o
    rw [hmap, ownCount, List.sum_eq_foldr, List.foldr_map]
  rw [hsum, hsum]
  exact (h.map _).sum_nat

theorem exists_owned (hs : Subscribed f s) {control : ControlId} {p : Property}
    (hp : f.property? control = some p) : ∃ o ∈ s.own, o.control = control ∧
      o.editability.isSome = !(p.editTests.isEmpty && p.viewTests.isEmpty) ∧
      o.inquiry.isSome = p.validTests.any Test.hasInquiry := by
  obtain ⟨o, ho⟩ : ∃ o, s.own? control = some o := by
    have howned := hs.own control
    rw [ownOf?, hp] at howned
    obtain ⟨o, ho, -⟩ := Option.map_eq_some_iff.1 howned
    exact ⟨o, ho⟩
  have heditability := congrArg Option.isSome (hs.editability? hp)
  have hinquiry := congrArg Option.isSome (hs.inquiry? hp)
  rw [Scheduler.editability?, ho, Option.bind_some, Option.isSome_map] at heditability
  rw [Scheduler.inquiry?_eq, ho, Option.bind_some, Option.isSome_map] at hinquiry
  refine ⟨o, mem_own_of_own? ho, control_of_own? ho, ?_, ?_⟩
  · rw [heditability]
    split
    · rename_i hnone
      simp [hnone]
    · rename_i hsome
      rw [Option.isSome_some, eq_comm, Bool.not_eq_true', ← Bool.not_eq_true, Bool.and_eq_true]
      exact hsome
  · rw [hinquiry]
    split
    · rename_i hany
      exact hany.symm
    · rename_i hnone
      exact (Bool.eq_false_iff.2 hnone).symm

theorem live (hs : Subscribed f s) {q : ChangePipeline} (hq : q ∈ s.dependencies) :
    f.contains q.control = true ∧ f.contains q.watched = true := by
  have hmem : q.outline ∈ (f.controls.flatMap (dependenciesOf f)).map ChangePipeline.outline :=
    hs.dependencies ▸ List.mem_map_of_mem hq
  obtain ⟨q', hq', houtline⟩ := List.mem_map.1 hmem
  obtain ⟨hcontrol, hwatched, -⟩ := ChangePipeline.eq_of_outline houtline
  obtain ⟨id, hid, hq'⟩ := List.mem_flatMap.1 hq'
  obtain ⟨watched, reaction, -, hwatch⟩ := mem_dependenciesOf.1 hq'
  obtain ⟨hlive, stream, -, rfl⟩ := watch?_eq_some hwatch
  exact ⟨hcontrol ▸ mem_controls.1 hid, hwatched ▸ hlive⟩

theorem upToDate (hs : Subscribed f s) : UpToDate f s where
  dependencies := hs.dependencies
  own := hs.perm_own (.attach f)
  dependencyCount := by
    have hlength := congrArg List.length (hs.dependencies.trans (attach f).dependencies.symm)
    rwa [List.length_map, List.length_map] at hlength
  ownCount := ownCount_congr (hs.perm_own (.attach f))
  watched control reaction :=
    ⟨_, (pathsInto_spec f control reaction f.controls).1,
      (pathsInto_spec f control reaction f.controls).2, hs.map_watched control reaction⟩
  owned _ _ hp := hs.exists_owned hp
  once := hs.nodup
  live _ hq := hs.live hq
  ownLive o ho := by
    have howned := hs.own o.control
    rw [own?_of_mem hs.nodup ho, Option.map_some] at howned
    obtain ⟨o', ho', -⟩ := Option.map_eq_some_iff.1 howned.symm
    obtain ⟨p, hp, -⟩ := Option.map_eq_some_iff.1 ho'
    exact ⟨p, hp⟩

end Subscribed

end Scheduler

/-! ## Pipelines that go on -/

/-- What becomes of a pipeline that runs checks: its watcher makes steps on the stream. -/
inductive ChangePipeline.Becomes (f : Form) (p : ChangePipeline) : ChangePipeline → Prop where
  | refl : Becomes f p p
  | move {q : ChangePipeline} {stream : Stream Json} {now : Nat} {y : Option Json} {w : Watcher}
      (h : Becomes f p q) (hstream : f.changes? q.watched = some stream)
      (hmove : q.watcher.Move now stream y w) : Becomes f p { q with watcher := w }

/-- What becomes of an inquiry pipeline. -/
inductive InquiryPipeline.Becomes (f : Form) (p : InquiryPipeline) : InquiryPipeline → Prop where
  | refl : Becomes f p p
  /-- An inquiry is requested. -/
  | request {q : InquiryPipeline} (h : Becomes f p q) :
      Becomes f p { q with requests := q.requests + 1 }
  /-- Time passes. -/
  | tick {q : InquiryPipeline} (h : Becomes f p q) (now : Nat) : Becomes f p (q.tick now)
  /-- A trigger is taken. -/
  | take {q q' : InquiryPipeline} {stream : Stream Json} (h : Becomes f p q)
      (hstream : f.changes? q.control = some stream) (htakes : q.Takes stream q')
      (phase : InquiryPhase) : Becomes f p { q' with phase }
  /-- What the pipeline was waiting for is there. -/
  | turn {q : InquiryPipeline} (h : Becomes f p q) {phase : InquiryPhase}
      (hlt : phase.weight < q.phase.weight) : Becomes f p { q with phase }

theorem ChangePipeline.Becomes.trans {f g : Form} {p q r : ChangePipeline} (h : p.Becomes f q)
    (h' : q.Becomes g r) (hsame : ∀ id, g.changes? id = f.changes? id) : p.Becomes f r := by
  induction h' with
  | refl => exact h
  | move _ hstream hmove ih => exact .move ih (hsame _ ▸ hstream) hmove

theorem InquiryPipeline.Becomes.trans {f g : Form} {p q r : InquiryPipeline} (h : p.Becomes f q)
    (h' : q.Becomes g r) (hsame : ∀ id, g.changes? id = f.changes? id) : p.Becomes f r := by
  induction h' with
  | refl => exact h
  | request _ ih => exact .request ih
  | tick _ now ih => exact .tick ih now
  | take _ hstream htakes phase ih => exact .take ih (hsame _ ▸ hstream) htakes phase
  | turn _ hlt ih => exact .turn ih hlt

namespace Engine

variable {e e' e'' : Engine} {control : ControlId} {race : Race}

/-- The own pipelines of a control go on. -/
structure GoesOn (control : ControlId) (e e' : Engine) : Prop where
  editability : ∀ {q}, e.scheduler.editability? control = some q →
    ∃ q', e'.scheduler.editability? control = some q' ∧ q.Becomes e.form q'
  inquiry : ∀ {p}, e.scheduler.inquiry? control = some p →
    ∃ p', e'.scheduler.inquiry? control = some p' ∧ p.Becomes e.form p'

namespace GoesOn

theorem trans (h : GoesOn control e e') (h' : GoesOn control e' e'')
    (hdoc : Form.SameDocument e'.form e.form) : GoesOn control e e'' where
  editability hq := by
    obtain ⟨q', hq', hbecomes⟩ := h.editability hq
    obtain ⟨q'', hq'', hbecomes'⟩ := h'.editability hq'
    exact ⟨q'', hq'', hbecomes.trans hbecomes' hdoc.changes⟩
  inquiry hp := by
    obtain ⟨p', hp', hbecomes⟩ := h.inquiry hp
    obtain ⟨p'', hp'', hbecomes'⟩ := h'.inquiry hp'
    exact ⟨p'', hp'', hbecomes.trans hbecomes' hdoc.changes⟩

theorem of_own? (hown : e'.scheduler.own? control = e.scheduler.own? control) :
    GoesOn control e e' where
  editability hq := ⟨_, (congrArg (·.bind OwnPipelines.editability) hown).trans hq, .refl⟩
  inquiry hp := ⟨_, (congrArg (·.bind OwnPipelines.inquiry) hown).trans hp, .refl⟩

theorem tick (e : Engine) (control : ControlId) (now : Nat) :
    GoesOn control e (e.tick now) where
  editability hq := ⟨_, (editability?_tick e now control).trans hq, .refl⟩
  inquiry {p} hp := ⟨p.tick now, by rw [inquiry?_tick, hp, Option.map_some], .tick .refl now⟩

/-- An inquiry of a control is requested. -/
private theorem exists_requested {asked : Prop} [Decidable asked] {p : InquiryPipeline}
    {found : Option InquiryPipeline}
    (hfound : found = if asked then
      (e.scheduler.inquiry? control).map fun p => { p with requests := p.requests + 1 }
      else e.scheduler.inquiry? control)
    (hp : e.scheduler.inquiry? control = some p) : ∃ p', found = some p' ∧ p.Becomes e.form p' := by
  rw [hfound, hp]
  split
  · exact ⟨_, rfl, .request .refl⟩
  · exact ⟨_, rfl, .refl⟩

theorem force (e : Engine) (control id : ControlId) : GoesOn control e (e.force id) where
  editability hq := ⟨_, (editability?_force e id control).trans hq, .refl⟩
  inquiry hp := exists_requested (inquiry?_force e id control) hp

theorem react (e : Engine) (control other : ControlId) (reaction : Reaction) :
    GoesOn control e (e.react other reaction) where
  editability hq := ⟨_, (editability?_react e other reaction control).trans hq, .refl⟩
  inquiry hp := exists_requested (inquiry?_react e other reaction control) hp

theorem reactIf (e : Engine) (control : ControlId) (p : ChangePipeline) (y : Option Json) :
    GoesOn control e (e.reactIf p y.isSome) := by
  cases y with
  | none => exact .of_own? rfl
  | some v => exact .react e control p.control p.reaction

/-- The watcher of a pipeline that runs checks moves. -/
theorem changeStep {p : ChangePipeline} {y : Option Json} {w : Watcher} {s : Scheduler}
    (h : e.ChangeStep p y w s) (control : ControlId) :
    GoesOn control e ({ e with scheduler := s }.reactIf { p with watcher := w } y.isSome) := by
  have hmoved : GoesOn control e { e with scheduler := s } := by
    refine ⟨fun {q} hq => ?_, fun hp => ⟨_, (h.inquiry control).trans hp, .refl⟩⟩
    obtain ⟨q', hq', -⟩ := Option.map_eq_some_iff.1
      ((h.outline.editability? control).trans (congrArg (Option.map _) hq))
    refine ⟨q', hq', ?_⟩
    rcases h.editability control q' hq' with ⟨rfl, hp⟩ | hsame
    · rw [hq] at hp
      cases hp
      obtain ⟨stream, hstream, hmove⟩ := h.move
      exact .move .refl hstream hmove
    · rw [hq] at hsame
      cases hsame
      exact .refl
  exact hmoved.trans (reactIf { e with scheduler := s } control _ y) (.refl e.form)

theorem step (h : e.Sound) {r : PipelineRef} (hstep : e.step? r race = some e')
    (control : ControlId) : GoesOn control e e' := by
  cases r with
  | dependency i =>
      obtain ⟨p, y, w, s, hchange, rfl⟩ := changeStep_of_stepDependency? hstep
      exact changeStep hchange control
  | editability id =>
      obtain ⟨p, y, w, s, hchange, rfl⟩ := changeStep_of_stepEditability? hstep
      exact changeStep hchange control
  | inquiry id =>
      obtain ⟨p, stream, hp, hstream, hinquiry⟩ := inquiryStep_of_stepInquiry? hstep
      obtain ⟨rfl, stream', hstream', -, hopen, -⟩ := h.inquiry hp
      rw [hstream] at hstream'
      cases hstream'
      have frame := hinquiry.frame hp
      refine ⟨fun hq => ⟨_, (frame.editability control).trans hq, .refl⟩, fun {q} hq => ?_⟩
      by_cases hid : control = p.control
      · subst hid
        rw [hp] at hq
        cases hq
        obtain ⟨p', phase, hused, -, hp'⟩ := hinquiry.exists_inquiry? hp hopen
        refine ⟨_, hp', ?_⟩
        rcases hused with htakes | ⟨rfl, hlt⟩
        · exact .take .refl hstream htakes phase
        · exact .turn .refl hlt
      · exact ⟨q, (frame.inquiry control hid).trans hq, .refl⟩

/-- However much time passes, the own pipelines go on. -/
theorem advance (h : e.Sound) (control : ControlId) (ms : Nat) :
    GoesOn control e (e.advance ms) := by
  have hrun : (e.advance ms).Sound ∧ Form.SameDocument (e.advance ms).form e.form ∧
      GoesOn control e (e.advance ms) := by
    refine runWithin_induction (I := fun e' =>
      e'.Sound ∧ Form.SameDocument e'.form e.form ∧ GoesOn control e e') ?_ ?_ _ _ none
      ⟨h, .refl e.form, .of_own? rfl⟩
    · rintro e₁ e₂ r race ⟨hsound, hdoc, hgoes⟩ hstep
      exact ⟨hsound.step hstep, (sameDocument_step hsound hstep).trans hdoc,
        hgoes.trans (.step hsound hstep control) hdoc⟩
    · rintro e₁ now ⟨hsound, hdoc, hgoes⟩
      exact ⟨hsound.tick now, hdoc, hgoes.trans (.tick e₁ control now) hdoc⟩
  exact hrun.2.2

/-- A rebuild leaves the own pipelines of a control that stays as they are. -/
theorem own?_rebuild (e : Engine) {g : Form} {o : OwnPipelines}
    (ho : e.scheduler.own? control = some o) (hid : g.contains control = true) :
    (e.scheduler.rebuild g).own? control = some o := by
  rw [Scheduler.own?_rebuild, if_pos hid, ho, Option.some_or]

end GoesOn

end Engine

end ReactiveForm
