import ReactiveForm.Proofs.Recompute.Passes
import ReactiveForm.Proofs.Recompute.Rebuild

/-!
# Values that are dropped

A watcher that asks for distinct values drops a value that equals the one that it yielded last. If
it has another value before it then, it goes on to that one. Otherwise the dropped value is the
newest one of its stream, and the watcher is not behind any more (`Watcher.Move.dropped?`).

The tests of a control may read the value of a dependency before the pipeline for it has come that
far. What was found there stays right as long as the pipeline is behind or the dependency has the
value that was read. The pipeline ceases to be behind without a reaction when it drops a value, and
this must be no other one than the one that was read (`Guards`).
-/

namespace ReactiveForm

namespace Watcher

variable {w w' : Watcher} {now : Nat} {s : Stream Json} {v : Json} {receiver : Nat}

/-- The value that the next step of a watcher yields or drops, if it does one of the two, and the
receiver behind the step. -/
def offered? (w : Watcher) (now : Nat) (s : Stream Json) : Option (Json × Nat) :=
  match s.next? w.receiver, w.phase with
  | some next, _ => if w.settings.debounce = 0 then some next else none
  | none, .gathering latest deadline =>
    if deadline ≤ now then some (latest, w.receiver) else none
  | none, _ => none

/-- The value that the next step of a watcher drops with no other value before it. -/
def dropped? (w : Watcher) (now : Nat) (s : Stream Json) : Option Json :=
  (w.offered? now s).bind fun (v, receiver) =>
    if w.ignores v = true ∧ s.next? receiver = none then some v else none

theorem Offers.offered?_eq (h : Offers w now s v receiver) :
    w.offered? now s = some (v, receiver) := by
  cases h with
  | value hnext hzero => simp [offered?, hnext, hzero]
  | burst hphase hdue hnone => simp [offered?, hphase, hdue, hnone]

/-- A watcher that is not behind after a step that yields nothing has dropped the newest value. -/
theorem Move.dropped? (hs : s.Sound) (hopen : s.closed = false) (hw : w.Sound s)
    (h : Move w now s none w') (hnot : ¬ w'.Behind s) :
    ∃ v, w.dropped? now s = some v ∧ w.ignores v = true ∧ s.newest? = some v := by
  cases h with
  | gather => exact absurd (.inr ⟨_, _, rfl⟩) hnot
  | finish hclosed => simp [hopen] at hclosed
  | @ignore v receiver hoffer hold =>
      have hle := hoffer.receiver_le hs hw
      have hend : receiver = s.sent := by
        have hnlt : ¬ receiver < s.sent := fun hlt => hnot (.inl hlt)
        omega
      have hnone : s.next? receiver = none := (Stream.next?_eq_none_iff hs).2 (by omega)
      refine ⟨v, ?_, hold, hoffer.newest? hs hw hend⟩
      simp [Watcher.dropped?, hoffer.offered?_eq, hold, hnone]

end Watcher

namespace ChangePipeline

variable {f g past : Form} {q : ChangePipeline} {upcoming upcoming' : Json → Prop}

/-- A pipeline guards what was found on an earlier form. It is behind, or what it watches has the
value of then, as far as the pipeline tells values apart. Of that value it is known that the
pipeline is going to drop no other one, unless it has yielded nothing so far and so drops nothing.
-/
structure Guards (f : Form) (q : ChangePipeline) (past : Form) (upcoming : Json → Prop) :
    Prop where
  behind_or : q.Behind f ∨ q.watcher.settings.Equates (past.value q.watched) (f.value q.watched)
  drops : q.watcher.last = none ∨ upcoming (past.value q.watched)

namespace Guards

/-- The present value is guarded if the pipeline is going to drop no other one. -/
theorem read (h : q.watcher.last = none ∨ upcoming (f.value q.watched)) : q.Guards f f upcoming :=
  ⟨.inr (.refl _ _), h⟩

theorem document (h : q.Guards f past upcoming) (d : Form.SameDocument g f) :
    q.Guards g past upcoming where
  behind_or := by
    rw [d.value]
    exact h.behind_or.imp_left fun h => h.congr (d.changes _)
  drops := h.drops

theorem imp (h : q.Guards f past upcoming) (himp : ∀ v, upcoming v → upcoming' v) :
    q.Guards f past upcoming' :=
  ⟨h.behind_or, h.drops.imp_right (himp _)⟩

/-- A new value of the control leaves the pipeline behind. -/
theorem set (h : q.Guards f past upcoming) (sound : f.SoundTree) (hq : q.Sound f) {id : ControlId}
    {v : Json} (hset : f.setValue id v = .ok g) : q.Guards g past upcoming where
  behind_or := by
    by_cases hmem : q.watched ∈ f.lineage id
    · exact .inl (hq.behind_of_sendTimes (List.count_pos_iff.2 hmem)
        (Form.changes?_of_setValue hset q.watched))
    · rw [Form.value_of_setValue hset sound hmem]
      exact h.behind_or.imp_left fun h => h.congr (Form.changes?_of_notMem_lineage hset hmem)
  drops := h.drops

/-- A step that yields nothing leaves the pipeline behind, or it drops the value that was read. -/
theorem move {w : Watcher} {now : Nat} {stream : Stream Json} (h : q.Guards f past upcoming)
    (hq : q.Sound f) (published : f.Published) (hstream : f.changes? q.watched = some stream)
    (hmove : q.watcher.Move now stream none w)
    (hdrop : ∀ v u, upcoming v → q.watcher.dropped? now stream = some u → (v == u) = true) :
    { q with watcher := w }.Guards f past upcoming := by
  obtain ⟨stream', hstream', hs, hopen, hw⟩ := hq
  rw [hstream] at hstream'
  cases hstream'
  refine ⟨?_, ?_⟩
  · by_cases hbehind : { q with watcher := w }.Behind f
    · exact .inl hbehind
    · obtain ⟨u, hdropped, hold, hnewest⟩ :=
        hmove.dropped? hs hopen hw fun hw => hbehind ⟨stream, hstream, hw⟩
      rw [Watcher.ignores, Bool.and_eq_true] at hold
      -- what is dropped equals a value that was yielded, so there is one
      have hupcoming : upcoming (past.value q.watched) := by
        refine h.drops.resolve_left fun hlast => ?_
        rw [hlast] at hold
        cases hold.2
      have hsame := hdrop _ u hupcoming hdropped
      rw [published.newest hstream hnewest] at hsame
      dsimp only
      rw [hmove.settings]
      exact .inr (.inr ⟨hold.1, hsame⟩)
  · dsimp only
    rw [hmove.last_of_none]
    exact h.drops

end Guards

end ChangePipeline

namespace Engine

variable {e e' : Engine} {control : ControlId} {past : Form}
  {upcoming upcoming' : Nat → Json → Prop} {race : Race}

/-- The value that the pipeline at a place drops in its next step, with no other value before it. -/
def dropped? (e : Engine) (place : Nat) : Option Json :=
  e.scheduler.dependencies[place]?.bind fun q =>
    (e.form.changes? q.watched).bind fun stream => q.watcher.dropped? e.clock stream

/-- The pipelines of a control for the dependencies of its validity guard what was found on an
earlier form. What they are going to drop is given by their places. -/
def Guards (e : Engine) (control : ControlId) (past : Form) (upcoming : Nat → Json → Prop) : Prop :=
  ∀ (i : Nat) (q : ChangePipeline), e.scheduler.dependencies[i]? = some q →
    q.control = control → q.reaction = .validity → q.Guards e.form past (upcoming i)

namespace Guards

/-- The present form is guarded if the pipelines are going to drop none but its values. -/
theorem read (h : ∀ (i : Nat) (q : ChangePipeline), e.scheduler.dependencies[i]? = some q →
    q.control = control → q.reaction = .validity → upcoming i (e.form.value q.watched)) :
    e.Guards control e.form upcoming := fun i q hq hcontrol hreaction =>
  .read (.inr (h i q hq hcontrol hreaction))

/-- A scheduler that is attached has yielded nothing so far. -/
theorem attach (f : Form) (clock : Nat) (asked : List Rule) :
    (Engine.mk f (.attach f) clock asked).Guards control f upcoming := fun _ _ hq _ _ =>
  .read (.inl (Scheduler.last_of_watch? (Scheduler.watch?_of_mem_rebuild
    (List.mem_of_getElem? hq)).2))

theorem imp (h : e.Guards control past upcoming) (himp : ∀ i v, upcoming i v → upcoming' i v) :
    e.Guards control past upcoming' := fun i q hq hcontrol hreaction =>
  (h i q hq hcontrol hreaction).imp (himp i)

theorem document (h : e.Guards control past upcoming) (hdoc : Form.SameDocument e'.form e.form)
    (hdeps : e'.scheduler.dependencies = e.scheduler.dependencies) :
    e'.Guards control past upcoming := fun i q hq hcontrol hreaction =>
  (h i q (hdeps ▸ hq) hcontrol hreaction).document hdoc

theorem set (h : e.Guards control past upcoming) (fit : e.Fit) {id : ControlId} {v : Json}
    {f : Form} (hset : e.form.setValue id v = .ok f) :
    { e with form := f }.Guards control past upcoming := fun i q hq hcontrol hreaction =>
  (h i q hq hcontrol hreaction).set fit.tree
    (fit.sound.dependency q (List.mem_of_getElem? hq)) hset

/-- A step by which the control makes no pass of its validity. -/
theorem step (h : e.Guards control past upcoming) (fit : e.Fit) (published : e.form.Published)
    {r : PipelineRef} (hstep : e.step? r race = some e')
    (hquiet : e'.passes control .validity = e.passes control .validity)
    (hdrop : ∀ i, r = .dependency i → ∀ v u, upcoming i v → e.dropped? i = some u →
      (v == u) = true) :
    e'.Guards control past upcoming := by
  cases r with
  | dependency i =>
      obtain ⟨p, y, w, s, hchange, rfl, hp, rfl⟩ := exists_changeStep_of_stepDependency? hstep
      obtain ⟨stream, hstream, hmove⟩ := hchange.move
      have hdoc := sameDocument_reactIf { e with
        scheduler := { e.scheduler with
          dependencies := e.scheduler.dependencies.set i { p with watcher := w } } }
        { p with watcher := w } y
      intro j q hq hcontrol hreaction
      rw [dependencies_reactIf, List.getElem?_set] at hq
      split at hq
      · -- the pipeline that has moved has yielded nothing
        rename_i hij
        subst hij
        rw [if_pos (List.getElem?_eq_some_iff.1 hp).1] at hq
        cases hq
        obtain rfl : y = none := hchange.eq_none_of_passes hquiet hcontrol hreaction
        have hsound := fit.sound.dependency p (List.mem_of_getElem? hp)
        have hdropped : e.dropped? i = p.watcher.dropped? e.clock stream := by
          rw [dropped?, hp, Option.bind_some, hstream, Option.bind_some]
        exact ((h i p hp hcontrol hreaction).move hsound published hstream hmove
          (hdropped ▸ hdrop i rfl)).document hdoc
      · exact (h j q hq hcontrol hreaction).document hdoc
  | editability id =>
      obtain ⟨p, y, w, s, -, rfl, -, rfl⟩ := exists_changeStep_of_stepEditability? hstep
      exact h.document (sameDocument_reactIf _ _ y) (dependencies_reactIf _ _ _)
  | inquiry id =>
      obtain ⟨p, stream, hp, -, hinquiry⟩ := inquiryStep_of_stepInquiry? hstep
      obtain ⟨rfl, -⟩ := fit.sound.inquiry hp
      have frame := hinquiry.frame hp
      exact h.document frame.document frame.dependencies

/-- Where nothing is left to do, the dependencies have the values of the earlier form, as far as
their pipelines tell values apart. -/
theorem of_isSettled (h : e.Guards control past upcoming) (fit : e.Fit)
    (hsettled : e.isSettled = true) {d : ControlId}
    (hdep : Scheduler.DependsOn e.form control d .validity) :
    (e.form.policy control).dependencyValid.Equates (past.value d) (e.form.value d) := by
  obtain ⟨q, hq, rfl, rfl, hreaction⟩ :=
    fit.dependencies.complete hdep (fit.contains_of_dependsOn hdep)
  obtain ⟨i, hi⟩ := List.mem_iff_getElem?.1 hq
  have hsettings := fit.dependencies.settings q hq
  rw [hreaction] at hsettings
  rcases (h i q hi rfl hreaction).behind_or with hbehind | hequates
  · exact absurd hbehind (not_behind_of_isSettled hsettled fit.sound (.inl hq))
  · rwa [hsettings] at hequates

end Guards

end Engine

end ReactiveForm
