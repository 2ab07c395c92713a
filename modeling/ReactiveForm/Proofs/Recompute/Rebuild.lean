import ReactiveForm.Proofs.Recompute.Fit
import ReactiveForm.Proofs.Recompute.Sound

/-!
# Making pipelines anew

A rebuild makes all pipelines for dependencies anew. A new pipeline has received nothing and owes
nothing: it is not behind (`not_behind_of_mem_rebuild`), whatever the one that it replaces had
before it. The pipelines for own changes stay with their controls. If the streams of the form are in
order, all pipelines fit them afterwards (`Engine.Sound.rebuild`).
-/

namespace ReactiveForm

namespace Scheduler

variable {s : Scheduler} {f : Form} {id control watched : ControlId} {reaction : Reaction}
  {settings : ChangeSettings}

/-- A new pipeline fits its stream. -/
theorem sound_of_watch? (streams : f.SoundStreams) {q : ChangePipeline}
    (hq : watch? f control watched reaction settings = some q) :
    q.watched = watched ∧ q.Sound f := by
  obtain ⟨hwatched, stream, hs, rfl⟩ := watch?_eq_some hq
  exact ⟨rfl, stream, hs, streams.sound hs, streams.closed hwatched hs, .create stream settings⟩

theorem sound_of_ownOf? (streams : f.SoundStreams) {o : OwnPipelines} (ho : ownOf? f id = some o) :
    (∀ q, o.editability = some q → q.watched = id ∧ q.Sound f) ∧
      ∀ p, o.inquiry = some p → p.control = id ∧ p.Sound f := by
  obtain ⟨property, hproperty, rfl⟩ := Option.map_eq_some_iff.1 ho
  refine ⟨fun q hq => ?_, fun p hp => ?_⟩
  · exact sound_of_watch? streams (Option.ite_none_left_eq_some.1 hq).2
  · obtain ⟨-, hp⟩ := Option.ite_none_right_eq_some.1 hp
    obtain ⟨stream, hs, rfl⟩ := Option.map_eq_some_iff.1 hp
    have hclosed := streams.closed (contains_of_property? hproperty) hs
    exact ⟨rfl, stream, hs, streams.sound hs, hclosed, Nat.le_refl _, by simp⟩

/-- A new pipeline has nothing before it. -/
theorem not_behind_of_watch? {q : ChangePipeline}
    (hq : watch? f control watched reaction settings = some q) : ¬ q.Behind f := by
  obtain ⟨-, stream, hs, rfl⟩ := watch?_eq_some hq
  rintro ⟨stream', hs', hbehind⟩
  rw [hs] at hs'
  cases hs'
  exact Watcher.not_behind_create stream _ hbehind

/-- A new pipeline has not yielded anything. -/
theorem last_of_watch? {q : ChangePipeline}
    (hq : watch? f control watched reaction settings = some q) : q.watcher.last = none := by
  obtain ⟨-, stream, -, heq⟩ := watch?_eq_some hq
  exact congrArg (·.watcher.last) heq

/-- A pipeline for a dependency has nothing before it after a rebuild. -/
theorem not_behind_of_mem_rebuild {q : ChangePipeline} (hq : q ∈ (s.rebuild f).dependencies) :
    ¬ q.Behind f := not_behind_of_watch? (watch?_of_mem_rebuild hq).2

end Scheduler

namespace Engine

variable {e : Engine}

/-- Pipelines that are made anew on a form whose streams are in order fit them, and so do those that
stay, because the streams of their controls have stayed. -/
theorem Sound.rebuild (h : e.Sound) {g : Form} (streams : g.SoundStreams)
    (hkept : ∀ {id s}, g.contains id = true → e.form.changes? id = some s →
      g.changes? id = some s) :
    { e with form := g, scheduler := e.scheduler.rebuild g }.Sound := by
  refine ⟨fun q hq => ?_, fun {id q} hq => ?_, fun {id p} hp => ?_⟩
  · exact (Scheduler.sound_of_watch? streams (Scheduler.watch?_of_mem_rebuild hq).2).2
  · -- the pipelines for own changes are the former ones, on a stream that has stayed, or new
    obtain ⟨o, ho, hedit⟩ := Option.bind_eq_some_iff.1 hq
    rcases Scheduler.own?_rebuild_cases ho with ⟨hold, hid⟩ | hnew
    · obtain ⟨rfl, stream, hs, hsound⟩ :=
        h.editability (Option.bind_eq_some_iff.2 ⟨o, hold, hedit⟩)
      exact ⟨rfl, stream, hkept hid hs, hsound⟩
    · exact (Scheduler.sound_of_ownOf? streams hnew).1 q hedit
  · obtain ⟨o, ho, hinquiry⟩ := Option.bind_eq_some_iff.1 hp
    rcases Scheduler.own?_rebuild_cases ho with ⟨hold, hid⟩ | hnew
    · obtain ⟨rfl, stream, hs, hsound⟩ :=
        h.inquiry (Option.bind_eq_some_iff.2 ⟨o, hold, hinquiry⟩)
      exact ⟨rfl, stream, hkept hid hs, hsound⟩
    · exact (Scheduler.sound_of_ownOf? streams hnew).2 p hinquiry

theorem Sound.empty (f : Form) (clock : Nat) (asked : List Rule) :
    Engine.Sound ⟨f, .empty, clock, asked⟩ := by
  refine ⟨fun q hq => ?_, fun {id q} hq => ?_, fun {id p} hp => ?_⟩
  · cases hq
  · cases hq
  · cases hp

/-- The pipelines of a new scheduler fit the streams. -/
theorem Sound.attach {f : Form} (streams : f.SoundStreams) (clock : Nat) (asked : List Rule) :
    Engine.Sound ⟨f, .attach f, clock, asked⟩ :=
  (Sound.empty f clock asked).rebuild streams fun _ hs => hs

end Engine

end ReactiveForm
