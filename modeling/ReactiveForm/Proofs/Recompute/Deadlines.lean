import ReactiveForm.Proofs.Recompute.Due
import ReactiveForm.Proofs.Recompute.Settling

/-!
# When all pipelines have yielded

A pipeline may let its moment pass without a yield, if it ignores repeated values. But no step and
no move of the clock puts a moment off: whatever a pipeline is going to do, it does by the latest of
the moments that there were (`Engine.DueBy`). The moments of all pipelines that run checks are at
most one debounce behind the last value that was sent (`DueBy.set`).

The deadlines of pipelines that wait are among these moments. So where no inquiries are made, a run
up to the latest moment leaves nothing to do (`Attached.advance_spec_of_dueBy`).
-/

namespace ReactiveForm

namespace Watcher

variable {w w' : Watcher} {s : Stream Json} {v : Json} {y : Option Json} {now last : Nat}

private theorem Offers.due?_le {receiver : Nat} {before : Option Json} (hs : s.Sound)
    (h : w.Offers now s v receiver)
    (hdue : ∀ moment, w.due? s now = some moment → moment ≤ last) :
    ∀ moment, ({ w with receiver, phase := .idle, last := before } : Watcher).due? s now =
      some moment → moment ≤ last := by
  intro moment hmoment
  unfold due? at hmoment
  split at hmoment
  · rename_i hlt
    cases hmoment
    refine hdue _ (due?_of_lt ?_ now)
    cases h with
    | value hnext => exact Nat.lt_trans (Stream.next?_bounds hs hnext).1 hlt
    | burst => exact hlt
  · cases hmoment

/-- No step puts off what the watcher is going to do. -/
theorem Move.due?_le (hs : s.Sound) (hopen : s.closed = false) (h : w.Move now s y w')
    (hdue : ∀ moment, w.due? s now = some moment → moment ≤ last) :
    ∀ moment, w'.due? s now = some moment → moment ≤ last := by
  cases h with
  | @gather v receiver hnext =>
      obtain ⟨hlt, hle⟩ := Stream.next?_bounds hs hnext
      have hbefore := hdue _ (due?_of_lt (Nat.lt_of_lt_of_le hlt hle) now)
      -- whether there is more to receive or not, the burst ends one debounce from now
      intro moment hmoment
      unfold due? at hmoment
      split at hmoment <;> cases hmoment <;> exact hbefore
  | yield hoffer => exact hoffer.due?_le hs hdue
  | ignore hoffer => exact hoffer.due?_le hs hdue
  | finish hclosed => simp [hopen] at hclosed

end Watcher

namespace Engine

variable {e e' : Engine} {last : Nat} {r : PipelineRef} {race : Race}

/-- Whatever the pipelines that run checks are going to do, they do by a moment. -/
def DueBy (e : Engine) (last : Nat) : Prop :=
  ∀ r moment, e.due? r = some moment → moment ≤ last

namespace DueBy

theorem attach (f : Form) (clock : Nat) (asked : List Rule) (last : Nat) :
    DueBy ⟨f, .attach f, clock, asked⟩ last := by
  intro r moment hdue
  rw [due?_attach] at hdue
  cases hdue

theorem step (h : e.DueBy last) (sound : e.Sound) (hstep : e.step? r race = some e') :
    e'.DueBy last := by
  have hchanges := (sameDocument_step sound hstep).changes
  have hclock := clock_step sound hstep
  intro other
  cases checkStep_of_step? sound hstep with
  | rests hpipelines _ =>
      rw [due?_congr (hpipelines other) hchanges hclock]
      exact h other
  | @moves moved _ _ _ _ hq hstream hs hopen hmove hpipelines _ =>
      by_cases heq : other = moved
      · have hafter := due?_eq ((hpipelines other).trans (if_pos heq)) ((hchanges _).trans hstream)
        rw [hafter, hclock]
        exact hmove.due?_le hs hopen fun moment hmoment =>
          h moved moment ((due?_eq hq hstream).trans hmoment)
      · rw [due?_congr ((hpipelines other).trans (if_neg heq)) hchanges hclock]
        exact h other

theorem tick (h : e.DueBy last) (sound : e.Sound) (hquiet : e.next? none = none) (now : Nat) :
    (e.tick now).DueBy last := by
  intro r
  rw [due?_tick sound hquiet]
  exact h r

/-- What is sent is dealt with within the longest debounce. -/
theorem set (h : e.DueBy last) (sound : e.Sound) {id : ControlId} {v : Json} {f : Form}
    (hset : e.form.setValue id v = .ok f)
    (hdebounce : ∀ q, e.scheduler.Watches q → e.clock + q.watcher.settings.debounce ≤ last) :
    ({ e with form := f } : Engine).DueBy last := by
  intro r moment hdue
  rw [due?_sendTimes sound (Form.changes?_of_setValue hset)] at hdue
  obtain ⟨q, hq, hdue⟩ := Option.bind_eq_some_iff.1 hdue
  obtain ⟨p, hp, rfl⟩ := Option.map_eq_some_iff.1 hq
  split at hdue
  · cases hdue
    exact hdebounce p (Scheduler.watches_of_change? hp)
  · exact h r moment hdue

end DueBy

/-! ## Pipelines that make no inquiries -/

/-- No control has a pipeline for inquiries. -/
def MakesNone (e : Engine) : Prop := ∀ id, e.scheduler.inquiry? id = none

theorem MakesNone.congr (h : e.MakesNone)
    (hsame : Scheduler.SameOutline e'.scheduler e.scheduler) : e'.MakesNone := by
  intro id
  have houtline := hsame.inquiry? id
  rwa [h id, Option.map_none, Option.map_eq_none_iff] at houtline

/-- The deadlines of pipelines that wait are moments at which they are due. -/
theorem DueBy.deadlines_le (h : e.DueBy last) (hattached : e.Attached) (hnone : e.MakesNone)
    (hquiet : e.next? none = none) : ∀ moment ∈ e.deadlines, moment ≤ last := by
  have hdue : ∀ r q, e.scheduler.change? r = some q → ∀ moment,
      q.watcher.deadline? = some moment → moment ≤ last := fun r q hq moment hmoment =>
    h r moment ((due?_of_next? hattached.sound hquiet hq e.clock).trans hmoment)
  intro moment hmoment
  rcases List.mem_append.1 hmoment with hmoment | hmoment
  · obtain ⟨q, hq, hmoment⟩ := List.mem_filterMap.1 hmoment
    obtain ⟨i, hi⟩ := List.mem_iff_getElem?.1 hq
    exact hdue (.dependency i) q hi moment hmoment
  · obtain ⟨o, ho, hmoment⟩ := List.mem_flatMap.1 hmoment
    have hown := Scheduler.own?_of_mem hattached.nodup ho
    rcases List.mem_append.1 hmoment with hmoment | hmoment
    · obtain ⟨q, hq, hmoment⟩ := Option.bind_eq_some_iff.1 (Option.mem_toList.1 hmoment)
      refine hdue (.editability o.control) q ?_ moment hmoment
      rw [Scheduler.change?, Scheduler.editability?, hown, Option.bind_some, hq]
    · obtain ⟨p, hp, -⟩ := Option.bind_eq_some_iff.1 (Option.mem_toList.1 hmoment)
      have hinquiry := hnone o.control
      rw [Scheduler.inquiry?_eq, hown, Option.bind_some, hp] at hinquiry
      cases hinquiry

/-- Letting time pass up to the moment by which all is done leaves nothing to do. What the steps and
the clock keep up on the way holds in a state that is settled, and then only the clock moves. -/
theorem Attached.advance_spec_of_dueBy {I : Engine → Prop} {ms : Nat} (h : e.Attached)
    (hnone : e.MakesNone) (hdue : e.DueBy last) (hlast : last ≤ e.clock + ms)
    (hstep : ∀ {e e' r race}, e.Attached → I e → e.step? r race = some e' → I e')
    (htick : ∀ {e} now, I e → I (e.tick now)) (he : I e) :
    ∃ e', e'.Attached ∧ I e' ∧ e'.isSettled = true ∧ e.advance ms = e'.tick (e.clock + ms) := by
  obtain ⟨e', ⟨h', hnone', hdue', he'⟩, hquiet, hlater, hadvance⟩ :=
    @advance_spec (fun e => e.Attached ∧ e.MakesNone ∧ e.DueBy last ∧ I e) e ms
      (fun h => h.1.sound) (fun h => h.1.nodup)
      (fun ⟨h, hnone, hdue, hI⟩ hs => ⟨h.step hs, hnone.congr (sameOutline_step h.sound hs),
        hdue.step h.sound hs, hstep h hI hs⟩)
      (fun now ⟨h, hnone, hdue, hI⟩ hquiet _ => ⟨h.tick now, hnone.congr (sameOutline_tick _ now),
        hdue.tick h.sound hquiet now, htick now hI⟩)
      ⟨h, hnone, hdue, he⟩
  have hnil : e'.deadlines = [] := List.eq_nil_iff_forall_not_mem.2 fun moment hmoment => by
    have hle := hdue'.deadlines_le h' hnone' hquiet moment hmoment
    have hlt := hlater moment hmoment
    omega
  refine ⟨e', h', he', ?_, hadvance⟩
  rw [isSettled, hquiet, hnil]
  rfl

end Engine

end ReactiveForm
