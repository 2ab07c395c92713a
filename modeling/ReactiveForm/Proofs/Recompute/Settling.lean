import ReactiveForm.Proofs.Recompute.Backlog

/-!
# Recomputation settles

While nobody touches a form, its pipelines make steps in some order and time passes in between
(`Elapses`). Each step uses up work, and a timer that runs out was running from the beginning or was
set by a step, so that both are bounded. The document stays, and nothing is published. What was done
and what there is left to do never grow together (`Elapses.spends`).

As long as a state is not settled there is a step or a timer (`Attached.goes_on`). So wherever one
stops, there is a moment after which nothing is left to do (`Attached.exists_isSettled`).
-/

namespace ReactiveForm

namespace Engine

variable {e e' e'' : Engine} {n k : Nat} {race : Race}

/-! ## Any number of steps -/

/-- Steps of pipelines in any order, with races that end in any way, and time that passes in
between: how many steps there were, and how many timers have run out. -/
inductive Elapses (e : Engine) : Nat → Nat → Engine → Prop where
  | refl : Elapses e 0 0 e
  | step {n k : Nat} {e' e'' : Engine} {r : PipelineRef} {race : Race} (h : Elapses e n k e')
      (hstep : e'.step? r race = some e'') : Elapses e (n + 1) k e''
  | tick {n k : Nat} {e' : Engine} {now : Nat} (h : Elapses e n k e') (hlater : e'.clock ≤ now) :
      Elapses e n (k + e'.expiries now) (e'.tick now)

/-- What was done and what there is still to do, compared with an engine of before. -/
structure Spends (e : Engine) (n k : Nat) (e' : Engine) : Prop where
  document : Form.SameDocument e'.form e.form
  steps : n + e'.work ≤ e.work
  timers : k + e'.timers ≤ n + e.timers
  passes : ∀ reaction, e'.allPasses reaction + e'.openPasses reaction ≤
    e.allPasses reaction + e.openPasses reaction
  evaluations : e'.allEvaluations + e'.openEvaluations + e.allPasses .validity ≤
    e.allEvaluations + e.openEvaluations + e'.allPasses .validity

namespace Spends

theorem refl (e : Engine) : e.Spends 0 0 e where
  document := .refl _
  steps := Nat.le_of_eq (Nat.zero_add _)
  timers := Nat.le_refl _
  passes _ := Nat.le_refl _
  evaluations := Nat.le_refl _

theorem step (hs : e.Spends n k e') (h : e'.Attached) {r : PipelineRef}
    (hstep : e'.step? r race = some e'') : e.Spends (n + 1) k e'' where
  document := (sameDocument_step h.sound hstep).trans hs.document
  steps := by
    have hlt := work_lt_of_step? h.nodup h.sound hstep
    have hsteps := hs.steps
    omega
  timers := by
    have hset := h.timers_le hstep
    have htimers := hs.timers
    omega
  passes reaction := Nat.le_trans (h.passes_le hstep reaction) (hs.passes reaction)
  evaluations := by
    have hmade := h.evaluations_le hstep
    have hevaluations := hs.evaluations
    omega

theorem tick (hs : e.Spends n k e') {now : Nat} (hlater : e'.clock ≤ now) :
    e.Spends n (k + e'.expiries now) (e'.tick now) where
  document := hs.document
  steps := by
    rw [work_tick]
    exact hs.steps
  timers := by
    have hrun := timers_tick_add_expiries hlater
    have htimers := hs.timers
    omega
  passes reaction := by
    rw [openPasses_tick]
    exact hs.passes reaction
  evaluations := by
    rw [openEvaluations_tick]
    exact hs.evaluations

end Spends

/-- However steps and time alternate, what was done and what there is still to do never grow
together. -/
theorem Elapses.spends (h : e.Attached) (hrun : e.Elapses n k e') :
    e'.Attached ∧ e.Spends n k e' := by
  induction hrun with
  | refl => exact ⟨h, .refl e⟩
  | step _ hstep ih => exact ⟨ih.1.step hstep, ih.2.step ih.1 hstep⟩
  | tick _ hlater ih => exact ⟨ih.1.tick _, ih.2.tick hlater⟩

/-- Running up to a later moment is one way in which steps and time alternate. -/
theorem Elapses.runWithin {m target : Nat} {last : Option PipelineRef} (h : e'.Attached)
    (hrun : e.Elapses n k e') (hlater : e'.clock ≤ target) :
    ∃ n' k', e.Elapses n' k' (runWithin m target last e') := by
  induction m generalizing last n k e' with
  | zero => exact ⟨_, _, hrun.tick hlater⟩
  | succ m ih =>
      unfold Engine.runWithin
      cases hnext : e'.next? last with
      | some next =>
          obtain ⟨r, e''⟩ := next
          have hstep := step?_of_next? hnext
          exact ih (h.step hstep) (hrun.step hstep) (clock_step h.sound hstep ▸ hlater)
      | none =>
          dsimp only
          cases hdue : e'.nextDeadline? with
          | none => exact ⟨_, _, hrun.tick hlater⟩
          | some deadline =>
              dsimp only
              split
              · rename_i hle
                have hcomes : e'.clock < deadline := clock_lt_of_mem_deadlines h.nodup h.sound
                  (next?_none_of_next? hnext) (List.min?_mem hdue)
                exact ih (h.tick deadline) (hrun.tick (Nat.le_of_lt hcomes)) hle
              · exact ⟨_, _, hrun.tick hlater⟩

theorem exists_elapses_advance (h : e.Attached) (ms : Nat) :
    ∃ n k, e.Elapses n k (e.advance ms) :=
  Elapses.runWithin h .refl (Nat.le_add_right e.clock ms)

/-! ## The end -/

/-- A pipeline that waits for a trigger makes no step while there is none. -/
theorem InquiryStep.not_waiting {p : InquiryPipeline} {s : Stream Json}
    (hstep : e.InquiryStep p s race e') (hs : s.Sound) (hopen : s.closed = false)
    (hzero : p.requests = 0) (hend : s.sent ≤ p.receiver) : p.phase ≠ .waiting := by
  have hnone : ∀ p', ¬ p.Takes s p' := by
    intro p' htakes
    have hunread := Stream.unread_of_sent_le hend
    have hused := htakes.unread_add_requests hs
    omega
  intro hphase
  cases hstep with
  | begin htakes => exact hnone _ htakes
  | supersede htakes => exact hnone _ htakes
  | decide hgathering => simp [hphase] at hgathering
  | complete hevaluating => simp [hphase] at hevaluating
  | finish hclosed => simp [hopen] at hclosed

namespace Attached

/-- Time brings nothing back. -/
theorem isSettled_tick (h : e.Attached) (hsettled : e.isSettled = true) (now : Nat) :
    (e.tick now).isSettled = true := by
  have hnext : (e.tick now).next? none = none := by
    refine Option.eq_none_iff_forall_ne_some.2 fun ⟨r, e'⟩ hnext => ?_
    cases (h.tick now).moves (step?_of_next? hnext) with
    | change hchange _ =>
        obtain ⟨s, hs, hsound, hopen, -, hmove⟩ := hchange.exists_move (h.sound.tick now)
        exact not_behind_of_isSettled hsettled h.sound ((watches_tick e now _).1 hchange.watches)
          ⟨s, hs, hmove.was_behind hsound hopen⟩
    | @inquiry p _ _ _ hstep hp _ _ _ =>
        obtain ⟨p₀, s, hp₀, hs, hinquiry⟩ := inquiryStep_of_stepInquiry? hstep
        rw [hp] at hp₀
        cases hp₀
        obtain ⟨-, s₀, hs₀, hsound, hopen, -⟩ := (h.sound.tick now).inquiry hp
        rw [hs] at hs₀
        cases hs₀
        rw [inquiry?_tick] at hp
        obtain ⟨q, hq, rfl⟩ := Option.map_eq_some_iff.1 hp
        obtain ⟨hphase, hzero, hread⟩ := waiting_of_isSettled hsettled h.sound hq
        have hsame : q.tick now = q := by rw [InquiryPipeline.tick, hphase]
        rw [hsame] at hs hinquiry
        have hend : s.sent ≤ q.receiver := Nat.le_of_not_lt fun hlt => hread ⟨s, hs, hlt⟩
        exact hinquiry.not_waiting hsound hopen hzero hend hphase
  have hdeadlines : (e.tick now).deadlines = [] :=
    (deadlines_tick e now).trans (deadlines_of_isSettled hsettled)
  rw [isSettled, hnext, hdeadlines]
  rfl

/-- What is not settled goes on, at once or when a timer has run out. -/
theorem goes_on (h : e.Attached) (hopen : e.isSettled = false) :
    (∃ r, ∀ race, ∃ e', e.step? r race = some e') ∨ 0 < e.timers := by
  cases hnext : e.next? none with
  | some next =>
      have hstep := step?_of_next? hnext
      refine .inl ⟨next.1, fun race => Option.ne_none_iff_exists'.1 fun hnone => ?_⟩
      rw [step?_eq_none_of_race hnone] at hstep
      cases hstep
  | none =>
      have hdeadlines : e.deadlines ≠ [] := by
        intro hnil
        simp [isSettled, hnext, hnil] at hopen
      obtain ⟨deadline, hmem⟩ := List.exists_mem_of_ne_nil _ hdeadlines
      have hcomes := clock_lt_of_mem_deadlines h.nodup h.sound hnext hmem
      exact .inr (List.countP_pos_iff.2 ⟨deadline, hmem, decide_eq_true hcomes⟩)

theorem exists_isSettled_runWithin {last : Option PipelineRef} (h : e.Attached)
    (hn : e.Affords last n) :
    ∃ enough, ∀ target, enough ≤ target → (runWithin n target last e).isSettled = true := by
  induction n generalizing last e with
  | zero => exact absurd hn (not_affords_zero h.nodup h.sound last)
  | succ n ih =>
      cases hnext : e.next? last with
      | some next =>
          have hstep := step?_of_next? hnext
          obtain ⟨enough, hends⟩ := ih (h.step hstep) (hn.step h.nodup h.sound hstep)
          refine ⟨enough, fun target hle => ?_⟩
          rw [runWithin, hnext]
          exact hends target hle
      | none =>
          cases hdue : e.nextDeadline? with
          | none =>
              have hsettled : e.isSettled = true := by
                rw [isSettled, next?_none_of_next? hnext, List.min?_eq_none_iff.1 hdue]
                rfl
              refine ⟨0, fun target _ => ?_⟩
              rw [runWithin, hnext]
              dsimp only
              rw [hdue]
              exact h.isSettled_tick hsettled target
          | some deadline =>
              obtain ⟨enough, hends⟩ :=
                ih (h.tick deadline) (hn.tick h.nodup h.sound hnext hdue)
              refine ⟨max deadline enough, fun target hle => ?_⟩
              have hdeadline := Nat.le_trans (Nat.le_max_left deadline enough) hle
              rw [runWithin, hnext]
              dsimp only
              rw [hdue]
              dsimp only
              rw [if_pos hdeadline]
              exact hends target (Nat.le_trans (Nat.le_max_right deadline enough) hle)

/-- There is a moment after which nothing is left to do. -/
theorem exists_isSettled (h : e.Attached) :
    ∃ enough, ∀ ms, enough ≤ ms → (e.advance ms).isSettled = true := by
  obtain ⟨enough, hends⟩ := h.exists_isSettled_runWithin (.inl (Nat.lt_succ_self (2 * e.work)))
  exact ⟨enough, fun ms hle => hends _ (Nat.le_trans hle (Nat.le_add_left ms e.clock))⟩

end Attached

end Engine

end ReactiveForm
