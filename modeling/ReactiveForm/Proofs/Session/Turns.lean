import ReactiveForm.Proofs.Recompute.Work
import ReactiveForm.Proofs.Session.Edits

/-!
# Time as a series of turns

Letting time pass consists of turns of single pipelines, and of waits in which only the clock moves.
`Session.turns` breaks up the operations of a run in this way, and the run that is broken up leads
to the same session (`run_turns`). What can be said about a moment in the middle of an operation is
said about the run that is broken up.
-/

namespace ReactiveForm

namespace Session

variable {s : Session} {e : Engine} {op first : Op} {n target : Nat} {last : Option PipelineRef}

/-- The turns and waits by which a form with a scheduler runs up to a moment. -/
def turnsWithin : Nat → Nat → Option PipelineRef → Engine → List Op
  | 0, target, _, e => [.wait (target - e.clock)]
  | n + 1, target, last, e =>
    match e.next? last with
    | some (r, e) => .turn r .usual :: turnsWithin n target (some r) e
    | none =>
      match e.nextDeadline? with
      | none => [.wait (target - e.clock)]
      | some deadline =>
        if deadline ≤ target then
          .wait (deadline - e.clock) :: turnsWithin n target none (e.tick deadline)
        else [.wait (target - e.clock)]

/-- An operation as a series of turns and waits, if it lets time pass. -/
def turnsOf (s : Session) : Op → List Op
  | .advance ms =>
    match s.engine? with
    | some e => turnsWithin (2 * e.work + 1) (e.clock + ms) none e
    | none => [.wait ms]
  | op => [op]

/-- A run with all operations that let time pass broken up. -/
def turns : Session → List Op → List Op
  | _, [] => []
  | s, op :: ops => s.turnsOf op ++ (s.apply op).turns ops

/-- Time is broken up into turns, whose races end as usual, and waits. -/
theorem mem_turnsWithin (hmem : op ∈ turnsWithin n target last e) :
    (∃ r, op = .turn r .usual) ∨ ∃ ms, op = .wait ms := by
  induction n generalizing last e with
  | zero => exact .inr ⟨_, List.mem_singleton.1 hmem⟩
  | succ n ih =>
      unfold turnsWithin at hmem
      split at hmem
      · rcases List.mem_cons.1 hmem with rfl | hmem
        · exact .inl ⟨_, rfl⟩
        · exact ih hmem
      · split at hmem
        · exact .inr ⟨_, List.mem_singleton.1 hmem⟩
        · split at hmem
          · rcases List.mem_cons.1 hmem with rfl | hmem
            · exact .inr ⟨_, rfl⟩
            · exact ih hmem
          · exact .inr ⟨_, List.mem_singleton.1 hmem⟩

theorem mem_turnsOf (hmem : op ∈ s.turnsOf first) :
    (op = first ∧ ∀ ms, op ≠ .advance ms) ∨ (∃ r, op = .turn r .usual) ∨ ∃ ms, op = .wait ms := by
  cases first with
  | advance ms =>
      cases he : s.engine? with
      | none =>
          simp only [turnsOf, he, List.mem_singleton] at hmem
          exact .inr (.inr ⟨ms, hmem⟩)
      | some e =>
          simp only [turnsOf, he] at hmem
          exact .inr (mem_turnsWithin hmem)
  | _ =>
      cases List.mem_singleton.1 hmem
      exact .inl ⟨rfl, fun ms heq => by cases heq⟩

/-- A run that is broken up consists of operations of the run, and of turns and waits in place of
the time that passes. -/
theorem mem_turns {ops : List Op} (hmem : op ∈ s.turns ops) :
    (op ∈ ops ∧ ∀ ms, op ≠ .advance ms) ∨ (∃ r, op = .turn r .usual) ∨ ∃ ms, op = .wait ms := by
  induction ops generalizing s with
  | nil => cases hmem
  | cons first ops ih =>
      rw [turns, List.mem_append] at hmem
      rcases hmem with hmem | hmem
      · refine (mem_turnsOf hmem).imp_left fun h => ⟨?_, h.2⟩
        rw [h.1]
        exact List.mem_cons_self
      · exact (ih hmem).imp_left fun h => ⟨List.mem_cons_of_mem _ h.1, h.2⟩

/-- A run that is broken up lets time pass in waits only. -/
theorem advance_not_mem_turns (s : Session) (ops : List Op) (ms : Nat) :
    .advance ms ∉ s.turns ops := by
  intro hmem
  rcases mem_turns hmem with ⟨-, hnot⟩ | ⟨r, heq⟩ | ⟨time, heq⟩
  · exact hnot ms rfl
  · cases heq
  · cases heq

/-- A quiet run is broken up into quiet operations. -/
theorem isQuiet_of_mem_turns {ops : List Op} (hquiet : ∀ op ∈ ops, op.isQuiet = true)
    (hmem : op ∈ s.turns ops) : op.isQuiet = true := by
  rcases mem_turns hmem with ⟨hmem, -⟩ | ⟨r, rfl⟩ | ⟨ms, rfl⟩
  · exact hquiet op hmem
  · rfl
  · rfl

/-- A run that keeps the scheduler is broken up into operations that keep it. -/
theorem keepsScheduler_of_mem_turns {ops : List Op}
    (hkeeps : ∀ op ∈ ops, op.keepsScheduler = true) (hmem : op ∈ s.turns ops) :
    op.keepsScheduler = true := by
  rcases mem_turns hmem with ⟨hmem, -⟩ | ⟨r, rfl⟩ | ⟨ms, rfl⟩
  · exact hkeeps op hmem
  · rfl
  · rfl

private theorem apply_wait (he : s.engine? = some e) (hle : e.clock ≤ target) :
    s.apply (.wait (target - e.clock)) = s.withEngine (e.tick target) := by
  simp only [apply, he, Nat.add_sub_cancel' hle]

theorem run_turnsWithin (he : s.engine? = some e) (h : e.Sound)
    (hnodup : (e.scheduler.own.map OwnPipelines.control).Nodup) (hle : e.clock ≤ target) :
    s.run (turnsWithin n target last e) = s.withEngine (Engine.runWithin n target last e) := by
  induction n generalizing s e last with
  | zero => exact apply_wait he hle
  | succ n ih =>
      unfold turnsWithin Engine.runWithin
      cases hnext : e.next? last with
      | some next =>
          obtain ⟨r, e'⟩ := next
          have hstep := Engine.step?_of_next? hnext
          have hturn : s.apply (.turn r .usual) = s.withEngine e' := by simp [apply, he, hstep]
          have hrest : (s.apply (.turn r .usual)).run (turnsWithin n target (some r) e') = _ :=
            ih (hturn ▸ engine?_withEngine s e') (h.step hstep)
              ((Engine.sameOutline_step h hstep).controls ▸ hnodup)
              (Engine.clock_step h hstep ▸ hle)
          exact hrest.trans (by rw [hturn]; rfl)
      | none =>
          dsimp only
          cases hdue : e.nextDeadline? with
          | none => exact apply_wait he hle
          | some deadline =>
              dsimp only
              split
              · rename_i hin
                -- the moment is still to come, or a pipeline could make a step
                have hahead : e.clock ≤ deadline := by
                  refine Nat.le_of_not_lt fun hlt => ?_
                  have hsome := Engine.isSome_next?_of_deadline hnodup h (List.min?_mem hdue)
                    (Nat.le_of_lt hlt)
                  rw [Engine.next?_none_of_next? hnext] at hsome
                  cases hsome
                have hwait := apply_wait he hahead
                have hrest : (s.apply (.wait (deadline - e.clock))).run
                    (turnsWithin n target none (e.tick deadline)) = _ :=
                  ih (hwait ▸ engine?_withEngine s _) (h.tick deadline)
                    ((Engine.sameOutline_tick e deadline).controls ▸ hnodup) hin
                exact hrest.trans (by rw [hwait]; rfl)
              · exact apply_wait he hle

/-- An operation that is broken up leads to the same session. -/
theorem run_turnsOf (h : s.Sound) (hs : s.Subscribed) (op : Op) :
    s.run (s.turnsOf op) = s.apply op := by
  cases op with
  | advance ms =>
      unfold turnsOf
      cases he : s.engine? with
      | none => simp [run, apply, advance, he]
      | some e =>
          simp only [apply, advance, he]
          exact run_turnsWithin he (h.serves he).sound (hs e he).nodup (Nat.le_add_right _ _)
  | _ => rfl

/-- A run that is broken up leads to the same session. -/
theorem run_turns (h : s.Sound) (hs : s.Subscribed) (ops : List Op) :
    s.run (s.turns ops) = s.run ops := by
  induction ops generalizing s with
  | nil => rfl
  | cons op ops ih =>
      rw [turns, run_append, run_turnsOf h hs]
      exact ih (sound_apply h op) (subscribed_apply h hs op)

theorem turns_append (s : Session) (ops more : List Op) :
    s.turns (ops ++ more) = s.turns ops ++ (s.run ops).turns more := by
  induction ops generalizing s with
  | nil => rfl
  | cons op ops ih =>
      rw [List.cons_append, turns, turns, ih (s.apply op), List.append_assoc]
      rfl

end Session

end ReactiveForm
