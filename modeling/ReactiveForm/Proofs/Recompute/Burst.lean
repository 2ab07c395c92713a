import ReactiveForm.Proofs.Json.Equality
import ReactiveForm.Proofs.Stream.Delivery
import ReactiveForm.Recompute.Burst

/-!
# What a watcher owes

A watcher owes a reaction as long as it has not received all values of its stream or is waiting for
the end of a burst: it is `Behind`. `move_of_step?` lists all that a step of a watcher can do. From
this follow the two facts that recomputation rests on:

* a watcher that does not ask for distinct values stays behind until it yields (`Move.behind`);
* a watcher that is not behind and has yielded something has yielded the newest value of its stream,
  or, if it asks for distinct values, one that equals it (`Sound.heard`).
-/

namespace ReactiveForm

/-- With these settings a document stands for another one: they are the same, or they are equal, so
the same up to the signs of zeros, and repeated values are ignored. -/
def ChangeSettings.Equates (settings : ChangeSettings) (v u : Json) : Prop :=
  v = u ∨ settings.distinct = true ∧ (v == u) = true

namespace ChangeSettings.Equates

variable {settings : ChangeSettings} {u v w : Json}

theorem refl (settings : ChangeSettings) (v : Json) : settings.Equates v v := .inl rfl

theorem symm (h : settings.Equates u v) : settings.Equates v u :=
  h.imp Eq.symm fun h => ⟨h.1, Json.beq_symm h.2⟩

theorem trans (h : settings.Equates u v) (h' : settings.Equates v w) : settings.Equates u w := by
  rcases h with rfl | ⟨hdistinct, huv⟩
  · exact h'
  · rcases h' with rfl | ⟨-, hvw⟩
    · exact .inr ⟨hdistinct, huv⟩
    · exact .inr ⟨hdistinct, Json.beq_trans huv hvw⟩

end ChangeSettings.Equates

namespace Watcher

variable {w w' : Watcher} {s : Stream Json} {v : Json} {y : Option Json} {now : Nat}

/-- The watcher has a value of its stream before it or is waiting for the end of a burst. -/
def Behind (w : Watcher) (s : Stream Json) : Prop :=
  w.receiver < s.sent ∨ ∃ v t, w.phase = .gathering v t

/-- What holds between a watcher and its stream as long as the stream is open. -/
structure Sound (w : Watcher) (s : Stream Json) : Prop where
  receiver_le : w.receiver ≤ s.sent
  not_ended : w.phase ≠ .ended
  /-- Without a debounce there are no bursts. -/
  at_once : w.settings.debounce = 0 → ∀ v t, w.phase ≠ .gathering v t
  /-- A burst that has been received completely ends with the newest value. -/
  burst : ∀ v t, w.phase = .gathering v t → w.receiver = s.sent → s.newest? = some v
  /-- Behind the last value that was yielded there is nothing else. -/
  heard : ¬ w.Behind s → ∀ v, w.last = some v → ∃ u, s.newest? = some u ∧ w.settings.Equates v u

/-! ## All that a step can do -/

/-- The watcher can yield a value, after which its receiver is at the given place. -/
inductive Offers (w : Watcher) (now : Nat) (s : Stream Json) (v : Json) : Nat → Prop where
  | value {receiver : Nat} (hnext : s.next? w.receiver = some (v, receiver))
      (hzero : w.settings.debounce = 0) : Offers w now s v receiver
  | burst {t : Nat} (hphase : w.phase = .gathering v t) (hdue : t ≤ now)
      (hnone : s.next? w.receiver = none) : Offers w now s v w.receiver

/-- A step of a watcher: what it yields and the watcher behind the step. -/
inductive Move (w : Watcher) (now : Nat) (s : Stream Json) : Option Json → Watcher → Prop where
  /-- The watcher takes a value and waits for the end of the burst. -/
  | gather {v : Json} {receiver : Nat} (hnext : s.next? w.receiver = some (v, receiver))
      (hpos : w.settings.debounce ≠ 0) :
      Move w now s none { w with receiver, phase := .gathering v (now + w.settings.debounce) }
  /-- The watcher yields a value. -/
  | yield {v : Json} {receiver : Nat} (hoffer : w.Offers now s v receiver)
      (hnew : w.ignores v = false) :
      Move w now s (some v) { w with receiver, phase := .idle, last := some v }
  /-- The watcher ignores a value. -/
  | ignore {v : Json} {receiver : Nat} (hoffer : w.Offers now s v receiver)
      (hold : w.ignores v = true) :
      Move w now s none { w with receiver, phase := .idle }
  /-- The stream has ended. -/
  | finish (hclosed : s.closed = true) (hnone : s.next? w.receiver = none)
      (hphase : w.phase ≠ .ended) : Move w now s none { w with phase := .ended }

private theorem eq_of_yield (hyield : w.yield v = (y, w')) :
    (w.ignores v = false ∧ y = some v ∧ w' = { w with phase := .idle, last := some v }) ∨
      (w.ignores v = true ∧ y = none ∧ w' = { w with phase := .idle }) := by
  unfold yield at hyield
  split at hyield
  · rename_i hold
    obtain ⟨rfl, rfl⟩ := Prod.mk.inj hyield
    exact .inr ⟨hold, rfl, rfl⟩
  · rename_i hnew
    obtain ⟨rfl, rfl⟩ := Prod.mk.inj hyield
    exact .inl ⟨by simpa using hnew, rfl, rfl⟩

private theorem move_of_take {receiver : Nat} (hnext : s.next? w.receiver = some (v, receiver))
    (htake : w.take now v receiver = (y, w')) : Move w now s y w' := by
  unfold take at htake
  dsimp only at htake
  split at htake
  · rename_i hzero
    obtain ⟨hnew, rfl, rfl⟩ | ⟨hold, rfl, rfl⟩ := eq_of_yield htake
    · exact .yield (.value hnext hzero) hnew
    · exact .ignore (.value hnext hzero) hold
  · rename_i hpos
    obtain ⟨rfl, rfl⟩ := Prod.mk.inj htake
    exact .gather hnext hpos

private theorem move_of_yield {t : Nat} (hphase : w.phase = .gathering v t) (hdue : t ≤ now)
    (hnone : s.next? w.receiver = none) (hyield : w.yield v = (y, w')) : Move w now s y w' := by
  obtain ⟨hnew, rfl, rfl⟩ | ⟨hold, rfl, rfl⟩ := eq_of_yield hyield
  · exact .yield (.burst hphase hdue hnone) hnew
  · exact .ignore (.burst hphase hdue hnone) hold

theorem move_of_step? (hstep : w.step? now s = some (y, w')) : Move w now s y w' := by
  unfold step? at hstep
  cases hphase : w.phase with
  | ended => simp [hphase] at hstep
  | idle =>
      rw [hphase] at hstep
      cases hnext : s.next? w.receiver with
      | some p =>
          simp only [hnext, Option.some.injEq] at hstep
          exact move_of_take hnext hstep
      | none =>
          simp only [hnext, Option.ite_none_right_eq_some] at hstep
          obtain ⟨hclosed, heq⟩ := hstep
          cases heq
          exact .finish hclosed hnext (by simp [hphase])
  | gathering latest t =>
      rw [hphase] at hstep
      cases hnext : s.next? w.receiver with
      | some p =>
          simp only [hnext, Option.some.injEq] at hstep
          exact move_of_take hnext hstep
      | none =>
          simp only [hnext] at hstep
          split at hstep
          · rename_i hclosed
            cases hstep
            exact .finish hclosed hnext (by simp [hphase])
          · split at hstep
            · rename_i hdue
              exact move_of_yield hphase hdue hnext (Option.some.inj hstep)
            · cases hstep

/-- A watcher that has to wait and has no deadline is not behind. -/
theorem not_behind_of_waits (hs : s.Sound) (hw : w.Sound s)
    (hstep : w.step? now s = none) (hdue : w.deadline? = none) : ¬ w.Behind s := by
  unfold step? at hstep
  cases hphase : w.phase with
  | ended => exact absurd hphase hw.not_ended
  | gathering latest t => simp [deadline?, hphase] at hdue
  | idle =>
      have hnone : s.next? w.receiver = none := by
        cases hnext : s.next? w.receiver with
        | none => rfl
        | some p => simp [hphase, hnext] at hstep
      have hle := (Stream.next?_eq_none_iff hs).1 hnone
      rintro (hlt | ⟨v, t, hgathering⟩)
      · omega
      · simp [hphase] at hgathering

/-! ## What a step preserves -/

theorem Sound.create (s : Stream Json) (settings : ChangeSettings) :
    (create s settings).Sound s where
  receiver_le := Nat.le_refl _
  not_ended := by simp [Watcher.create]
  at_once := by simp [Watcher.create]
  burst := by simp [Watcher.create]
  heard := by simp [Watcher.create]

/-- A watcher that starts now is not behind. -/
theorem not_behind_create (s : Stream Json) (settings : ChangeSettings) :
    ¬ (create s settings).Behind s := by
  simp [Behind, Watcher.create, Stream.subscribe]

/-- A value that is sent leaves every watcher behind. -/
theorem Sound.behind_send (hw : w.Sound s) (v : Json) : w.Behind (s.send v) :=
  .inl (Nat.lt_succ_of_le hw.receiver_le)

theorem Sound.send (hw : w.Sound s) (v : Json) : w.Sound (s.send v) where
  receiver_le := Nat.le_succ_of_le hw.receiver_le
  not_ended := hw.not_ended
  at_once := hw.at_once
  burst _ _ _ heq := absurd heq (Nat.ne_of_lt (Nat.lt_succ_of_le hw.receiver_le))
  heard hnot := absurd (hw.behind_send v) hnot

theorem Offers.receiver_le {receiver : Nat} (hs : s.Sound) (hw : w.Sound s)
    (hoffer : w.Offers now s v receiver) : receiver ≤ s.sent := by
  cases hoffer with
  | value hnext => exact (Stream.next?_bounds hs hnext).2
  | burst => exact hw.receiver_le

/-- The value behind which nothing is left is the newest one. -/
theorem Offers.newest? {receiver : Nat} (hs : s.Sound) (hw : w.Sound s)
    (hoffer : w.Offers now s v receiver) (hend : receiver = s.sent) : s.newest? = some v := by
  cases hoffer with
  | value hnext => exact Stream.newest?_of_next? hs (hend ▸ hnext)
  | burst hphase => exact hw.burst _ _ hphase hend

/-- The settings of a watcher never change. -/
theorem Move.settings (h : Move w now s y w') : w'.settings = w.settings := by
  cases h <;> rfl

/-- Only a yield changes the value that was yielded last. -/
theorem Move.last_of_none (h : Move w now s none w') : w'.last = w.last := by
  cases h <;> rfl

theorem Move.last_of_some (h : Move w now s (some v) w') : w'.last = some v := by
  cases h; rfl

theorem Move.sound (hs : s.Sound) (hopen : s.closed = false) (hw : w.Sound s)
    (h : Move w now s y w') : w'.Sound s := by
  cases h with
  | @gather v receiver hnext hpos =>
      -- a watcher in the middle of a burst is behind, so it need not have heard of anything
      refine ⟨(Stream.next?_bounds hs hnext).2, by simp, fun hzero => absurd hzero hpos, ?_, ?_⟩
      · rintro u t hphase hend
        cases hphase
        exact Stream.newest?_of_next? hs (by simpa [← hend] using hnext)
      · intro hnot
        exact absurd (Or.inr ⟨_, _, rfl⟩) hnot
  | @yield v receiver hoffer _ =>
      refine ⟨hoffer.receiver_le hs hw, by simp, by simp, by simp, ?_⟩
      rintro hnot u hlast
      cases hlast
      have hend : receiver = s.sent := by
        have hle := hoffer.receiver_le hs hw
        have hnlt : ¬ receiver < s.sent := fun hlt => hnot (.inl hlt)
        omega
      exact ⟨v, hoffer.newest? hs hw hend, .inl rfl⟩
  | @ignore v receiver hoffer hold =>
      -- what was ignored is the newest value, and it equals the one that was yielded last
      refine ⟨hoffer.receiver_le hs hw, by simp, by simp, by simp, ?_⟩
      intro hnot u hlast
      have hend : receiver = s.sent := by
        have hle := hoffer.receiver_le hs hw
        have hnlt : ¬ receiver < s.sent := fun hlt => hnot (.inl hlt)
        omega
      refine ⟨v, hoffer.newest? hs hw hend, .inr ?_⟩
      simpa [ignores, show w.last = some u from hlast] using hold
  | finish hclosed => simp [hopen] at hclosed

theorem behind_of_next? (hs : s.Sound) {receiver : Nat}
    (hnext : s.next? w.receiver = some (v, receiver)) : w.Behind s := by
  obtain ⟨hlt, hle⟩ := Stream.next?_bounds hs hnext
  exact .inl (Nat.lt_of_lt_of_le hlt hle)

theorem Offers.behind {receiver : Nat} (hs : s.Sound) (h : Offers w now s v receiver) :
    w.Behind s := by
  cases h with
  | value hnext => exact behind_of_next? hs hnext
  | burst hphase => exact .inr ⟨_, _, hphase⟩

/-- Only watchers that are behind make steps. -/
theorem Move.was_behind (hs : s.Sound) (hopen : s.closed = false) (h : Move w now s y w') :
    w.Behind s := by
  cases h with
  | gather hnext => exact behind_of_next? hs hnext
  | yield hoffer => exact hoffer.behind hs
  | ignore hoffer => exact hoffer.behind hs
  | finish hclosed => simp [hopen] at hclosed

/-- A watcher that asks for every value is behind after each step that yields nothing. -/
theorem Move.behind (hopen : s.closed = false) (hall : w.settings.distinct = false)
    (h : Move w now s none w') : w'.Behind s := by
  cases h with
  | gather => exact .inr ⟨_, _, rfl⟩
  | ignore _ hold => simp [ignores, hall] at hold
  | finish hclosed => simp [hopen] at hclosed

/-- A watcher that has not yielded anything is behind after each step that yields nothing. -/
theorem Move.behind_of_last (hopen : s.closed = false) (hnone : w.last = none)
    (h : Move w now s none w') : w'.Behind s := by
  cases h with
  | gather => exact .inr ⟨_, _, rfl⟩
  | ignore _ hold => simp [ignores, hnone] at hold
  | finish hclosed => simp [hopen] at hclosed

/-- A watcher that is not behind after a step that yields nothing has ignored a value. -/
theorem Move.ignored (hopen : s.closed = false) (h : Move w now s none w')
    (hnot : ¬ w'.Behind s) : w.settings.distinct = true ∧ ∃ v, w.last = some v := by
  refine ⟨?_, ?_⟩
  · cases hdistinct : w.settings.distinct with
    | true => rfl
    | false => exact absurd (h.behind hopen hdistinct) hnot
  · cases hlast : w.last with
    | some v => exact ⟨v, rfl⟩
    | none => exact absurd (h.behind_of_last hopen hlast) hnot

end Watcher

end ReactiveForm
