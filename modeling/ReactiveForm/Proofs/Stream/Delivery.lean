import ReactiveForm.Stream

/-!
# Delivery of the newest value

A receiver of a stream may miss values, but never the newest one: as long as it has not received the
value that was sent last, there is a next value for it, and the last of the values that it gets is
the newest. `next?_eq_none_iff` and `newest?_of_next?` say so for a stream that is `Sound`, and
every stream stays sound while values are sent.
-/

namespace ReactiveForm.Stream

variable {α : Type} {s : Stream α} {v : α} {receiver behind : Nat}

/-- The stream can keep a value, keeps no more than it was sent, and keeps a value as soon as one
was sent. -/
structure Sound (s : Stream α) : Prop where
  capacity_pos : 0 < s.capacity
  kept_le_sent : s.kept.length ≤ s.sent
  kept_pos : 0 < s.sent → 0 < s.kept.length

/-- The value that was sent last. -/
def newest? (s : Stream α) : Option α := s.kept.getLast?

theorem roundUp_pos (n : Nat) : 0 < roundUp n := by
  unfold roundUp
  split
  · exact Nat.one_pos
  · exact Nat.pow_pos (by omega)

theorem Sound.ofCapacity (n : Nat) : (ofCapacity n : Stream α).Sound where
  capacity_pos := roundUp_pos n
  kept_le_sent := Nat.le_refl 0
  kept_pos h := absurd h (Nat.lt_irrefl 0)

theorem Sound.send (h : s.Sound) (v : α) : (s.send v).Sound := by
  have hcap := h.capacity_pos
  have hkept := h.kept_le_sent
  constructor
  · exact hcap
  · simp only [Stream.send, List.length_drop, List.length_append, List.length_singleton]
    omega
  · intro _
    simp only [Stream.send, List.length_drop, List.length_append, List.length_singleton]
    omega

theorem Sound.close (h : s.Sound) : s.close.Sound := ⟨h.1, h.2, h.3⟩

@[simp]
theorem sent_send (s : Stream α) (v : α) : (s.send v).sent = s.sent + 1 := rfl

@[simp]
theorem closed_send (s : Stream α) (v : α) : (s.send v).closed = s.closed := rfl

theorem newest?_send (h : s.Sound) (v : α) : (s.send v).newest? = some v := by
  have hcap := h.capacity_pos
  have hlen : ¬ s.kept.length + 1 ≤ s.kept.length + 1 - s.capacity := by omega
  simp [newest?, Stream.send, List.getLast?_drop, hlen]

/-- The position among the kept values at which a receiver goes on. -/
private theorem start_lt_iff (h : s.Sound) (receiver : Nat) :
    max receiver s.oldest - s.oldest < s.kept.length ↔ receiver < s.sent := by
  have hkept := h.kept_le_sent
  have hpos := h.kept_pos
  unfold oldest
  omega

/-- A receiver has to wait only if it has received the newest value. -/
theorem next?_eq_none_iff (h : s.Sound) : s.next? receiver = none ↔ s.sent ≤ receiver := by
  have hstart := start_lt_iff h receiver
  simp only [next?, Option.map_eq_none_iff, List.getElem?_eq_none_iff]
  omega

/-- Receiving a value moves the receiver on, but not behind the newest value. -/
theorem next?_bounds (h : s.Sound) (hnext : s.next? receiver = some (v, behind)) :
    receiver < behind ∧ behind ≤ s.sent := by
  have hstart := start_lt_iff h receiver
  have hkept := h.kept_le_sent
  simp only [next?, Option.map_eq_some_iff, Prod.mk.injEq] at hnext
  obtain ⟨_, hget, -, rfl⟩ := hnext
  have hlt := (List.getElem?_eq_some_iff.1 hget).1
  unfold oldest at *
  omega

/-- The value behind which nothing is left to receive is the newest one. -/
theorem newest?_of_next? (h : s.Sound) (hnext : s.next? receiver = some (v, s.sent)) :
    s.newest? = some v := by
  have hkept := h.kept_le_sent
  simp only [next?, Option.map_eq_some_iff, Prod.mk.injEq] at hnext
  obtain ⟨_, hget, rfl, hend⟩ := hnext
  have hlt := (List.getElem?_eq_some_iff.1 hget).1
  -- the receiver goes on at the last of the kept values
  have hlast : max receiver s.oldest - s.oldest = s.kept.length - 1 := by
    unfold oldest at *
    omega
  rw [newest?, List.getLast?_eq_getElem?, ← hlast, hget]

/-- Receiving a value leaves one value less to receive. -/
theorem unread_of_next? (h : s.Sound) (hnext : s.next? receiver = some (v, behind)) :
    s.unread behind + 1 = s.unread receiver := by
  have hkept := h.kept_le_sent
  simp only [next?, Option.map_eq_some_iff, Prod.mk.injEq] at hnext
  obtain ⟨_, hget, -, rfl⟩ := hnext
  have hlt := (List.getElem?_eq_some_iff.1 hget).1
  unfold unread oldest at *
  omega

/-! ## Sending a value several times -/

/-- The stream to which a value was sent a number of times. -/
def sendTimes (s : Stream α) (v : α) : Nat → Stream α
  | 0 => s
  | n + 1 => (s.sendTimes v n).send v

theorem sendTimes_send (s : Stream α) (v : α) (n : Nat) :
    (s.send v).sendTimes v n = s.sendTimes v (n + 1) := by
  induction n with
  | zero => rfl
  | succ n ih => rw [sendTimes, ih]; rfl

@[simp]
theorem sent_sendTimes (s : Stream α) (v : α) (n : Nat) : (s.sendTimes v n).sent = s.sent + n := by
  induction n with
  | zero => rfl
  | succ n ih => rw [sendTimes, sent_send, ih, Nat.add_assoc]

@[simp]
theorem closed_sendTimes (s : Stream α) (v : α) (n : Nat) :
    (s.sendTimes v n).closed = s.closed := by
  induction n with
  | zero => rfl
  | succ n ih => rw [sendTimes, closed_send, ih]

theorem Sound.sendTimes (h : s.Sound) (v : α) (n : Nat) : (s.sendTimes v n).Sound := by
  induction n with
  | zero => exact h
  | succ n ih => exact ih.send v

theorem newest?_sendTimes (h : s.Sound) (v : α) (n : Nat) :
    (s.sendTimes v (n + 1)).newest? = some v := newest?_send (h.sendTimes v n) v

end ReactiveForm.Stream
