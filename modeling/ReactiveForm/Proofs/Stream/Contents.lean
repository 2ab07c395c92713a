import ReactiveForm.Proofs.Stream.Delivery

/-!
# What a stream keeps of the values that were sent

A stream keeps the latest of all values that were sent to it (`Carries`). So a receiver gets them in
order, and what it gets first is the value at its place, or the oldest one that is kept if that
place is further back (`Carries.of_next?`).
-/

namespace ReactiveForm.Stream

variable {α : Type} {s : Stream α} {v : α} {values : List α} {receiver behind : Nat}

/-- The values that were sent to a stream, in order. -/
structure Carries (s : Stream α) (values : List α) : Prop where
  length : values.length = s.sent
  kept : s.kept = values.drop s.oldest

theorem Carries.ofCapacity (n : Nat) : (ofCapacity n : Stream α).Carries [] := ⟨rfl, rfl⟩

theorem Carries.send (h : s.Carries values) (hs : s.Sound) (v : α) :
    (s.send v).Carries (values ++ [v]) where
  length := by
    rw [List.length_append, h.length]
    rfl
  kept := by
    have hkept := hs.kept_le_sent
    have hlength : (s.send v).kept.length =
        s.kept.length + 1 - (s.kept.length + 1 - s.capacity) := by
      simp [Stream.send]
    have holdest : (s.send v).oldest = s.oldest + (s.kept.length + 1 - s.capacity) := by
      rw [oldest, hlength, oldest, sent_send]
      omega
    have hle : s.oldest ≤ values.length := h.length ▸ Nat.sub_le _ _
    rw [holdest, ← List.drop_drop, List.drop_append_of_le_length hle, ← h.kept]
    rfl

theorem carries_foldl_send (values : List α) (h : s.Sound) {before : List α}
    (hcarries : s.Carries before) :
    (values.foldl Stream.send s).Sound ∧
      (values.foldl Stream.send s).Carries (before ++ values) := by
  induction values generalizing s before with
  | nil => exact ⟨h, (List.append_nil before).symm ▸ hcarries⟩
  | cons v values ih =>
      have hrest := ih (h.send v) (hcarries.send h v)
      rw [List.append_assoc] at hrest
      exact hrest

/-- A receiver gets the value at its place, or the oldest one that is kept. -/
theorem Carries.of_next? (h : s.Carries values) (hnext : s.next? receiver = some (v, behind)) :
    behind = max receiver s.oldest + 1 ∧ values[max receiver s.oldest]? = some v := by
  simp only [next?, Option.map_eq_some_iff, Prod.mk.injEq] at hnext
  obtain ⟨_, hget, rfl, rfl⟩ := hnext
  rw [h.kept, List.getElem?_drop] at hget
  have hplace : s.oldest + (max receiver s.oldest - s.oldest) = max receiver s.oldest := by omega
  exact ⟨rfl, hplace ▸ hget⟩

end ReactiveForm.Stream
