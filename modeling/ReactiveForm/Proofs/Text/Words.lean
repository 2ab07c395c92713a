import Mathlib.Data.List.TakeWhile
import ReactiveForm.Text.Basic

/-!
# Words between blanks

A text that is one word with blanks around it (`Padded`) is trimmed to that word, and every text is
what trimming leaves of it with blanks around it. So a reader that trims first reads a text exactly
if it reads the word of the text.

The words that are read as numbers are those of `WritesWord`: a run of digits, possibly behind a
plus sign, whose value fits. No character of such a word is blank, so the grammar of a number with
blanks around it does not depend on how the text is trimmed (`readWord?_trim_eq_some_iff`).
-/

namespace ReactiveForm.Text

variable {cs word : List Char} {n : Nat}

/-! ## Trimming -/

/-- The characters are a word with blank characters around it. -/
structure Padded (word cs : List Char) : Prop where
  split : ∃ before after, cs = before ++ (word ++ after) ∧ (∀ c ∈ before, isBlank c = true) ∧
    ∀ c ∈ after, isBlank c = true

theorem padded_trimChars (cs : List Char) : Padded (trimChars cs) cs where
  split := by
    let rest := cs.dropWhile isBlank
    refine ⟨cs.takeWhile isBlank, (rest.reverse.takeWhile isBlank).reverse, ?_,
      List.all_eq_true.1 List.all_takeWhile, fun c hc => ?_⟩
    · have hrest : trimChars cs ++ (rest.reverse.takeWhile isBlank).reverse = rest := by
        rw [trimChars, ← List.reverse_append, List.takeWhile_append_dropWhile, List.reverse_reverse]
      rw [hrest, List.takeWhile_append_dropWhile]
    · exact List.all_eq_true.1 List.all_takeWhile c (List.mem_reverse.1 hc)

theorem dropWhile_isBlank_of_none (h : ∀ c ∈ cs, isBlank c = false) : cs.dropWhile isBlank = cs := by
  cases cs with
  | nil => rfl
  | cons c cs =>
      have hc : ¬ isBlank c = true := by simp [h c List.mem_cons_self]
      exact List.dropWhile_cons_of_neg hc

/-- A word without blank characters is what trimming leaves. -/
theorem Padded.trimChars_eq (h : Padded word cs) (hword : ∀ c ∈ word, isBlank c = false) :
    trimChars cs = word := by
  obtain ⟨before, after, rfl, hbefore, hafter⟩ := h.split
  have hreverse : ∀ c ∈ word.reverse, isBlank c = false :=
    fun c hc => hword c (List.mem_reverse.1 hc)
  have hafter' : ∀ c ∈ after.reverse, isBlank c = true :=
    fun c hc => hafter c (List.mem_reverse.1 hc)
  rw [trimChars, List.dropWhile_append_of_pos hbefore]
  cases word with
  | nil =>
      rw [List.nil_append, List.dropWhile_eq_nil_iff.2 hafter]
      rfl
  | cons c rest =>
      have hc : ¬ isBlank c = true := by simp [hword c List.mem_cons_self]
      rw [List.cons_append, List.dropWhile_cons_of_neg hc, ← List.cons_append, List.reverse_append,
        List.dropWhile_append_of_pos hafter', dropWhile_isBlank_of_none hreverse,
        List.reverse_reverse]

/-- Small letters are no more and no less blank than capital ones. -/
theorem isBlank_toLower (c : Char) : isBlank c.toLower = isBlank c := by
  unfold Char.toLower
  split
  · rename_i hupper
    have hle : 65 ≤ c.toNat ∧ c.toNat ≤ 90 := hupper
    have hlower : (c.val + ('a'.val - 'A'.val)).toNat = c.toNat + 32 := by
      rw [UInt32.toNat_add]
      show (c.toNat + 32) % 4294967296 = c.toNat + 32
      omega
    have hletter : ∀ d : Char, 65 ≤ d.toNat → d.toNat ≤ 122 → isBlank d = false := by
      intro d hd hd'
      simp only [isBlank, Bool.or_eq_false_iff, Bool.and_eq_false_iff, decide_eq_false_iff_not,
        beq_eq_false_iff_ne]
      omega
    rw [hletter c (by omega) (by omega)]
    refine hletter _ ?_ ?_
    · show 65 ≤ (c.val + ('a'.val - 'A'.val)).toNat
      omega
    · show (c.val + ('a'.val - 'A'.val)).toNat ≤ 122
      omega
  · rfl

/-! ## Numbers -/

/-- The word denotes the number: at least one digit, possibly behind a plus sign, with a value that
fits. -/
inductive WritesWord (n : Nat) : List Char → Prop where
  | plain {digits : List Char} (hne : digits ≠ []) (hdigits : ∀ c ∈ digits, c.isDigit = true)
      (hvalue : digitsValue digits = n) (hle : n ≤ maxWord) : WritesWord n digits
  | signed {digits : List Char} (hne : digits ≠ []) (hdigits : ∀ c ∈ digits, c.isDigit = true)
      (hvalue : digitsValue digits = n) (hle : n ≤ maxWord) : WritesWord n ('+' :: digits)

theorem isBlank_of_isDigit {c : Char} (h : c.isDigit = true) : isBlank c = false := by
  rw [Char.isDigit, Bool.and_eq_true, decide_eq_true_eq, decide_eq_true_eq] at h
  have hdigit : 48 ≤ c.toNat ∧ c.toNat ≤ 57 := h
  simp only [isBlank, Bool.or_eq_false_iff, Bool.and_eq_false_iff, decide_eq_false_iff_not,
    beq_eq_false_iff_ne]
  omega

theorem WritesWord.not_isBlank (h : WritesWord n word) : ∀ c ∈ word, isBlank c = false := by
  cases h with
  | plain _ hdigits _ _ => exact fun c hc => isBlank_of_isDigit (hdigits c hc)
  | signed _ hdigits _ _ =>
      exact List.forall_mem_cons.2 ⟨by decide, fun c hc => isBlank_of_isDigit (hdigits c hc)⟩

theorem readDigits?_eq_some_iff : readDigits? cs = some n ↔
    cs ≠ [] ∧ (∀ c ∈ cs, c.isDigit = true) ∧ digitsValue cs = n ∧ n ≤ maxWord := by
  unfold readDigits?
  split
  · rename_i hbad
    refine iff_of_false nofun fun ⟨hne, hdigits, _⟩ => ?_
    rw [Bool.or_eq_true, List.isEmpty_iff, Bool.not_eq_true', ← Bool.not_eq_true,
      List.all_eq_true] at hbad
    exact hbad.elim hne fun hnot => hnot hdigits
  · rename_i hgood
    rw [Bool.or_eq_true, not_or, List.isEmpty_iff, Bool.not_eq_true', Bool.not_eq_false,
      List.all_eq_true] at hgood
    split
    · rename_i hle
      rw [Option.some.injEq]
      constructor
      · rintro rfl
        exact ⟨hgood.1, hgood.2, rfl, hle⟩
      · exact fun h => h.2.2.1
    · rename_i hover
      exact iff_of_false nofun fun ⟨_, _, hvalue, hle⟩ => hover (hvalue ▸ hle)

theorem readWord?_eq_some_iff {s : String} : readWord? s = some n ↔ WritesWord n s.toList := by
  unfold readWord?
  split
  · rename_i digits hs
    rw [hs, readDigits?_eq_some_iff]
    constructor
    · exact fun ⟨hne, hdigits, hvalue, hle⟩ => .signed hne hdigits hvalue hle
    · intro h
      cases h with
      | plain _ hdigits _ _ => exact absurd (hdigits '+' List.mem_cons_self) (by decide)
      | signed hne hdigits hvalue hle => exact ⟨hne, hdigits, hvalue, hle⟩
  · rename_i hs
    rw [readDigits?_eq_some_iff]
    constructor
    · exact fun ⟨hne, hdigits, hvalue, hle⟩ => .plain hne hdigits hvalue hle
    · intro h
      generalize s.toList = cs at h hs
      cases h with
      | plain hne hdigits hvalue hle => exact ⟨hne, hdigits, hvalue, hle⟩
      | signed => exact absurd rfl (hs _)

/-- What is read from a text that is trimmed first is the number that its word denotes. -/
theorem readWord?_trim_eq_some_iff {s : String} :
    readWord? (trim s) = some n ↔ ∃ word, Padded word s.toList ∧ WritesWord n word := by
  rw [readWord?_eq_some_iff, trim, String.toList_ofList]
  constructor
  · exact fun h => ⟨_, padded_trimChars _, h⟩
  · rintro ⟨word, hpadded, hword⟩
    rwa [hpadded.trimChars_eq hword.not_isBlank]

end ReactiveForm.Text
