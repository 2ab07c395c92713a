import ReactiveForm.Json.Basic

/-!
# Equality of documents

Two documents are equal if and only if they are the same up to the signs of zeros (`Json.same_iff`).
So equality is symmetric and transitive, and a document is equal to no other one unless there is a
zero with a sign in it.
-/

namespace ReactiveForm

namespace Double

variable {x y : Double}

/-- The number, with the zero that has no sign in the place of either zero. -/
def plainZero (x : Double) : Double := if x.isZero then zero false else x

theorem isZero_plainZero (x : Double) : x.plainZero.isZero = x.isZero := by
  unfold plainZero
  split
  · rename_i hzero
    exact hzero.symm
  · rfl

theorem equal_iff : x.equal y = true ↔ x.plainZero = y.plainZero := by
  simp only [equal, Bool.or_eq_true, beq_iff_eq, Bool.and_eq_true]
  constructor
  · rintro (rfl | ⟨hx, hy⟩)
    · rfl
    · rw [plainZero, plainZero, if_pos hx, if_pos hy]
  · intro h
    have hzero : x.isZero = y.isZero := by
      rw [← isZero_plainZero x, h, isZero_plainZero]
    by_cases hx : x.isZero = true
    · exact .inr ⟨hx, hzero ▸ hx⟩
    · rw [plainZero, plainZero, if_neg hx, if_neg (hzero ▸ hx)] at h
      exact .inl h

end Double

namespace Json

mutual

/-- The document without the signs of its zeros. -/
def plainZeros : Json → Json
  | null => null
  | bool b => bool b
  | natural n => natural n
  | negative n => negative n
  | real x => real x.plainZero
  | string s => string s
  | array items => array (plainZerosItems items)
  | object fields => object (plainZerosFields fields)

/-- The items of an array without the signs of their zeros. -/
def plainZerosItems : List Json → List Json
  | [] => []
  | a :: as => plainZeros a :: plainZerosItems as

/-- The fields of an object without the signs of their zeros. -/
def plainZerosFields : List (String × Json) → List (String × Json)
  | [] => []
  | (k, a) :: as => (k, plainZeros a) :: plainZerosFields as

end

mutual

theorem same_iff : ∀ a b : Json, same a b = true ↔ plainZeros a = plainZeros b
  | null, b => by cases b <;> simp [same, plainZeros]
  | bool x, b => by cases b <;> simp [same, plainZeros]
  | natural x, b => by cases b <;> simp [same, plainZeros]
  | negative x, b => by cases b <;> simp [same, plainZeros]
  | real x, b => by cases b <;> simp [same, plainZeros, Double.equal_iff]
  | string x, b => by cases b <;> simp [same, plainZeros]
  | array as, b => by
    cases b with
    | array bs =>
      rw [same, plainZeros, plainZeros, array.injEq]
      exact sameItems_iff as bs
    | _ => simp [same, plainZeros]
  | object as, b => by
    cases b with
    | object bs =>
      rw [same, plainZeros, plainZeros, object.injEq]
      exact sameFields_iff as bs
    | _ => simp [same, plainZeros]

theorem sameItems_iff : ∀ as bs : List Json,
    sameItems as bs = true ↔ plainZerosItems as = plainZerosItems bs
  | [], bs => by cases bs <;> simp [sameItems, plainZerosItems]
  | a :: as, bs => by
    cases bs with
    | nil => simp [sameItems, plainZerosItems]
    | cons b bs =>
      rw [sameItems, plainZerosItems, plainZerosItems, Bool.and_eq_true, List.cons.injEq,
        same_iff a b, sameItems_iff as bs]

theorem sameFields_iff : ∀ as bs : List (String × Json),
    sameFields as bs = true ↔ plainZerosFields as = plainZerosFields bs
  | [], bs => by cases bs <;> simp [sameFields, plainZerosFields]
  | (k, a) :: as, bs => by
    cases bs with
    | nil => simp [sameFields, plainZerosFields]
    | cons b bs =>
      obtain ⟨l, b⟩ := b
      rw [sameFields, plainZerosFields, plainZerosFields, Bool.and_eq_true, Bool.and_eq_true,
        List.cons.injEq, Prod.mk.injEq, beq_iff_eq, same_iff a b, sameFields_iff as bs]

end

variable {a b c : Json}

theorem beq_iff_plainZeros : (a == b) = true ↔ plainZeros a = plainZeros b := same_iff a b

theorem beq_symm (h : (a == b) = true) : (b == a) = true :=
  beq_iff_plainZeros.2 (beq_iff_plainZeros.1 h).symm

theorem beq_trans (hab : (a == b) = true) (hbc : (b == c) = true) : (a == c) = true :=
  beq_iff_plainZeros.2 ((beq_iff_plainZeros.1 hab).trans (beq_iff_plainZeros.1 hbc))

end Json

end ReactiveForm
