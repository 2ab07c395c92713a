/-!
# Finite binary64 numbers

A number of a document that is written with a point or an exponent is a binary floating-point number
with 53 bits of precision. It is kept as the pair of its integer significand and its binary
exponent, so that every operation below is exact arithmetic on integers followed by one rounding.

## Shape of the representation

A nonzero number has `2 ^ 52 ≤ significand < 2 ^ 53`, or a smaller significand at the least exponent
`-1074`. Zero has the significand `0` there. Each number but zero then has one representation, and
zero has two, which compare equal and are written differently.
-/

namespace ReactiveForm

/-- The number `significand * 2 ^ exponent`, negated if `negative`. -/
structure Double where
  /-- The sign, which zero has too. -/
  negative : Bool
  /-- The integer significand, below `2 ^ 53`. -/
  significand : Nat
  /-- The exponent of two. -/
  exponent : Int
deriving DecidableEq, Inhabited

namespace Double

/-- A power of two. -/
def powTwo (n : Nat) : Nat := Nat.pow 2 n

/-- A power of ten. -/
def powTen (n : Nat) : Nat := Nat.pow 10 n

/-- The least significand of a number above the least exponent. -/
def leastNormal : Nat := powTwo 52

/-- The least exponent of two. -/
def minExponent : Int := -1074

/-- The largest exponent of two. -/
def maxExponent : Int := 971

/-- Zero with a sign. -/
def zero (negative : Bool) : Double := ⟨negative, 0, minExponent⟩

/-- Whether the number is one of the two zeros. -/
def isZero (x : Double) : Bool := x.significand == 0

/-- The same magnitude with the given sign. -/
def withSign (x : Double) (negative : Bool) : Double := { x with negative }

/-- Equality of numbers: the two zeros are equal. -/
def equal (x y : Double) : Bool := x == y || (x.isZero && y.isZero)

/-! ## Rounding a quotient -/

/-- The integer nearest to a quotient; of two equally near ones the even one. -/
def roundQuotient (num den : Nat) : Nat :=
  let q := num / den
  let r := num % den
  if 2 * r < den then q
  else if den < 2 * r then q + 1
  else if q % 2 = 0 then q else q + 1

/-- A quotient divided by a power of two, again as numerator and denominator. -/
def shiftQuotient (num den : Nat) (e : Int) : Nat × Nat :=
  if e < 0 then (num * powTwo (-e).toNat, den) else (num, den * powTwo e.toNat)

/-- The exponent at which a positive quotient has a significand of 53 bits, or the least exponent if
the quotient is too small for that. -/
def quotientExponent (num den : Nat) : Int :=
  let e : Int := (Nat.log2 num : Int) - (Nat.log2 den : Int) - 52
  let (n, d) := shiftQuotient num den e
  max (if n / d < leastNormal then e - 1 else e) minExponent

/-- The binary64 number nearest to a quotient, ties to the even significand. There is none if the
quotient is too large. -/
def ofQuotient? (num den : Nat) : Option Double :=
  if num = 0 then some (zero false)
  else
    let e := quotientExponent num den
    let (n, d) := shiftQuotient num den e
    let m := roundQuotient n d
    let x : Double := if m = 2 * leastNormal then ⟨false, leastNormal, e + 1⟩ else ⟨false, m, e⟩
    if maxExponent < x.exponent then none else some x

/-- The magnitude as a quotient of integers. -/
def toQuotient (x : Double) : Nat × Nat :=
  if x.exponent < 0 then (x.significand, powTwo (-x.exponent).toNat)
  else (x.significand * powTwo x.exponent.toNat, 1)

/-- The rounded product of two magnitudes. -/
def mul? (x y : Double) : Option Double :=
  let (a, b) := x.toQuotient
  let (c, d) := y.toQuotient
  ofQuotient? (a * c) (b * d)

/-- The rounded quotient of two magnitudes, the second one not zero. -/
def div? (x y : Double) : Option Double :=
  let (a, b) := x.toQuotient
  let (c, d) := y.toQuotient
  ofQuotient? (a * d) (b * c)

end Double

end ReactiveForm
