import ReactiveForm.Double.Basic

/-!
# The shortest decimal of a binary64 number

A number is written with the fewest digits that read back to it, and of the decimals with that many
digits the nearest one is taken.

## Shape of the search

The reals that round to `m * 2 ^ q` form an interval around it, ends included exactly if `m` is
even. For one digit, two digits and so on up to seventeen, the value has a lower and an upper
neighbour on the grid of decimals with that many digits. The first grid on which a neighbour lies in
the interval gives the answer.
-/

namespace ReactiveForm

/-- The decimal `digits * 10 ^ exponent`. -/
structure Decimal where
  /-- The digits as an integer. -/
  digits : Nat
  /-- The exponent of ten. -/
  exponent : Int
deriving DecidableEq, Inhabited

namespace Double

/-- A number and a grid of decimals on one scale: the number is `value`, the reals that round to it
reach down by `below` and up by `above`, and the decimals of the grid are the multiples of
`unit`. -/
structure Grid where
  /-- The number itself. -/
  value : Nat
  /-- Half the distance to the number below. -/
  below : Nat
  /-- Half the distance to the number above. -/
  above : Nat
  /-- The distance between neighbours on the grid. -/
  unit : Nat
  /-- Whether the ends of the interval round to the number. -/
  closed : Bool

/-- The number against the multiples of `10 ^ u`. The number below is only half as far if the
significand is a power of two. -/
def grid (x : Double) (u : Int) : Grid :=
  let two := powTwo x.exponent.toNat * powTen (-u).toNat
  let ten := powTen u.toNat * powTwo (-x.exponent).toNat
  { value := 4 * x.significand * two
    below := if x.significand = leastNormal ∧ minExponent < x.exponent then two else 2 * two
    above := 2 * two
    unit := 4 * ten
    closed := x.significand % 2 = 0 }

/-- Whether the `c`-th decimal of the grid reads back to the number. -/
def Grid.holds (g : Grid) (c : Nat) : Bool :=
  if g.closed then g.value ≤ c * g.unit + g.below && c * g.unit ≤ g.value + g.above
  else g.value < c * g.unit + g.below && c * g.unit < g.value + g.above

/-- The decimal of the grid that reads back to the number, the nearer one if there are two, the even
one if they are equally near. -/
def Grid.pick? (g : Grid) : Option Nat :=
  let c := g.value / g.unit
  match g.holds c, g.holds (c + 1) with
  | true, true =>
    let low := g.value - c * g.unit
    let high := (c + 1) * g.unit - g.value
    if low < high then some c
    else if high < low then some (c + 1)
    else if c % 2 = 0 then some c else some (c + 1)
  | true, false => some c
  | false, true => some (c + 1)
  | false, false => none

/-- The exponent `e` of ten with `10 ^ (e - 1) ≤ x < 10 ^ e`, for a positive number. -/
def decimalPoint (x : Double) : Int :=
  let (num, den) := x.toQuotient
  let below (e : Int) : Bool := num * powTen (-e).toNat < den * powTen e.toNat
  let guess : Int := Int.fdiv (((Nat.log2 x.significand : Int) + x.exponent) * 30103) 100000
  if below guess then guess else if below (guess + 1) then guess + 1 else guess + 2

/-- A decimal without zeros at its end. The first argument bounds how many are cut. -/
def trimZeros : Nat → Decimal → Decimal
  | 0, d => d
  | n + 1, d =>
    if d.digits ≠ 0 ∧ d.digits % 10 = 0 then trimZeros n ⟨d.digits / 10, d.exponent + 1⟩ else d

/-- The shortest decimal that reads back to the magnitude of the number. -/
def shortest (x : Double) : Decimal :=
  if x.isZero then ⟨0, 0⟩
  else
    let point := x.decimalPoint
    let hit := (List.range 17).findSome? fun (n : Nat) =>
      let u : Int := point - ((n + 1 : Nat) : Int)
      (x.grid u).pick?.map fun c => (⟨c, u⟩ : Decimal)
    trimZeros 17 (hit.getD ⟨0, 0⟩)

/-! ## Writing the number -/

/-- The digits of a natural number. -/
def digitChars (n : Nat) : List Char := Nat.toDigits 10 n

/-- The magnitude as text. A number from `1e-5` on and below `1e16` is written with a point and at
least one digit on either side of it, every other one with an exponent. -/
def magnitudeChars (d : Decimal) : List Char :=
  let digits := digitChars d.digits
  let point : Int := digits.length + d.exponent
  if 0 ≤ d.exponent ∧ point ≤ 16 then
    digits ++ List.replicate d.exponent.toNat '0' ++ ['.', '0']
  else if 0 < point ∧ point ≤ 16 then
    digits.take point.toNat ++ '.' :: digits.drop point.toNat
  else if -5 < point ∧ point ≤ 0 then
    '0' :: '.' :: (List.replicate (-point).toNat '0' ++ digits)
  else
    let exponent := point - 1
    let sign := if exponent < 0 then ['-'] else []
    let tail := match digits.drop 1 with
      | [] => []
      | more => '.' :: more
    digits.take 1 ++ tail ++ 'e' :: (sign ++ digitChars exponent.natAbs)

/-- The number as text. -/
def text (x : Double) : String :=
  let magnitude := magnitudeChars x.shortest
  String.ofList (if x.negative then '-' :: magnitude else magnitude)

end Double

end ReactiveForm
