import ReactiveForm.Json.Basic
import ReactiveForm.Text.Basic

/-!
# Numbers of a document

Reading a number literal. An integer keeps its class if it fits into 64 bits; every other literal
becomes a binary floating-point number.

## Shape of the conversion

The digits of a literal are gathered into a 64-bit significand for as long as they fit. Digits that
no longer fit are dropped: in front of the point each of them raises the decimal exponent by one,
behind the point none counts. The significand is rounded to a binary number and then multiplied or
divided by one power of ten, or divided by `10 ^ 308` several times first. Each of these steps
rounds, so a literal with many digits or a large exponent may end next to the nearest binary number
and not on it.
-/

namespace ReactiveForm.Json

open Text (maxWord digitValue)

/-- Take digits into a significand while it fits into 64 bits. The result is the significand, the
number of digits taken, and the rest, which starts with a digit exactly if that digit does not
fit. -/
def takeDigits (significand count : Nat) : List Char → Nat × Nat × List Char
  | [] => (significand, count, [])
  | c :: cs =>
    if c.isDigit ∧ significand * 10 + digitValue c ≤ maxWord then
      takeDigits (significand * 10 + digitValue c) (count + 1) cs
    else (significand, count, c :: cs)

/-- The power of ten as a binary number, for exponents up to 308. -/
def powerOfTen? (n : Nat) : Option Double :=
  if n ≤ 308 then Double.ofQuotient? (Double.powTen n) 1 else none

/-- A binary number times a power of ten. The first argument bounds how often the number is divided
by `10 ^ 308`: a third time already makes it zero. -/
def scale? : Nat → Double → Int → Option Double
  | 0, _, _ => none
  | n + 1, x, e =>
    match powerOfTen? e.natAbs with
    | some p => if 0 ≤ e then x.mul? p else x.div? p
    | none =>
      if x.isZero then some x
      else if 0 ≤ e then none
      else
        match powerOfTen? 308 with
        | some p => (x.div? p).bind fun y => scale? n y (e + 308)
        | none => none

/-- The document of a significand and an exponent of ten, none if it is too large. -/
def realOf? (negative : Bool) (significand : Nat) (exponent : Int) : Option Json :=
  ((Double.ofQuotient? significand 1).bind fun x => scale? 8 x exponent).map fun x =>
    real (x.withSign negative)

/-- The largest exponent that is counted exactly. -/
def maxCount : Nat := 2147483647

/-- Keep an exponent within 32 bits. -/
def saturate (e : Int) : Int := max (-2147483648) (min e 2147483647)

/-- Read the exponent behind its letter and finish the number. An exponent that cannot be counted
makes the number zero, or too large. -/
def readExponent (negative : Bool) (significand : Nat) (start : Int) (cs : List Char) :
    Option (Json × List Char) :=
  let (down, cs) := match cs with
    | '+' :: cs => (false, cs)
    | '-' :: cs => (true, cs)
    | cs => (false, cs)
  let digits := cs.takeWhile Char.isDigit
  let rest := cs.dropWhile Char.isDigit
  if digits.isEmpty then none
  else
    let e := Text.digitsValue digits
    if maxCount < e then
      if significand ≠ 0 ∧ !down then none
      else some (real (Double.zero negative), rest)
    else
      let e : Int := if down then start - e else start + e
      (realOf? negative significand (saturate e)).map fun j => (j, rest)

/-- Finish a number behind its digits: with an exponent, or as it is. -/
def finishReal (negative : Bool) (significand : Nat) (exponent : Int) (cs : List Char) :
    Option (Json × List Char) :=
  match cs with
  | 'e' :: cs => readExponent negative significand exponent cs
  | 'E' :: cs => readExponent negative significand exponent cs
  | cs => (realOf? negative significand exponent).map fun j => (j, cs)

/-- Read the digits behind the point, at least one, and finish the number. -/
def readFraction (negative : Bool) (significand : Nat) (exponent : Int) (cs : List Char) :
    Option (Json × List Char) :=
  let (m, count, rest) := takeDigits significand 0 cs
  if (rest.takeWhile Char.isDigit).isEmpty then
    if count = 0 then none else finishReal negative m (exponent - count) rest
  else finishReal negative m (exponent - count) (rest.dropWhile Char.isDigit)

/-- The integer of a sign and a significand. Minus zero and integers below `-2 ^ 63` are no
integers of a document. -/
def integerOf? (negative : Bool) (significand : Nat) : Option Json :=
  if !negative then some (natural significand)
  else if 0 < significand ∧ significand ≤ 9223372036854775808 then
    some (Json.negative (significand - 1))
  else realOf? true significand 0

/-- Finish a number behind the digits in front of the point, `dropped` of which did not fit. -/
def finishNumber (negative : Bool) (significand dropped : Nat) (cs : List Char) :
    Option (Json × List Char) :=
  match cs with
  | '.' :: cs => readFraction negative significand dropped cs
  | cs =>
    if dropped = 0 ∧ cs.head? ≠ some 'e' ∧ cs.head? ≠ some 'E' then
      (integerOf? negative significand).map fun j => (j, cs)
    else finishReal negative significand dropped cs

/-- Read a number behind its sign. A leading zero stands alone in front of the point. -/
def readMagnitude (negative : Bool) (cs : List Char) : Option (Json × List Char) :=
  match cs with
  | '0' :: rest =>
    if (rest.takeWhile Char.isDigit).isEmpty then finishNumber negative 0 0 rest else none
  | cs =>
    let (m, count, rest) := takeDigits 0 0 cs
    if count = 0 then none
    else
      finishNumber negative m (rest.takeWhile Char.isDigit).length (rest.dropWhile Char.isDigit)

/-- Read a number literal from the front of a text. -/
def readNumber (cs : List Char) : Option (Json × List Char) :=
  match cs with
  | '-' :: cs => readMagnitude true cs
  | cs => readMagnitude false cs

end ReactiveForm.Json
