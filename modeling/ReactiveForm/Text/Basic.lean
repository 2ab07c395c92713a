/-!
# Characters and short texts

What every reader of texts needs: classes of characters, trimming, and unsigned numbers.

A class of characters is kept as the list of its maximal ranges in ascending order, both ends
included, or written out where it is small. The blank characters, which trimming takes away, are the
Unicode `White_Space` class. It is larger than the ASCII blanks and smaller than "everything that
prints nothing": the zero-width characters are not in it.

A number is an optional plus sign and at least one ASCII digit, with a value that fits into 64 bits.
Leading zeros are allowed, every other character is refused.
-/

namespace ReactiveForm.Text

/-! ## Classes of characters -/

/-- Whether some range of the table holds the code point. -/
def inRanges (ranges : List (Nat × Nat)) (n : Nat) : Bool :=
  ranges.any fun r => r.1 ≤ n && n ≤ r.2

/-- The `White_Space` characters: the five ASCII controls from tab to carriage return, the space,
next line, the no-break space, the Ogham space, the typographic spaces, the two separators, the
narrow and the mathematical space, and the ideographic space. -/
def isBlank (c : Char) : Bool :=
  let n := c.toNat
  (0x09 ≤ n && n ≤ 0x0D) || n == 0x20 || n == 0x85 || n == 0xA0 || n == 0x1680
    || (0x2000 ≤ n && n ≤ 0x200A) || n == 0x2028 || n == 0x2029 || n == 0x202F || n == 0x205F
    || n == 0x3000

/-! ## Trimming -/

/-- The characters without the blank ones at either end. -/
def trimChars (cs : List Char) : List Char :=
  ((cs.dropWhile isBlank).reverse.dropWhile isBlank).reverse

/-- A text without the blank characters at either end. -/
def trim (s : String) : String :=
  String.ofList (trimChars s.toList)

/-- Whether trimming leaves nothing. -/
def isAllBlank (s : String) : Bool :=
  s.toList.all isBlank

/-! ## Words in decimal -/

/-- The largest unsigned 64-bit number. -/
def maxWord : Nat := 18446744073709551615

/-- The value of an ASCII digit. -/
def digitValue (c : Char) : Nat := c.toNat - '0'.toNat

/-- The number that a run of ASCII digits denotes. -/
def digitsValue (cs : List Char) : Nat :=
  cs.foldl (fun n c => 10 * n + digitValue c) 0

/-- The number of a nonempty run of digits, unless it is too large. -/
def readDigits? (cs : List Char) : Option Nat :=
  if cs.isEmpty || !cs.all Char.isDigit then none
  else if digitsValue cs ≤ maxWord then some (digitsValue cs) else none

/-- The unsigned 64-bit number that a text denotes. -/
def readWord? (s : String) : Option Nat :=
  match s.toList with
  | '+' :: cs => readDigits? cs
  | cs => readDigits? cs

end ReactiveForm.Text
