/-! # Signed 24.8 fixed-point numbers

A `Fixed` is a 32-bit word that counts 256ths.  Sums, differences and negation wrap around like
the word itself.  Products and quotients are taken exactly first; the product is then rounded
down and the quotient toward zero, and what does not fit the word is cut off at the top.
`Fixed.text` writes the exact decimal value.
-/

namespace Wayland

/-- A number of 256ths. -/
structure Fixed where
  raw : Int32
  deriving DecidableEq, Inhabited

namespace Fixed

/-- The number 1. -/
def one : Fixed := ⟨256⟩

/-- The smallest positive number. -/
def epsilon : Fixed := ⟨1⟩

/-- The word nearest to an integer: values outside the range go to its ends. -/
def clamp (n : Int) : Int32 :=
  if n < -2147483648 then -2147483648
  else if 2147483647 < n then 2147483647
  else Int32.ofInt n

/-- An integer as a fixed-point number; integers beyond the range go to its ends. -/
def ofInt (n : Int32) : Fixed := ⟨clamp (n.toInt * 256)⟩

/-- The integer part, toward zero. -/
def trunc (a : Fixed) : Int32 := Int32.ofInt (a.raw.toInt.tdiv 256)

/-- The magnitude; that of the least number does not fit and stays as it is. -/
def abs (a : Fixed) : Fixed := if a.raw < 0 then ⟨-a.raw⟩ else a

/-- Wrapping sum. -/
def add (a b : Fixed) : Fixed := ⟨a.raw + b.raw⟩

/-- Wrapping difference. -/
def sub (a b : Fixed) : Fixed := ⟨a.raw - b.raw⟩

/-- Wrapping negation. -/
def neg (a : Fixed) : Fixed := ⟨-a.raw⟩

/-- The exact product in 256ths, rounded down, then reduced to the word. -/
def mul (a b : Fixed) : Fixed := ⟨Int32.ofInt ((a.raw.toInt * b.raw.toInt).fdiv 256)⟩

/-- The exact quotient in 256ths, rounded toward zero, then reduced to the word; there is none
    by zero. -/
def div? (a b : Fixed) : Option Fixed :=
  if b.raw = 0 then none
  else some ⟨Int32.ofInt ((a.raw.toInt * 256).tdiv b.raw.toInt)⟩

/-- Fixed-point numbers are ordered as their words. -/
def compare (a b : Fixed) : Ordering := Ord.compare a.raw.toInt b.raw.toInt

/-- The nearest fixed-point number to a float: halves go away from zero, values beyond the range
    to its ends, and a float that is no number to zero. -/
def ofFloat (x : Float) : Fixed := ⟨(x * 256.0).round.toInt32⟩

/-- The exact value as a double. -/
def toFloat (a : Fixed) : Float := a.raw.toFloat / 256.0

/-- The value rounded to single precision. -/
def toFloat32 (a : Fixed) : Float32 := a.raw.toFloat32 / 256.0

/-! ## Text -/

/-- The decimals of `n` 256ths, `n < 256`: eight digits, which hold the value exactly. -/
def decimals (n : Nat) : List Char :=
  let digits := Nat.toDigits 10 (n * 390625)
  List.replicate (8 - digits.length) '0' ++ digits

/-- Drops the zeros at the end. -/
def trimZeros (digits : List Char) : List Char :=
  (digits.reverse.dropWhile (· = '0')).reverse

/-- The exact value in decimal notation, without a point if it is an integer and without zeros
    at the end. -/
def text (a : Fixed) : String :=
  let magnitude := a.raw.toInt.natAbs
  let fraction := trimZeros (decimals (magnitude % 256))
  let sign := if a.raw < 0 then "-" else ""
  let point := if fraction.isEmpty then "" else "."
  sign ++ toString (magnitude / 256) ++ point ++ String.ofList fraction

end Fixed

end Wayland
