/-! # Decimal digits -/

namespace Wayland.Text

/-- The number that decimal digits stand for; no digits stand for 0. -/
def digitsValue (digits : List Char) : Nat :=
  digits.foldl (fun n d => n * 10 + (d.toNat - '0'.toNat)) 0

end Wayland.Text
