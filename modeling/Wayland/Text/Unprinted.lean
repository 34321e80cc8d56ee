/-! # Characters that are never shown as they are

Log lines and error texts show quoted text.  A character that leaves no visible mark of its own
(a control, a blank other than the space, a format mark, an unassigned or private code point) or
that would attach itself to the character before it is shown by its code point instead.  `ranges`
lists these characters, `isUnprinted` decides membership.
-/

namespace Wayland.Text

/-- Inclusive ranges of code points that are shown by number: controls, blanks, soft hyphen,
    combining marks, format marks, private use and the unassigned end of the code space. -/
def unprintedRanges : List (Nat × Nat) :=
  [(0x0000, 0x001f), (0x007f, 0x00a0), (0x00ad, 0x00ad), (0x0300, 0x036f),
   (0x1680, 0x1680), (0x2000, 0x200f), (0x2028, 0x202f), (0x205f, 0x206f),
   (0x20d0, 0x20f0), (0x3000, 0x3000), (0xe000, 0xf8ff), (0xfe00, 0xfe0f),
   (0xfe20, 0xfe2f), (0xfeff, 0xfeff), (0xfff0, 0xfffb), (0xfffe, 0xffff),
   (0xe0000, 0x10ffff)]

/-- Whether a character is shown by its code point. -/
def isUnprinted (c : Char) : Bool :=
  unprintedRanges.any fun (low, high) => low ≤ c.toNat && c.toNat ≤ high

end Wayland.Text
