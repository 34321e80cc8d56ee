import Wayland.Wire.Value

/-! # Words and padding

A word read off the front of its own four bytes is the word that was written, whatever follows,
and the two halves of a header's second word do not disturb each other.  Padding commutes with
positions that are multiples of four; this is what lets a writer that pads lengths and a reader
that pads positions agree.
-/

namespace Wayland.Wire

/-! ## Words -/

@[simp] theorem length_wordBytes (w : UInt32) : (wordBytes w).length = 4 := rfl

theorem toNat_wordOfBytes (b₀ b₁ b₂ b₃ : UInt8) :
    (wordOfBytes b₀ b₁ b₂ b₃).toNat =
      b₀.toNat + 0x100 * b₁.toNat + 0x10000 * b₂.toNat + 0x1000000 * b₃.toNat := by
  have h₀ := b₀.toNat_lt
  have h₁ := b₁.toNat_lt
  have h₂ := b₂.toNat_lt
  have h₃ := b₃.toNat_lt
  simp only [wordOfBytes, UInt32.toNat_or, UInt32.toNat_shiftLeft, UInt8.toNat_toUInt32]
  -- No byte is shifted out of the word, and then no two of them overlap.
  have e₁ : b₁.toNat <<< ((8 : UInt32).toNat % 32) % 2 ^ 32 = b₁.toNat <<< 8 := by
    simp [Nat.shiftLeft_eq]; omega
  have e₂ : b₂.toNat <<< ((16 : UInt32).toNat % 32) % 2 ^ 32 = b₂.toNat <<< 16 := by
    simp [Nat.shiftLeft_eq]; omega
  have e₃ : b₃.toNat <<< ((24 : UInt32).toNat % 32) % 2 ^ 32 = b₃.toNat <<< 24 := by
    simp [Nat.shiftLeft_eq]; omega
  rw [e₁, e₂, e₃, Nat.or_comm b₀.toNat, ← Nat.shiftLeft_add_eq_or_of_lt h₀,
    Nat.or_comm _ (b₂.toNat <<< 16),
    ← Nat.shiftLeft_add_eq_or_of_lt (by simp [Nat.shiftLeft_eq]; omega),
    Nat.or_comm _ (b₃.toNat <<< 24),
    ← Nat.shiftLeft_add_eq_or_of_lt (by simp [Nat.shiftLeft_eq]; omega)]
  simp only [Nat.shiftLeft_eq]
  omega

theorem wordOfBytes_of_word (w : UInt32) :
    wordOfBytes w.toUInt8 (w >>> 8).toUInt8 (w >>> 16).toUInt8 (w >>> 24).toUInt8 = w := by
  apply UInt32.toNat_inj.1
  have h := w.toNat_lt
  rw [toNat_wordOfBytes]
  simp [Nat.shiftRight_eq_div_pow]
  omega

@[simp] theorem readWord_wordBytes (w : UInt32) (rest : Bytes) :
    readWord (wordBytes w ++ rest) = .ok (w, rest) := by
  simp [readWord, readWord?, wordBytes, wordOfBytes_of_word]

/-- The low half of a header's second word is the opcode. -/
theorem opcode_of_word (size opcode : UInt16) :
    ((size.toUInt32 <<< 16) ||| opcode.toUInt32).toUInt16 = opcode := by
  apply UInt16.toBitVec_inj.1
  ext i hi
  simp

/-- The high half of a header's second word is the size. -/
theorem size_of_word (size opcode : UInt16) :
    (((size.toUInt32 <<< 16) ||| opcode.toUInt32) >>> 16).toUInt16 = size := by
  apply UInt16.toBitVec_inj.1
  ext i hi
  simp
  grind

/-! ## Padding -/

theorem padded_mod (n : Nat) : padded n % 4 = 0 := by
  unfold padded
  omega

theorem le_padded (n : Nat) : n ≤ padded n := by
  unfold padded
  omega

/-- Lengths may be padded where positions are: a multiple of four can be taken out. -/
theorem padded_add {p : Nat} (aligned : p % 4 = 0) (n : Nat) :
    padded (p + n) = p + padded n := by
  unfold padded
  omega

@[simp] theorem length_pad (bytes : Bytes) : (pad bytes).length = padded bytes.length := by
  have h := le_padded bytes.length
  simp only [pad, List.length_append, List.length_replicate]
  omega

end Wayland.Wire
