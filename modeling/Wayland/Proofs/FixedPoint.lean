import Mathlib.Algebra.Order.Ring.Rat
import Mathlib.Data.Int.Cast.Lemmas
import Mathlib.Tactic.Linarith
import Wayland.Fixed

/-! # Products and quotients of fixed-point numbers

`Fixed.mul` and `Fixed.div?` are defined by exact integers.  Words of 64 bits are enough to compute
them: nothing on the way leaves such a word, and only the last step, which cuts the result down to
32 bits, may lose something.

A quotient is rounded toward zero and a product is rounded down, so that a quotient times its
divisor does not give back the dividend.

* `toInt_wideProduct`, `toInt_wideDividend`, `toInt_wideQuotient`: the wide words are exact.
* `between_of_tdiv`: the quotient times the divisor lies between zero and the dividend, and it is
  nearer to the dividend than the divisor is large.
* `mul_undoes_div`: what is left of this once the product is rounded down.
-/

namespace Wayland.Fixed

variable (a b : Fixed)

/-! ## Wide words -/

/-- The product of two words, in 64 bits. -/
def wideProduct : Int64 := a.raw.toInt64 * b.raw.toInt64

/-- The word times 256, in 64 bits. -/
def wideDividend : Int64 := a.raw.toInt64 <<< 8

/-- The quotient in 256ths, in 64 bits. -/
def wideQuotient : Int64 := a.wideDividend / b.raw.toInt64

/-- The quotient in 256ths, rounded toward zero, whether or not it fits a word. -/
def exactQuotient : Int := (a.raw.toInt * 256).tdiv b.raw.toInt

/-- Whether an integer fits a word. -/
def FitsWord (n : Int) : Prop := -2147483648 ≤ n ∧ n ≤ 2147483647

theorem fitsWord_raw : FitsWord a.raw.toInt := by
  have low := a.raw.le_toInt
  have high := a.raw.toInt_lt
  unfold FitsWord
  omega

theorem toInt_ofInt_of_fitsWord {n : Int} (fits : FitsWord n) : (Int32.ofInt n).toInt = n := by
  obtain ⟨low, high⟩ := fits
  exact Int32.toInt_ofInt_of_le (by omega) (by omega)

theorem toInt_wideProduct : (a.wideProduct b).toInt = a.raw.toInt * b.raw.toInt := by
  obtain ⟨lowA, highA⟩ := a.fitsWord_raw
  obtain ⟨lowB, highB⟩ := b.fitsWord_raw
  have bound : (a.raw.toInt * b.raw.toInt).natAbs ≤ 2147483648 * 2147483648 := by
    rw [Int.natAbs_mul]
    exact Nat.mul_le_mul (by omega) (by omega)
  rw [wideProduct, Int64.toInt_mul, Int32.toInt_toInt64, Int32.toInt_toInt64]
  exact Int.bmod_eq_of_le (by omega) (by omega)

/-- To shift a 64-bit word to the left by eight bits is to multiply it by 256. -/
theorem shiftLeft_eight (w : Int64) : w <<< 8 = w * 256 := by
  have amount : (8 : Int64).toBitVec.smod 64 = 8#64 := by decide
  apply Int64.toBitVec_inj.1
  rw [Int64.toBitVec_shiftLeft, Int64.toBitVec_mul, amount, BitVec.shiftLeft_eq',
    BitVec.shiftLeft_eq_mul_twoPow]
  rfl

/-- To shift a 64-bit word to the right by eight bits is to divide it by 256 and round down. -/
theorem toInt_shiftRight_eight (w : Int64) : (w >>> 8).toInt = w.toInt.fdiv 256 := by
  have amount : (8 : Int64).toBitVec.smod 64 = 8#64 := by decide
  rw [← Int64.toInt_toBitVec, Int64.toBitVec_shiftRight, amount, BitVec.sshiftRight_eq',
    BitVec.toInt_sshiftRight, Int.shiftRight_eq_div_pow, Int.fdiv_eq_ediv_of_nonneg _ (by decide)]
  rfl

theorem toInt_wideDividend : a.wideDividend.toInt = a.raw.toInt * 256 := by
  obtain ⟨low, high⟩ := a.fitsWord_raw
  have factor : (256 : Int64).toInt = 256 := by decide
  rw [wideDividend, shiftLeft_eight, Int64.toInt_mul, Int32.toInt_toInt64, factor]
  exact Int.bmod_eq_of_le (by omega) (by omega)

/-- The dividend is far from the one word whose quotient by -1 does not fit. -/
theorem toInt_wideQuotient : (a.wideQuotient b).toInt = a.exactQuotient b := by
  obtain ⟨low, high⟩ := a.fitsWord_raw
  have exact := a.toInt_wideDividend
  have inside : a.wideDividend ≠ Int64.minValue := by
    intro least
    rw [least, Int64.toInt_minValue] at exact
    omega
  rw [wideQuotient, Int64.toInt_div_of_ne_left _ _ inside, exact, Int32.toInt_toInt64,
    exactQuotient]

/-- The product is the wide one, shifted and cut down to a word. -/
theorem mul_eq_narrowed : a.mul b = ⟨(a.wideProduct b >>> 8).toInt32⟩ := by
  rw [mul, ← toInt_wideProduct, ← toInt_shiftRight_eight, ← Int64.toInt32_ofInt,
    Int64.ofInt_toInt]

/-- The quotient is the wide one, cut down to a word. -/
theorem div?_eq_narrowed (divisible : b.raw ≠ 0) :
    a.div? b = some ⟨(a.wideQuotient b).toInt32⟩ := by
  have exact := a.toInt_wideQuotient b
  rw [exactQuotient] at exact
  rw [div?, if_neg divisible, ← exact, ← Int64.toInt32_ofInt, Int64.ofInt_toInt]

/-! ## Back from a quotient -/

/-- A number that is rounded toward zero to a multiple of `y` does not change its sign, and it
    loses less than `y`. -/
theorem between_of_tdiv (x : Int) {y : Int} (nonzero : y ≠ 0) :
    (0 ≤ x → 0 ≤ x.tdiv y * y ∧ x.tdiv y * y ≤ x ∧ x - x.tdiv y * y < y.natAbs) ∧
    (x ≤ 0 → x ≤ x.tdiv y * y ∧ x.tdiv y * y ≤ 0 ∧ x.tdiv y * y - x < y.natAbs) := by
  have split : x.tdiv y * y + x.tmod y = x := by
    rw [Int.mul_comm]
    exact Int.mul_tdiv_add_tmod x y
  have small : (x.tmod y).natAbs < y.natAbs := by
    rw [Int.natAbs_tmod]
    exact Nat.mod_lt _ (by omega)
  have shorter : (x.tmod y).natAbs ≤ x.natAbs := by
    rw [Int.natAbs_tmod]
    exact Nat.mod_le _ _
  -- The remainder has the sign of the dividend.
  constructor
  · intro positive
    have sign := Int.tmod_nonneg y positive
    omega
  · intro negative
    have sign := Int.tmod_nonneg y (Int.neg_nonneg_of_nonpos negative)
    rw [Int.neg_tmod] at sign
    omega

/-- What is left of a dividend when its quotient, rounded toward zero, is multiplied by the divisor
    and the product is rounded down: it lies between zero and the dividend. -/
theorem restored_between (x : Int) {y : Int} (nonzero : y ≠ 0) :
    let r := ((x * 256).tdiv y * y).fdiv 256
    (0 ≤ r ∧ r ≤ x ∨ x ≤ r ∧ r ≤ 0) ∧
      -(y.natAbs + 256 : Int) < (r - x) * 256 ∧ (r - x) * 256 < y.natAbs := by
  intro r
  obtain ⟨positive, negative⟩ := between_of_tdiv (x * 256) nonzero
  have rounded : r * 256 ≤ (x * 256).tdiv y * y ∧ (x * 256).tdiv y * y < r * 256 + 256 := by
    unfold r
    rw [Int.fdiv_eq_ediv_of_nonneg _ (by decide)]
    omega
  generalize (x * 256).tdiv y * y = product at positive negative rounded
  omega

/-- The bounds of `restored_between` as rational numbers. -/
theorem rational_bounds {r x y : Int} (low : -(y.natAbs + 256 : Int) < (r - x) * 256)
    (high : (r - x) * 256 < y.natAbs) :
    -(|(y : ℚ)| / 256 + 1) < (r : ℚ) - x ∧ (r : ℚ) - x < |(y : ℚ)| / 256 := by
  rw [Int.natCast_natAbs] at low high
  have low' : -(|(y : ℚ)| + 256) < ((r : ℚ) - x) * 256 := by exact_mod_cast low
  have high' : ((r : ℚ) - x) * 256 < |(y : ℚ)| := by exact_mod_cast high
  constructor <;> linarith

/-- Division by a number other than zero, and multiplication by it.  Both can be computed in words
    of 64 bits, which nothing on the way leaves.  If the quotient in 256ths, rounded toward zero,
    fits a word, then the quotient times the divisor is not larger than the dividend, so that the
    product fits, too; it exceeds the dividend by less than the divisor, and falls short of it by
    less than the divisor and one step.  If the quotient does not fit, it is reduced modulo the
    number of words. -/
theorem mul_undoes_div (a b : Fixed) (divisible : b.raw ≠ 0) :
    let exact := a.exactQuotient b
    (a.wideDividend.toInt = a.raw.toInt * 256 ∧ (a.wideQuotient b).toInt = exact ∧
      ∀ c : Fixed, (c.wideProduct b).toInt = c.raw.toInt * b.raw.toInt ∧
        c.mul b = ⟨(c.wideProduct b >>> 8).toInt32⟩) ∧
    ∃ q, a.div? b = some q ∧ q = ⟨(a.wideQuotient b).toInt32⟩ ∧
      (FitsWord exact → q.raw.toInt = exact ∧
        let r := (q.mul b).raw.toInt
        r = (exact * b.raw.toInt).fdiv 256 ∧ r.natAbs ≤ a.raw.toInt.natAbs ∧
          -(|(b.raw.toInt : ℚ)| / 256 + 1) < (r : ℚ) - a.raw.toInt ∧
          (r : ℚ) - a.raw.toInt < |(b.raw.toInt : ℚ)| / 256) ∧
      (¬ FitsWord exact → q.raw.toInt = exact.bmod 4294967296) := by
  intro exact
  have nonzero : b.raw.toInt ≠ 0 := fun zero => divisible (Int32.toInt_inj.1 zero)
  refine ⟨⟨a.toInt_wideDividend, a.toInt_wideQuotient b, fun c => ?_⟩,
    ⟨(a.wideQuotient b).toInt32⟩, a.div?_eq_narrowed b divisible, rfl, fun fits => ?_, fun _ => ?_⟩
  · exact ⟨c.toInt_wideProduct b, c.mul_eq_narrowed b⟩
  · have quotient : (a.wideQuotient b).toInt32.toInt = exact := by
      rw [← Int64.ofInt_toInt (a.wideQuotient b), toInt_wideQuotient, Int64.toInt32_ofInt]
      exact toInt_ofInt_of_fitsWord fits
    obtain ⟨between, low, high⟩ := restored_between a.raw.toInt nonzero
    have product : ((⟨(a.wideQuotient b).toInt32⟩ : Fixed).mul b).raw.toInt =
        (exact * b.raw.toInt).fdiv 256 := by
      rw [mul, quotient]
      apply toInt_ofInt_of_fitsWord
      -- Also the least word leaves room: the product does not change its sign.
      obtain ⟨least, greatest⟩ := a.fitsWord_raw
      unfold FitsWord exact exactQuotient
      omega
    refine ⟨quotient, product, ?_, ?_⟩
    · rw [product]
      unfold exact exactQuotient
      omega
    · rw [product]
      exact rational_bounds low high
  · rw [Int64.toInt_toInt32, toInt_wideQuotient]

/-- The least number is not quite given back.  The greatest one, divided by the smallest step, has a
    quotient that does not fit: it becomes -1. -/
theorem mul_undoes_div_least :
    (∃ q, (⟨-2147483648⟩ : Fixed).div? ⟨-1000⟩ = some q ∧ q.raw.toInt = 549755813 ∧
      let r := (q.mul ⟨-1000⟩).raw.toInt
      r = -2147483645 ∧ r.natAbs ≤ 2147483648 ∧ (r : ℚ) - (-2147483648 : Int) < 1000 / 256) ∧
    ∃ q, (⟨2147483647⟩ : Fixed).div? epsilon = some q ∧ q.raw.toInt = -256 := by
  obtain ⟨_, q, divided, _, restores, _⟩ :=
    mul_undoes_div ⟨-2147483648⟩ ⟨-1000⟩ (by decide)
  obtain ⟨_, w, wrapped, _, _, reduced⟩ := mul_undoes_div ⟨2147483647⟩ epsilon (by decide)
  obtain ⟨quotient, product, shorter, _, high⟩ := restores (by unfold FitsWord; decide)
  refine ⟨⟨q, divided, quotient.trans (by decide), product.trans (by decide), shorter, ?_⟩,
    w, wrapped, (reduced (by unfold FitsWord; decide)).trans (by decide)⟩
  have divisor : |((⟨-1000⟩ : Fixed).raw.toInt : ℚ)| = 1000 := by
    rw [show (⟨-1000⟩ : Fixed).raw.toInt = -1000 by decide]
    norm_num
  rw [divisor] at high
  exact high

end Wayland.Fixed
