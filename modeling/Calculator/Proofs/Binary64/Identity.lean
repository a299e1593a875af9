import Calculator.Decimal.Numeral
import Mathlib

/-!
Identity of doubles.  A double is its sign and its word, and only the NaN has words that are not
its own.  So two doubles are identical just if they are equal.
-/
namespace Calculator.Binary64

open Float.Model.UnpackedFloat

variable {x y : Float}

/-- A double is its sign and its word. -/
theorem ofWord_word (x : Float) : ofWord (isNegative x) (word x) = x := by
  have hbits : (if isNegative x then word x + signBit else word x) = x.toBits.toNat := by
    have hlt := x.toBits.toNat_lt
    have hsign : signBit = 2 ^ 63 := rfl
    simp only [isNegative, word, decide_eq_true_eq, hsign]
    split <;> omega
  rw [ofWord, hbits, UInt64.ofNat_toNat, Float.ofBits_toBits]

/-- Every word beyond the infinity is that of the one NaN. -/
theorem toBits_of_isNaN (h : infinityWord < word x) : x.toBits.toNat = Numeral.nanWord := by
  have hlt := x.toBits.toNat_lt
  have hsign : signBit = 2 ^ 63 := rfl
  have hinfinity : infinityWord = 2047 * 2 ^ 52 := rfl
  rw [word, hsign, hinfinity] at h
  have hbits : x.toBits.toBitVec = packedNaN .binary64 := by
    apply x.toModel.valid.eq_packedNaN
    · apply BitVec.eq_of_toNat_eq
      simp only [unpackExponent, BitVec.toNat_cast, BitVec.extractLsb_toNat]
      change (x.toBits.toNat >>> 52) % 2 ^ 11 = 2047
      rw [Nat.shiftRight_eq_div_pow]
      omega
    · intro hzero
      have hfraction := congrArg BitVec.toNat hzero
      simp only [unpackMantissa, BitVec.toNat_cast, BitVec.extractLsb_toNat] at hfraction
      change (x.toBits.toNat >>> 0) % 2 ^ 52 = 0 at hfraction
      rw [Nat.shiftRight_zero] at hfraction
      omega
  exact (congrArg BitVec.toNat hbits).trans (by decide)

theorem identical_self (x : Float) : identical x x = true := by
  rw [identical]
  cases hnan : isNaN x with
  | true => rfl
  | false => simp

/-- There is one NaN, and zeros of different sign are different doubles. -/
theorem identical_iff_eq : identical x y = true ↔ x = y := by
  constructor
  · intro h
    rw [identical] at h
    split at h
    · obtain ⟨hx, hy⟩ : isNaN x = true ∧ isNaN y = true := by simpa using h
      have hx := toBits_of_isNaN (of_decide_eq_true hx)
      have hy := toBits_of_isNaN (of_decide_eq_true hy)
      have hbits : x.toBits = y.toBits := UInt64.toNat_inj.mp (hx.trans hy.symm)
      rw [← Float.ofBits_toBits x, hbits, Float.ofBits_toBits]
    · obtain ⟨hsign, hword⟩ : isNegative x = isNegative y ∧ word x = word y := by simpa using h
      rw [← ofWord_word x, hsign, hword, ofWord_word]
  · rintro rfl
    exact identical_self x

end Calculator.Binary64
