import Calculator.Binary64
import Mathlib

/-!
Negation of doubles.  A double is a sign, an exponent and a fraction; unpacking such parts and
packing them again changes nothing but the payload of a NaN, and negation changes the sign alone.
So the double of a word and a minus sign is the negated double of the word.
-/
namespace Calculator.Binary64

open Float.Model.UnpackedFloat

variable (s : Sign) (e : BitVec 11) (m : BitVec 52)

/-- The bits of a double from its parts. -/
def assemble : BitVec 64 :=
  packComponents .binary64 s e m

/-- Negation is unpacking with the other sign. -/
theorem neg_unpack_assemble :
    (unpack .binary64 (assemble s e m)).neg = unpack .binary64 (assemble (-s) e m) := by
  simp only [unpack, assemble, unpackExponent_packComponents, unpackMantissa_packComponents,
    unpackSign_packComponents, Sign.ofBitVec_toBitVec]
  split
  · split <;> rfl
  · split
    · split <;> rfl
    · rfl

/-- Packing keeps what a double stands for, also of a NaN, whose payload it does not keep. -/
theorem unpack_pack_unpack (b : BitVec Float.Model.Format.binary64.numBits) :
    unpack .binary64 (pack .binary64 (unpack .binary64 b)) = unpack .binary64 b := by
  rw [pack_unpack b]
  split
  · -- a NaN is packed as the one canonical NaN, which is unpacked to the same
    rename_i hnan
    have hparts : unpackExponent b = -1#11 ∧ unpackMantissa b ≠ 0#52 := of_decide_eq_true hnan
    have hunpack : unpack .binary64 b = .notANumber := by
      simp only [unpack]
      rw [if_pos hparts.1, if_neg hparts.2]
    rw [unpack_packedNaN, hunpack]
  · rfl

theorem neg_ofBits_assemble :
    -(Float.ofBits (.ofBitVec (assemble s e m))) =
      Float.ofBits (.ofBitVec (assemble (-s) e m)) := by
  change Float.ofModel (Float.Model.pack
      (unpack .binary64 (pack .binary64 (unpack .binary64 (assemble s e m)))).neg) =
    Float.ofModel (Float.Model.pack (unpack .binary64 (assemble (-s) e m)))
  rw [unpack_pack_unpack, neg_unpack_assemble]

/-- The bits of a word and a sign. -/
theorem bits_eq_assemble (negative : Bool) {w : Nat} (h : w < signBit) :
    UInt64.ofNat (if negative then w + signBit else w) =
      .ofBitVec (assemble (if negative then .negative else .positive)
        (BitVec.ofNat 11 (w / binade)) (BitVec.ofNat 52 w)) := by
  have hsign : signBit = 2 ^ 63 := rfl
  have hbinade : binade = 2 ^ 52 := rfl
  apply UInt64.toNat_inj.mp
  have happend : ∀ {i j : Nat} (a : BitVec i) (b : BitVec j),
      (a ++ b).toNat = a.toNat * 2 ^ j + b.toNat := by
    intro i j a b
    rw [BitVec.toNat_append, ← Nat.shiftLeft_add_eq_or_of_lt b.isLt, Nat.shiftLeft_eq]
  change _ = (((if negative then Sign.negative else .positive).toBitVec ++
    BitVec.ofNat 11 (w / binade)) ++ BitVec.ofNat 52 w).toNat
  rw [hsign] at h
  rw [happend, happend, UInt64.toNat_ofNat', BitVec.toNat_ofNat, BitVec.toNat_ofNat, hsign,
    hbinade]
  cases negative
  · simp only [Bool.false_eq_true, ↓reduceIte, Sign.toBitVec, BitVec.toNat_ofNat]
    omega
  · simp only [↓reduceIte, Sign.toBitVec, BitVec.toNat_ofNat]
    omega

/-- A minus sign before a word negates its double. -/
theorem neg_ofWord {w : Nat} (h : w < signBit) : -ofWord false w = ofWord true w := by
  rw [ofWord, ofWord, bits_eq_assemble false h, bits_eq_assemble true h, neg_ofBits_assemble]
  rfl

end Calculator.Binary64
