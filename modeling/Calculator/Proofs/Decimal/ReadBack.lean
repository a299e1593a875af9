import Calculator.Decimal.Shortest
import Calculator.Proofs.Binary64.Rounding

/-!
The shortest decimal of a double is read back as this double.  Both are about the rounding interval
of a word: the search for the shortest decimal ends with one that lies in the interval, and reading
gives every decimal there the same word, however it is written.
-/
namespace Calculator

open Binary64 (RoundsTo halfUnits weight unit)

namespace Decimal

variable {d : Decimal} {digits count w : Nat} {exponent : Int}

/-- The number that a decimal is. -/
def toRat (d : Decimal) : ℚ :=
  d.digits * (10 : ℚ) ^ d.exponent

theorem toRat_eq_fraction (d : Decimal) :
    d.toRat = (d.fraction.1 : ℚ) / (d.fraction.2 : Nat) := by
  obtain ⟨digits, exponent⟩ := d
  simp only [toRat, fraction, Nat.pow_eq, Nat.cast_mul, Nat.cast_pow, Nat.cast_ofNat]
  rcases Int.le_total 0 exponent with hpos | hneg
  · obtain ⟨n, rfl⟩ := Int.eq_ofNat_of_zero_le hpos
    simp
  · obtain ⟨n, hn⟩ := Int.eq_ofNat_of_zero_le (Int.neg_nonneg.mpr hneg)
    obtain rfl : exponent = -(n : Int) := by omega
    simp [div_eq_mul_inv]

theorem fraction_snd_pos (d : Decimal) : 0 < d.fraction.2 :=
  Nat.pow_pos (by decide)

/-- The comparison with half units is exact. -/
theorem compareHalfUnits_eq (digits : Nat) (exponent : Int) (n : Nat) :
    (compareHalfUnits digits exponent n = .lt ↔ toRat ⟨digits, exponent⟩ < halfUnits n) ∧
      (compareHalfUnits digits exponent n = .gt ↔ halfUnits n < toRat ⟨digits, exponent⟩) := by
  have hden := fraction_snd_pos ⟨digits, exponent⟩
  rw [toRat_eq_fraction, Binary64.lt_halfUnits_iff hden, Binary64.halfUnits_lt_iff hden]
  exact ⟨Nat.compare_eq_lt, Nat.compare_eq_gt⟩

theorem readsAs_iff : readsAs digits exponent w = true ↔ RoundsTo (toRat ⟨digits, exponent⟩) w := by
  obtain ⟨hlowLt, hlowGt⟩ := compareHalfUnits_eq digits exponent (weight (w - 1) + weight w)
  obtain ⟨hhighLt, hhighGt⟩ := compareHalfUnits_eq digits exponent (weight w + weight (w + 1))
  simp only [readsAs]
  rcases Nat.mod_two_eq_zero_or_one w with heven | hodd
  · simp only [heven, beq_self_eq_true, ↓reduceIte, Bool.and_eq_true, bne_iff_ne, ne_eq, hlowLt,
      hhighGt, not_lt]
    constructor
    · rintro ⟨hlow, hhigh⟩
      exact ⟨hlow, hhigh, fun h => by omega, fun h => by omega⟩
    · intro h
      exact ⟨h.low_le, h.le_high⟩
  · simp only [hodd, Nat.reduceBEq, Bool.false_eq_true, ↓reduceIte, Bool.and_eq_true, beq_iff_eq,
      hlowGt, hhighLt]
    constructor
    · rintro ⟨hlow, hhigh⟩
      exact ⟨hlow.le, hhigh.le, fun _ => hlow, fun _ => hhigh⟩
    · intro h
      exact ⟨h.low_lt hodd, h.lt_high hodd⟩

/-! ### The search ends with a decimal of the double -/

/-- What is taken of the two multiples around a double is one that is read as the double. -/
theorem readsAs_of_multiple? (h : multiple? exponent w = some digits) :
    readsAs digits exponent w = true := by
  unfold multiple? at h
  dsimp only at h
  generalize hb : readsAs (floorMultiple exponent w) exponent w = b at h
  generalize ha : readsAs (floorMultiple exponent w + 1) exponent w = a at h
  generalize compareHalfUnits _ _ _ = nearer at h
  generalize floorMultiple exponent w = below at h hb ha
  cases b <;> cases a
  · cases h
  · obtain rfl := Option.some.inj h
    exact ha
  · obtain rfl := Option.some.inj h
    exact hb
  · -- both are read as the double, so it does not matter which one is the nearer
    cases nearer with
    | lt =>
        obtain rfl := Option.some.inj h
        exact ha
    | gt =>
        obtain rfl := Option.some.inj h
        exact hb
    | eq =>
        obtain rfl := Option.some.inj h
        split
        · exact hb
        · exact ha

/-- None is taken only if the multiple below the double is not read as it. -/
theorem readsAs_floorMultiple_of_none (h : multiple? exponent w = none) :
    readsAs (floorMultiple exponent w) exponent w = false := by
  unfold multiple? at h
  dsimp only at h
  generalize readsAs (floorMultiple exponent w) exponent w = b at h ⊢
  generalize readsAs (floorMultiple exponent w + 1) exponent w = a at h
  generalize compareHalfUnits _ _ _ = nearer at h
  cases b
  · rfl
  · cases a
    · cases h
    · cases nearer <;> cases h

/-- Every double is a multiple of the last power of ten that is tried. -/
theorem toRat_floorMultiple (w : Nat) :
    toRat ⟨floorMultiple (-Binary64.unitExponent) w, -Binary64.unitExponent⟩ =
      halfUnits (2 * weight w) := by
  have hunit : unit = 2 ^ Binary64.unitExponent := Binary64.unit_eq
  rw [halfUnits, toRat, floorMultiple, hunit]
  generalize Binary64.unitExponent = n
  generalize weight w = m
  have hfloor : m * Nat.pow 10 (-(-(n : Int))).toNat / (Nat.pow 10 (-(n : Int)).toNat * 2 ^ n) =
      m * 5 ^ n := by
    rw [Int.neg_neg, Int.toNat_natCast, Int.toNat_neg_natCast, Nat.pow_eq, Nat.pow_eq,
      Nat.pow_zero, Nat.one_mul, show 10 = 5 * 2 from rfl, Nat.mul_pow, ← Nat.mul_assoc,
      Nat.mul_div_cancel _ (Nat.two_pow_pos n)]
  have hten : (10 : ℚ) ^ (-(n : Int)) = 1 / (5 ^ n * 2 ^ n) := by
    rw [zpow_neg, zpow_natCast, show (10 : ℚ) = 5 * 2 by norm_num, mul_pow, one_div]
  rw [hfloor, hten]
  push_cast
  field_simp

/-- The search comes to a decimal of the double at the last power of ten at the latest. -/
theorem roundsTo_coarsest (hexponent : -Binary64.unitExponent ≤ exponent)
    (hcount : exponent - count < -Binary64.unitExponent) :
    RoundsTo (coarsest w exponent count).toRat w := by
  induction count generalizing exponent with
  | zero => omega
  | succ count ih =>
      rw [coarsest]
      generalize hmultiple : multiple? exponent w = found
      cases found with
      | some digits => exact readsAs_iff.mp (readsAs_of_multiple? hmultiple)
      | none =>
          have hne : exponent ≠ -Binary64.unitExponent := by
            rintro rfl
            have hread : readsAs (floorMultiple (-Binary64.unitExponent) w)
                (-Binary64.unitExponent) w = true := by
              rw [readsAs_iff, toRat_floorMultiple]
              exact Binary64.roundsTo_weight w
            rw [readsAs_floorMultiple_of_none hmultiple] at hread
            cases hread
          exact ih (by omega) (by push_cast at hcount; omega)

/-- The shortest decimal of a double rounds to the double. -/
theorem roundsTo_shortest (w : Nat) : RoundsTo (shortest w).toRat w := by
  rw [shortest]
  exact roundsTo_coarsest (by omega) (by push_cast; omega)

/-! ### Reading by comparison of powers of ten -/

/-- The digits of a decimal place it between two powers of ten. -/
theorem toRat_bounds (h : d.digits ≠ 0) :
    (10 : ℚ) ^ (d.exponent + digitCount d.digits - 1) ≤ d.toRat ∧
      d.toRat < (10 : ℚ) ^ (d.exponent + digitCount d.digits) := by
  have hpos : (0 : ℚ) < 10 ^ d.exponent := zpow_pos (by norm_num) _
  have hcount : 0 < digitCount d.digits := Nat.length_toDigits_pos
  obtain ⟨count, hsucc⟩ := Nat.exists_eq_succ_of_ne_zero hcount.ne'
  have hupper : d.digits < 10 ^ (count + 1) :=
    (Nat.length_toDigits_le_iff (by decide) (by omega)).mp hsucc.le
  have hlower : 10 ^ count ≤ d.digits := by
    by_contra hlt
    rcases Nat.eq_zero_or_pos count with rfl | hcount'
    · omega
    · have hfewer : digitCount d.digits ≤ count :=
        (Nat.length_toDigits_le_iff (by decide) hcount').mpr (Nat.not_le.mp hlt)
      omega
  have hfirst : (10 : ℚ) ^ (d.exponent + (count + 1 : Nat) - 1) = 10 ^ count * 10 ^ d.exponent := by
    rw [← zpow_natCast, ← zpow_add₀ (by norm_num)]
    congr 1
    push_cast
    ring
  have hnext :
      (10 : ℚ) ^ (d.exponent + (count + 1 : Nat)) = 10 ^ (count + 1) * 10 ^ d.exponent := by
    rw [← zpow_natCast, ← zpow_add₀ (by norm_num), add_comm]
  rw [hsucc, toRat, Nat.succ_eq_add_one, hfirst, hnext]
  constructor
  · exact mul_le_mul_of_nonneg_right (by exact_mod_cast hlower) hpos.le
  · exact mul_lt_mul_of_pos_right (by exact_mod_cast hupper) hpos

/-- A number nearer to zero than to the least double rounds to zero only. -/
theorem word_eq_zero_of_lt {x : ℚ} (h : RoundsTo x w) (hx : x < halfUnits 1) : w = 0 := by
  by_contra hne
  have hlow := Binary64.halfUnits_strictMono.lt_iff_lt.mp (lt_of_le_of_lt h.low_le hx)
  have hpos : weight 0 < weight w := Binary64.weight_strictMono (Nat.pos_of_ne_zero hne)
  omega

theorem two_pow_lt_ten_pow {m n : Nat} (h : 2 ^ m < 10 ^ n) : (2 : ℚ) ^ m < 10 ^ n := by
  exact_mod_cast h

/-- No finite word reaches the power of ten from which on numbers are read as the infinity. -/
theorem halfUnits_lt_overflow (hw : w < Binary64.infinityWord) :
    halfUnits (weight w + weight (w + 1)) < (10 : ℚ) ^ overflowPower := by
  have hle : weight (w + 1) ≤ weight Binary64.infinityWord :=
    Binary64.weight_strictMono.monotone hw
  have hlt : weight w < weight Binary64.infinityWord := Binary64.weight_strictMono hw
  have hunit : (0 : ℚ) < (2 * unit : Nat) := by
    exact_mod_cast Nat.mul_pos Nat.two_pos Binary64.unit_pos
  have hpower : (2 : ℚ) ^ 1024 < 10 ^ overflowPower := by
    rw [show overflowPower = (309 : Nat) from rfl, zpow_natCast]
    exact two_pow_lt_ten_pow (by decide +kernel)
  calc halfUnits (weight w + weight (w + 1))
      ≤ halfUnits (2 ^ 1024 * (2 * unit)) := by
        apply Binary64.halfUnits_strictMono.monotone
        rw [Binary64.weight_infinityWord] at hle hlt
        rw [Nat.mul_left_comm]
        omega
    _ = 2 ^ 1024 := by
        rw [halfUnits, Nat.cast_mul, mul_div_cancel_right₀ _ hunit.ne', Nat.cast_pow]
        rfl
    _ < 10 ^ overflowPower := hpower

theorem underflow_lt_halfUnits : (10 : ℚ) ^ (underflowPower - 1) < halfUnits 1 := by
  have hpower : (2 : ℚ) ^ (Binary64.unitExponent + 1) < 10 ^ 325 :=
    two_pow_lt_ten_pow (by decide +kernel)
  have hunit : (0 : ℚ) < 2 ^ (Binary64.unitExponent + 1) := by positivity
  rw [halfUnits, Binary64.unit_eq, ← Nat.pow_succ', show underflowPower - 1 = -(325 : Nat) from rfl,
    zpow_neg, zpow_natCast, Nat.cast_one, one_div, Nat.cast_pow]
  exact inv_strictAnti₀ hunit hpower

/-- A decimal that rounds to a finite word is read as this word. -/
theorem nearestWord_eq_of_roundsTo (hw : w < Binary64.infinityWord) (h : RoundsTo d.toRat w) :
    d.nearestWord = w := by
  have hten : (1 : ℚ) ≤ 10 := by norm_num
  simp only [nearestWord, beq_iff_eq]
  split_ifs with hzero hover hunder
  · have hsmall : d.toRat < halfUnits 1 := by
      rw [toRat, hzero, Nat.cast_zero, zero_mul]
      exact lt_trans (zpow_pos (by norm_num) _) underflow_lt_halfUnits
    exact (word_eq_zero_of_lt h hsmall).symm
  · have hle : (10 : ℚ) ^ overflowPower ≤ d.toRat :=
      le_trans (zpow_le_zpow_right₀ hten (by omega)) (toRat_bounds hzero).1
    exact absurd (lt_of_le_of_lt (le_trans hle h.le_high) (halfUnits_lt_overflow hw)) (lt_irrefl _)
  · have hsmall : d.toRat < halfUnits 1 :=
      lt_trans (lt_of_lt_of_le (toRat_bounds hzero).2 (zpow_le_zpow_right₀ hten (by omega)))
        underflow_lt_halfUnits
    exact (word_eq_zero_of_lt h hsmall).symm
  · rw [toRat_eq_fraction] at h
    exact Binary64.nearestWord_eq (fraction_snd_pos d) hw h

end Decimal

end Calculator
