import Calculator.Binary64
import Mathlib

/-!
Rounding to doubles.  The weights of the words increase, so every number lies between the weights
of two neighbouring words, and it is rounded to the one whose midpoints to its neighbours enclose
it.
-/
namespace Calculator.Binary64

/-- A word below the second binade weighs as much as it says. -/
theorem weight_of_lt_two_binades {w : Nat} (h : w < 2 * binade) : weight w = w := by
  rcases Nat.lt_or_ge w binade with hlt | hge
  · exact weight_of_lt hlt
  · have hdiv : w / binade = 1 := Nat.div_eq_of_lt_le (by omega) (by omega)
    have hsplit := Nat.div_add_mod w binade
    rw [hdiv] at hsplit
    rw [weight, if_neg (Nat.not_lt.mpr hge), hdiv]
    change (binade + w % binade) * 1 = w
    omega

/-- The weight of a word of `k` binades and the leading bits `q`. -/
theorem weight_of_bits {q : Nat} (k : Nat) (hlow : binade ≤ q) (hhigh : q < 2 * binade) :
    weight (k * binade + q) = q * 2 ^ k := by
  have hbinade : 0 < binade := by decide
  obtain ⟨f, rfl⟩ := Nat.exists_eq_add_of_le hlow
  have hf : f < binade := by omega
  have hsplit : k * binade + (binade + f) = binade * (k + 1) + f := by ring
  have hge : ¬ binade * (k + 1) + f < binade := by
    rw [← hsplit]
    omega
  rw [hsplit, weight, if_neg hge, Nat.mul_add_mod, Nat.mod_eq_of_lt hf,
    Nat.mul_add_div hbinade, Nat.div_eq_of_lt hf]
  rfl

/-- The next word has the next bits, also where a new binade begins. -/
theorem weight_succ_of_bits {q : Nat} (k : Nat) (hlow : binade ≤ q) (hhigh : q < 2 * binade) :
    weight (k * binade + q + 1) = (q + 1) * 2 ^ k := by
  rcases Nat.lt_or_ge (q + 1) (2 * binade) with hin | hout
  · rw [Nat.add_assoc]
    exact weight_of_bits k (Nat.le_succ_of_le hlow) hin
  · have hlast : q + 1 = 2 * binade := by omega
    have hnext : k * binade + q + 1 = (k + 1) * binade + binade := by
      rw [Nat.add_assoc, hlast]
      ring
    rw [hnext, weight_of_bits (k + 1) (Nat.le_refl _) (by omega), hlast]
    ring

/-- Every word above the first binade has its binades and its bits. -/
theorem exists_bits {w : Nat} (h : binade ≤ w) :
    ∃ k q, binade ≤ q ∧ q < 2 * binade ∧ w = k * binade + q := by
  have hbinade : 0 < binade := by decide
  have hmod := Nat.mod_lt w hbinade
  obtain ⟨k, hk⟩ := Nat.exists_eq_succ_of_ne_zero (Nat.div_pos h hbinade).ne'
  have hsplit := Nat.div_add_mod w binade
  refine ⟨k, binade + w % binade, by omega, by omega, ?_⟩
  rw [hk, Nat.mul_succ, Nat.mul_comm] at hsplit
  omega

theorem weight_strictMono : StrictMono weight := by
  apply strictMono_nat_of_lt_succ
  intro w
  rcases Nat.lt_or_ge w binade with hlt | hge
  · rw [weight_of_lt hlt, weight_of_lt_two_binades (by omega)]
    exact Nat.lt_succ_self w
  · obtain ⟨k, q, hlow, hhigh, rfl⟩ := exists_bits hge
    rw [weight_of_bits k hlow hhigh, weight_succ_of_bits k hlow hhigh]
    exact Nat.mul_lt_mul_of_pos_right (Nat.lt_succ_self q) (Nat.two_pow_pos k)

/-- `floorWord n` is the greatest word whose weight is at most `n`. -/
theorem floorWord_spec (n : Nat) : weight (floorWord n) ≤ n ∧ n < weight (floorWord n + 1) := by
  rcases Nat.lt_or_ge n (2 * binade) with hlt | hge
  · have hfloor : floorWord n = n := if_pos hlt
    have hnext := weight_strictMono (Nat.lt_succ_self n)
    rw [weight_of_lt_two_binades hlt] at hnext
    rw [hfloor, weight_of_lt_two_binades hlt]
    exact ⟨Nat.le_refl n, hnext⟩
  · have hn : n ≠ 0 := by
      rintro rfl
      exact absurd hge (by decide)
    have hlog : fractionBits ≤ n.log2 := (Nat.le_log2 hn).mpr (by
      have hbinade : binade = 2 ^ fractionBits := rfl
      omega)
    obtain ⟨k, hk⟩ := Nat.exists_eq_add_of_le hlog
    have hpos := Nat.two_pow_pos k
    have hpow : 2 ^ n.log2 = binade * 2 ^ k := by
      rw [hk, Nat.pow_add]
      rfl
    -- the leading bits of `n` are what is left of it without its last `k` bits
    have hlow : binade ≤ n / 2 ^ k := by
      rw [Nat.le_div_iff_mul_le hpos, ← hpow]
      exact Nat.log2_self_le hn
    have hhigh : n / 2 ^ k < 2 * binade := by
      rw [Nat.div_lt_iff_lt_mul hpos, Nat.mul_assoc, ← hpow, Nat.mul_comm, ← Nat.pow_succ]
      exact Nat.lt_log2_self
    have hfloor : floorWord n = k * binade + n / 2 ^ k := by
      rw [floorWord, if_neg (Nat.not_lt.mpr hge), hk, Nat.add_sub_cancel_left]
      rfl
    rw [hfloor, weight_of_bits k hlow hhigh, weight_succ_of_bits k hlow hhigh]
    exact ⟨Nat.div_mul_le_self n _, Nat.lt_mul_of_div_lt (Nat.lt_succ_self _) hpos⟩

theorem unit_eq : unit = 2 ^ unitExponent := by
  have hpow : ∀ n, Nat.pow 2 n = 2 ^ n := fun n => Nat.pow_eq
  unfold unit
  exact hpow unitExponent

theorem unit_pos : 0 < unit := by
  rw [unit_eq]
  exact Nat.two_pow_pos unitExponent

/-- The first number that is too great for a finite word. -/
theorem weight_infinityWord : weight infinityWord = 2 ^ 1024 * unit := by
  have hword : infinityWord = 2046 * binade + binade := by decide
  have hexponents : fractionBits + 2046 = 1024 + unitExponent := by decide
  rw [hword, weight_of_bits 2046 (Nat.le_refl _) (by decide), unit_eq, ← Nat.pow_add,
    ← hexponents, Nat.pow_add, binade, Nat.pow_eq]

/-- The number of `n` halves of the unit. -/
def halfUnits (n : Nat) : ℚ :=
  n / (2 * unit : Nat)

theorem halfUnits_strictMono : StrictMono halfUnits := by
  intro m n h
  have hunit : (0 : ℚ) < (2 * unit : Nat) := by exact_mod_cast Nat.mul_pos Nat.two_pos unit_pos
  exact div_lt_div_of_pos_right (by exact_mod_cast h) hunit

/-- The number `x` lies between the midpoints from the weight of `w` to its neighbours; the
midpoints themselves belong to an even word. -/
structure RoundsTo (x : ℚ) (w : Nat) : Prop where
  low_le : halfUnits (weight (w - 1) + weight w) ≤ x
  le_high : x ≤ halfUnits (weight w + weight (w + 1))
  low_lt : w % 2 = 1 → halfUnits (weight (w - 1) + weight w) < x
  lt_high : w % 2 = 1 → x < halfUnits (weight w + weight (w + 1))

variable {num den n w : Nat}

theorem halfUnits_le_iff (hden : 0 < den) :
    halfUnits n ≤ num / den ↔ n * den ≤ num * (2 * unit) := by
  have hunit : (0 : ℚ) < (2 * unit : Nat) := by exact_mod_cast Nat.mul_pos Nat.two_pos unit_pos
  have hden' : (0 : ℚ) < den := by exact_mod_cast hden
  rw [halfUnits, div_le_div_iff₀ hunit hden']
  exact_mod_cast Iff.rfl

theorem le_halfUnits_iff (hden : 0 < den) :
    (num : ℚ) / den ≤ halfUnits n ↔ num * (2 * unit) ≤ n * den := by
  have hunit : (0 : ℚ) < (2 * unit : Nat) := by exact_mod_cast Nat.mul_pos Nat.two_pos unit_pos
  have hden' : (0 : ℚ) < den := by exact_mod_cast hden
  rw [halfUnits, div_le_div_iff₀ hden' hunit]
  exact_mod_cast Iff.rfl

theorem halfUnits_lt_iff (hden : 0 < den) :
    halfUnits n < num / den ↔ n * den < num * (2 * unit) := by
  rw [← not_le, le_halfUnits_iff hden, Nat.not_le]

theorem lt_halfUnits_iff (hden : 0 < den) :
    (num : ℚ) / den < halfUnits n ↔ num * (2 * unit) < n * den := by
  rw [← not_le, halfUnits_le_iff hden, Nat.not_le]

/-- The weight of a word rounds to the word. -/
theorem roundsTo_weight (w : Nat) : RoundsTo (halfUnits (2 * weight w)) w := by
  have hnext : weight w < weight (w + 1) := weight_strictMono (Nat.lt_succ_self w)
  have hprevious := weight_strictMono.monotone (Nat.sub_le w 1)
  refine ⟨?_, ?_, ?_, ?_⟩
  · exact halfUnits_strictMono.monotone (by omega)
  · exact halfUnits_strictMono.monotone (by omega)
  · intro hodd
    have hlt : weight (w - 1) < weight w := weight_strictMono (by omega)
    exact halfUnits_strictMono (by omega)
  · intro hodd
    exact halfUnits_strictMono (by omega)

/-- A number that rounds to a finite word has this word as its nearest one. -/
theorem nearestWord_eq (hden : 0 < den) (hw : w < infinityWord)
    (h : RoundsTo (num / den) w) : nearestWord num den = w := by
  have hlow := (halfUnits_le_iff hden).mp h.low_le
  have hhigh := (le_halfUnits_iff hden).mp h.le_high
  have hlow' := fun hodd => (halfUnits_lt_iff hden).mp (h.low_lt hodd)
  have hhigh' := fun hodd => (lt_halfUnits_iff hden).mp (h.lt_high hodd)
  have hscaled : num * (2 * unit) = 2 * (num * unit) := by ring
  rw [hscaled, Nat.add_mul] at hlow hhigh hlow' hhigh'
  have hgap : ∀ {a b : Nat}, weight a * den < weight b * den → a < b := by
    intro a b h
    exact weight_strictMono.lt_iff_lt.mp (Nat.lt_of_mul_lt_mul_right h)
  have hstep : ∀ a : Nat, weight a * den < weight (a + 1) * den := fun a =>
    Nat.mul_lt_mul_of_pos_right (weight_strictMono (Nat.lt_succ_self a)) hden
  obtain ⟨hbelow, habove⟩ := floorWord_spec (num * unit / den)
  rw [Nat.le_div_iff_mul_le hden] at hbelow
  rw [Nat.div_lt_iff_lt_mul hden] at habove
  have hnext := hstep w
  simp only [nearestWord, Nat.add_mul, beq_iff_eq]
  generalize floorWord (num * unit / den) = v at hbelow habove ⊢
  have hle : v < w + 1 := hgap (by omega)
  suffices hnearest : (if 2 * (num * unit) < weight v * den + weight (v + 1) * den then v
      else if weight v * den + weight (v + 1) * den < 2 * (num * unit) then v + 1
      else if v % 2 = 0 then v else v + 1) = w by
    rw [hnearest, Nat.min_eq_left (Nat.le_of_lt hw)]
  -- the greatest word not above the number is `w` itself or the one before it
  rcases Nat.eq_or_lt_of_le (Nat.le_of_lt_succ hle) with rfl | hlt
  · split_ifs
    · rfl
    · omega
    · rfl
    · omega
  · obtain ⟨u, rfl⟩ : ∃ u, w = u + 1 := ⟨w - 1, by omega⟩
    rw [Nat.add_sub_cancel] at hlow hlow'
    have hprevious := hstep u
    have hge : u < v + 1 := hgap (by omega)
    obtain rfl : u = v := by omega
    split_ifs
    · omega
    · rfl
    · omega
    · rfl

/-! ### The range of the doubles -/

/-- The end of the range: it lies in the middle between the last finite double and the number that
the next binade would begin with. -/
def rangeEnd : Nat :=
  2 ^ 1024 - 2 ^ 970

theorem weight_last_add :
    weight (infinityWord - 1) + weight infinityWord = 2 * (rangeEnd * unit) := by
  decide +kernel

/-- A whole number is rounded to a finite double exactly if it is below the end of the range: the
end itself goes to the infinity, whose word is even. -/
theorem nearestWord_lt_infinityWord_iff : nearestWord n 1 < infinityWord ↔ n < rangeEnd := by
  obtain ⟨hbelow, habove⟩ := floorWord_spec (n * unit)
  have hlast := weight_last_add
  have hodd : (infinityWord - 1) % 2 = 1 := by decide
  have hpos : 0 < infinityWord := by decide
  have hscaled : n < rangeEnd ↔ n * unit < rangeEnd * unit :=
    (Nat.mul_lt_mul_right unit_pos).symm
  have hlastlt : weight (infinityWord - 1) < weight infinityWord :=
    weight_strictMono (Nat.sub_lt hpos Nat.one_pos)
  have hword : infinityWord - 1 + 1 = infinityWord := Nat.sub_add_cancel hpos
  simp only [nearestWord, Nat.div_one, Nat.mul_one, beq_iff_eq]
  rw [hscaled]
  generalize rangeEnd * unit = last at hlast ⊢
  generalize n * unit = scaled at hbelow habove ⊢
  generalize floorWord scaled = v at hbelow habove ⊢
  generalize infinityWord = infinity at *
  rcases Nat.lt_trichotomy v (infinity - 1) with hlt | rfl | hgt
  · have hle : weight (v + 1) ≤ weight (infinity - 1) := weight_strictMono.monotone (by omega)
    refine iff_of_true ?_ (by omega)
    split_ifs <;> omega
  · rw [hword] at habove ⊢
    split_ifs <;> omega
  · have hle : weight infinity ≤ weight v := weight_strictMono.monotone (by omega)
    refine iff_of_false ?_ (by omega)
    split_ifs <;> omega

theorem exists_ofInt?_iff {n : Int} :
    (∃ x, ofInt? n = some x) ↔ n.natAbs < rangeEnd := by
  rw [← nearestWord_lt_infinityWord_iff, ofInt?]
  by_cases h : nearestWord n.natAbs 1 < infinityWord <;> simp [h]

end Calculator.Binary64
