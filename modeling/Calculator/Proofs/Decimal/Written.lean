import Calculator.Decimal.Layout
import Calculator.Proofs.Binary64.Identity
import Calculator.Proofs.Decimal.ReadBack
import Calculator.Proofs.Decimal.Spelling

/-!
Doubles that are written.  The text of a double is a minus sign, where it is negative, and a
spelling of a numeral whose value is the double again.
-/
namespace Calculator

namespace Numeral

variable {cs cs' : List Char} {ds ds' : List Nat} {n : Nat}

/-! ### Digits of natural numbers -/

theorem Digits.append (h : Digits cs ds) (h' : Digits cs' ds') :
    Digits (cs ++ cs') (ds ++ ds') := by
  rw [Digits, List.map_append, List.map_append, h, h']

theorem Digits.take (h : Digits cs ds) (n : Nat) : Digits (cs.take n) (ds.take n) := by
  rw [Digits, List.map_take, List.map_take, h]

theorem Digits.drop (h : Digits cs ds) (n : Nat) : Digits (cs.drop n) (ds.drop n) := by
  rw [Digits, List.map_drop, List.map_drop, h]

theorem Digits.ne_nil (h : Digits cs ds) (hne : cs ≠ []) : ds ≠ [] := by
  rintro rfl
  exact hne (List.length_eq_zero_iff.mp h.length_eq)

theorem digits_zeros (n : Nat) : Digits (List.replicate n '0') (List.replicate n 0) := by
  rw [Digits, List.map_replicate, List.map_replicate]
  rfl

theorem digits_digitChar {d : Nat} (h : d < 10) : Digits [Nat.digitChar d] [d] := by
  have hall : ∀ d < 10, Text.digitValue? (Nat.digitChar d) = some d := by decide
  exact digits_cons.mpr ⟨hall d h, digits_nil⟩

theorem ofDigits_append_singleton (ds : List Nat) (d : Nat) :
    ofDigits (ds ++ [d]) = 10 * ofDigits ds + d := by
  rw [ofDigits, List.foldl_append]
  rfl

theorem ofDigits_append_zeros (ds : List Nat) (n : Nat) :
    ofDigits (ds ++ List.replicate n 0) = ofDigits ds * 10 ^ n := by
  induction n with
  | zero => simp
  | succ n ih =>
      rw [List.replicate_succ', ← List.append_assoc, ofDigits_append_singleton, ih, Nat.pow_succ]
      ring

theorem ofDigits_zeros_append (n : Nat) (ds : List Nat) :
    ofDigits (List.replicate n 0 ++ ds) = ofDigits ds := by
  have hzeros : (List.replicate n 0).foldl (fun n d => 10 * n + d) 0 = 0 := by
    have h := ofDigits_append_zeros [] n
    rwa [ofDigits, List.nil_append, ofDigits, List.foldl_nil, Nat.zero_mul] at h
  rw [ofDigits, List.foldl_append, hzeros, ofDigits]

/-- A natural number is written with digits that denote it. -/
theorem digits_toDigits (n : Nat) : ∃ ds, Digits (Nat.toDigits 10 n) ds ∧ ofDigits ds = n := by
  induction n using Nat.strongRecOn with
  | ind n ih =>
      rcases Nat.lt_or_ge n 10 with hlt | hge
      · refine ⟨[n], ?_, Nat.zero_add n⟩
        rw [Nat.toDigits_of_lt_base hlt]
        exact digits_digitChar hlt
      · obtain ⟨ds, hdigits, hvalue⟩ := ih (n / 10) (by omega)
        refine ⟨ds ++ [n % 10], ?_, ?_⟩
        · rw [Nat.toDigits_of_base_le (by decide) hge]
          exact hdigits.append (digits_digitChar (by omega))
        · rw [ofDigits_append_singleton, hvalue]
          omega

/-! ### Decimals as they are laid out -/

/-- The text is a decimal numeral of the number `x`. -/
def Denotes (cs : List Char) (x : ℚ) : Prop :=
  ∃ whole fraction exponent, Spelling cs (.decimal whole fraction exponent) ∧
    Decimal.toRat ⟨ofDigits (whole ++ fraction), exponent - fraction.length⟩ = x

theorem denotes_toDigits (n : Nat) : Denotes (Nat.toDigits 10 n) n := by
  obtain ⟨ds, hdigits, hvalue⟩ := digits_toDigits n
  refine ⟨ds, [], 0, ?_, ?_⟩
  · have h := Spelling.decimal (.whole hdigits (hdigits.ne_nil Nat.toDigits_ne_nil)) .none
    rwa [List.append_nil] at h
  · simp [Decimal.toRat, hvalue]

/-- An exponent is written with its sign and its digits. -/
theorem exponent_exponentText (layout : Layout) (n : Int) :
    Exponent (layout.exponentText n).toList n := by
  obtain ⟨ds, hdigits, hvalue⟩ := digits_toDigits n.natAbs
  rw [Layout.exponentText]
  generalize layout.exponentWidth - (Layout.natText n.natAbs).length = fill
  have hfilled := (digits_zeros fill).append hdigits
  have hne : List.replicate fill 0 ++ ds ≠ [] :=
    List.append_ne_nil_of_right_ne_nil _ (hdigits.ne_nil Nat.toDigits_ne_nil)
  have hfilledValue : ofDigits (List.replicate fill 0 ++ ds) = n.natAbs := by
    rw [ofDigits_zeros_append, hvalue]
  rcases Int.lt_or_le n 0 with hneg | hpos
  · have h := Exponent.power (.inl rfl) .minus hfilled hne
    rw [if_pos rfl, hfilledValue, show -(n.natAbs : Int) = n by omega] at h
    rw [if_pos hneg]
    simpa [Layout.natText] using h
  · have h := Exponent.power (.inl rfl) .plus hfilled hne
    rw [if_neg Bool.false_ne_true, hfilledValue, Int.natAbs_of_nonneg hpos] at h
    rw [if_neg (Int.not_lt.mpr hpos)]
    simpa [Layout.natText] using h

variable {whole fraction : List Nat}

/-- A mantissa without an exponent is a numeral of the number of its digits. -/
theorem Mantissa.denotes (h : Mantissa cs whole fraction) :
    Denotes cs (Decimal.toRat ⟨ofDigits (whole ++ fraction), -fraction.length⟩) := by
  refine ⟨whole, fraction, 0, ?_, by rw [Int.zero_sub]⟩
  have hspelling := Spelling.decimal h .none
  rwa [List.append_nil] at hspelling

/-- A mantissa with the exponent that its digits have. -/
theorem Mantissa.denotes_exponent (layout : Layout) (n : Int) (h : Mantissa cs whole fraction) :
    Denotes (cs ++ (layout.exponentText n).toList)
      (Decimal.toRat ⟨ofDigits (whole ++ fraction), n - fraction.length⟩) :=
  ⟨whole, fraction, n, .decimal h (exponent_exponentText layout n), rfl⟩

theorem toRat_scaled (n k : Nat) (exponent : Int) :
    Decimal.toRat ⟨n * 10 ^ k, exponent⟩ = Decimal.toRat ⟨n, exponent + k⟩ := by
  rw [Decimal.toRat, Decimal.toRat, zpow_add₀ (by norm_num), zpow_natCast]
  push_cast
  ring

variable {ds : List Nat}

/-- Digits, zeros up to the unit, and a fraction of one zero. -/
theorem Digits.denotes_filled (h : Digits cs ds) (hne : ds ≠ []) (k : Nat) :
    Denotes (cs ++ List.replicate k '0' ++ ['.', '0']) (Decimal.toRat ⟨ofDigits ds, k⟩) := by
  have hzero : Digits ['0'] [0] := digits_zeros 1
  have hpoint := (Mantissa.point (h.append (digits_zeros k)) hzero
    (.inl (List.append_ne_nil_of_left_ne_nil hne _))).denotes
  rw [List.append_assoc ds, ← List.replicate_succ', ofDigits_append_zeros, toRat_scaled] at hpoint
  convert hpoint using 3
  simp

/-- Digits with the point among them. -/
theorem Digits.denotes_pointed (h : Digits cs ds) (hne : ds ≠ []) {k : Nat} (hk : k ≠ 0)
    (hlength : k ≤ ds.length) :
    Denotes (cs.take k ++ '.' :: cs.drop k)
      (Decimal.toRat ⟨ofDigits ds, (k : Int) - ds.length⟩) := by
  have hpoint := (Mantissa.point (h.take k) (h.drop k) (.inl (by simpa [hk] using hne))).denotes
  rw [List.take_append_drop, List.length_drop] at hpoint
  convert hpoint using 3
  omega

/-- Digits behind the point and zeros. -/
theorem Digits.denotes_shifted (h : Digits cs ds) (k : Nat) :
    Denotes ('0' :: '.' :: List.replicate k '0' ++ cs)
      (Decimal.toRat ⟨ofDigits ds, -((k : Int) + ds.length)⟩) := by
  have hzero : Digits ['0'] [0] := digits_zeros 1
  have hpoint := (Mantissa.point hzero ((digits_zeros k).append h)
    (.inl (List.cons_ne_nil 0 []))).denotes
  have hzeros : [0] ++ List.replicate k 0 = List.replicate (k + 1) 0 := rfl
  rw [← List.append_assoc, hzeros, ofDigits_zeros_append] at hpoint
  have hlength : ((List.replicate k 0 ++ ds).length : Int) = k + ds.length := by simp
  rwa [hlength] at hpoint

/-- One digit before the point, and the power of ten of this digit. -/
theorem Digits.denotes_power (h : Digits cs ds) (hne : ds ≠ []) (layout : Layout) (n : Int) :
    Denotes (cs.take 1 ++ '.' :: cs.drop 1 ++ (layout.exponentText n).toList)
      (Decimal.toRat ⟨ofDigits ds, n - (ds.drop 1).length⟩) := by
  have hpoint := (Mantissa.point (h.take 1) (h.drop 1)
    (.inl (by simpa using hne))).denotes_exponent layout n
  rwa [List.take_append_drop] at hpoint

/-- A decimal that is laid out in full is a numeral of its number. -/
theorem denotes_write (d : Decimal) : Denotes (Layout.full.write d).toList d.toRat := by
  obtain ⟨digits, exponent⟩ := d
  obtain ⟨ds, hdigits, rfl⟩ := digits_toDigits digits
  have hlength := hdigits.length_eq
  have hne := hdigits.ne_nil Nat.toDigits_ne_nil
  have hpos := List.length_pos_of_ne_nil hne
  simp only [Layout.write]
  generalize Nat.toDigits 10 (ofDigits ds) = cs at hdigits hlength
  rw [hlength]
  split_ifs with hrange hexponent hpower
  · have h := hdigits.denotes_filled hne exponent.toNat
    rw [Int.toNat_of_nonneg hexponent] at h
    convert h using 1
    simp [Layout.full]
  · have hplaces : (exponent + ds.length - 1).toNat + 1 ≤ ds.length := by omega
    have h := hdigits.denotes_pointed hne (Nat.succ_ne_zero _) hplaces
    convert h using 1
    · simp
    · congr 2
      omega
  · have h := hdigits.denotes_shifted (-(exponent + ds.length - 1) - 1).toNat
    convert h using 1
    · simp
    · congr 2
      omega
  · have hshift : exponent = exponent + ds.length - 1 - (ds.drop 1).length := by
      rw [List.length_drop]
      omega
    split
    · -- no point stands after a single digit
      have h := (Mantissa.whole hdigits hne).denotes_exponent Layout.full
        (exponent + ds.length - 1)
      convert h using 1
      · simp
      · simp [← hlength]
    · have h := hdigits.denotes_power hne Layout.full (exponent + ds.length - 1)
      rw [← hshift] at h
      convert h using 1
      simp

/-! ### Doubles as they are written -/

/-- A numeral of a number that rounds to a finite word is read as this word. -/
theorem Denotes.exists_word {x : ℚ} {w : Nat} (h : Denotes cs x) (hw : w < Binary64.infinityWord)
    (hx : Binary64.RoundsTo x w) : ∃ numeral, Spelling cs numeral ∧ numeral.word = w := by
  obtain ⟨whole, fraction, exponent, hspelling, rfl⟩ := h
  exact ⟨_, hspelling, Decimal.nearestWord_eq_of_roundsTo hw hx⟩

/-- The characters before the numeral of a double. -/
def signChars (negative : Bool) : List Char :=
  if negative then ['-'] else []

/-- The text is the sign of the double `x` and a numeral with the value `x`. -/
def Writes (cs : List Char) (x : Float) : Prop :=
  ∃ front numeral, cs = signChars (Binary64.isNegative x) ++ front ∧ Spelling front numeral ∧
    numeral.value (Binary64.isNegative x) = x

theorem writes_of_word {x : Float} {s : String} {numeral : Numeral}
    (hspelling : Spelling s.toList numeral) (hword : numeral.word = Binary64.word x) :
    Writes ((if Binary64.isNegative x then "-" else "") ++ s).toList x := by
  refine ⟨s.toList, numeral, ?_, hspelling, ?_⟩
  · cases Binary64.isNegative x
    · simp [signChars]
    · simp [signChars]
  · rw [value, hword, Binary64.ofWord_word]

/-- The NaN has no sign. -/
theorem writes_nan {x : Float} (h : Binary64.infinityWord < Binary64.word x) :
    Writes "nan".toList x := by
  have hbits := Binary64.toBits_of_isNaN h
  have hnegative : Binary64.isNegative x = false := by
    rw [Binary64.isNegative, hbits]
    decide
  refine ⟨['n', 'a', 'n'], .notANumber, ?_, .notANumber, ?_⟩
  · rw [hnegative]
    rfl
  · have hword : Numeral.notANumber.word = Binary64.word x := by
      rw [Binary64.word, hbits]
      decide
    rw [value, hword, Binary64.ofWord_word]

theorem spelling_zero : Spelling "0.0".toList (.decimal [0] [0] 0) := by
  have hzero : Digits ['0'] [0] := digits_zeros 1
  exact .decimal (.point hzero hzero (.inl (List.cons_ne_nil 0 []))) .none

/-- The full text of a double reads back as the double. -/
theorem writes_fullText (x : Float) : Writes (Number.fullText x).toList x := by
  simp only [Number.fullText, beq_iff_eq]
  by_cases hnan : Binary64.infinityWord < Binary64.word x
  · rw [if_pos hnan]
    exact writes_nan hnan
  · rw [if_neg hnan]
    by_cases hinfinity : Binary64.word x = Binary64.infinityWord
    · rw [if_pos hinfinity]
      exact writes_of_word .infinity hinfinity.symm
    · rw [if_neg hinfinity]
      by_cases hzero : Binary64.word x = 0
      · rw [if_pos hzero]
        exact writes_of_word spelling_zero hzero.symm
      · rw [if_neg hzero]
        have hfinite := Nat.lt_of_le_of_ne (Nat.not_lt.mp hnan) hinfinity
        obtain ⟨numeral, hspelling, hword⟩ :=
          (denotes_write _).exists_word hfinite (Decimal.roundsTo_shortest _)
        exact writes_of_word hspelling hword

/-- A whole double is the number that it is written as. -/
theorem roundsTo_wholeValue {x : Float} {n : Nat} (h : Number.wholeValue? x = some n) :
    Binary64.word x < Binary64.infinityWord ∧ Binary64.RoundsTo n (Binary64.word x) := by
  rw [Number.wholeValue?] at h
  split at h
  · rename_i hwhole
    simp only [Binary64.isFinite, Bool.and_eq_true, decide_eq_true_eq, beq_iff_eq] at hwhole
    obtain ⟨hfinite, hmultiple⟩ := hwhole
    refine ⟨hfinite, ?_⟩
    have hweight : Binary64.weight (Binary64.word x) = n * Binary64.unit := by
      rw [← Option.some.inj h]
      exact (Nat.div_mul_cancel (Nat.dvd_of_mod_eq_zero hmultiple)).symm
    have hunit : ((2 * Binary64.unit : Nat) : ℚ) ≠ 0 :=
      Nat.cast_ne_zero.mpr (Nat.mul_pos Nat.two_pos Binary64.unit_pos).ne'
    have hvalue : Binary64.halfUnits (2 * Binary64.weight (Binary64.word x)) = n := by
      rw [Binary64.halfUnits, hweight, Nat.mul_left_comm, Nat.cast_mul,
        mul_div_cancel_right₀ _ hunit]
    rw [← hvalue]
    exact Binary64.roundsTo_weight _
  · cases h

/-- The text of a double as a result reads back as the double. -/
theorem writes_text (x : Float) : Writes (Number.text x).toList x := by
  rw [Number.text]
  split
  · rename_i n hwhole
    by_cases hsmall : n < Number.wholeLimit
    · rw [if_pos hsmall]
      obtain ⟨hfinite, hrounds⟩ := roundsTo_wholeValue hwhole
      obtain ⟨numeral, hspelling, hword⟩ := (denotes_toDigits n).exists_word hfinite hrounds
      rw [← String.toList_ofList (l := Nat.toDigits 10 n)] at hspelling
      exact writes_of_word hspelling hword
    · rw [if_neg hsmall]
      exact writes_fullText x
  · exact writes_fullText x

end Numeral

end Calculator
