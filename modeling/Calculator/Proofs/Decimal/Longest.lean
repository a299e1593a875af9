import Calculator.Proofs.Decimal.Spelling

/-!
The longest numeral.  Where a numeral is spelled at the front of a text, the scanner finds one there
and takes at least as much of the text.  So what it takes is the longest spelling at the front, and
where it finds none, none is there.
-/
namespace Calculator.Numeral

open Text

variable {cs front rest : List Char} {numeral : Numeral}

/-- Digits are taken together with those that follow them. -/
theorem Digits.take_append {ds : List Nat} (h : Digits cs ds) (rest : List Char) :
    takeDigits (cs ++ rest) = (ds ++ (takeDigits rest).1, (takeDigits rest).2) := by
  induction cs generalizing ds with
  | nil =>
      obtain rfl : ds = [] := List.length_eq_zero_iff.mp h.length_eq.symm
      rfl
  | cons c cs ih =>
      cases ds with
      | nil => simp [Digits] at h
      | cons d ds =>
          obtain ⟨hc, hcs⟩ := digits_cons.mp h
          simp only [List.cons_append, takeDigits, hc, ih hcs]

/-- A mantissa goes on into no more than a point and digits of what follows it. -/
theorem Mantissa.exists_scan {whole fraction : List Nat} (h : Mantissa cs whole fraction)
    (rest : List Char) :
    ∃ whole' fraction' left, scanMantissa (cs ++ rest) = some (whole', fraction', left) ∧
      left.length ≤ rest.length := by
  cases h with
  | whole hdigits hne =>
      obtain ⟨d, ds, rfl⟩ := List.exists_cons_of_ne_nil hne
      have hle := length_takeDigits_le rest
      rw [scanMantissa, hdigits.take_append, List.cons_append]
      split
      · rename_i heq
        cases heq
      · rename_i heq
        cases heq
      · rename_i rest' _ heq
        obtain ⟨-, hpoint⟩ := Prod.mk.inj heq
        rw [hpoint, List.length_cons] at hle
        exact ⟨_, _, _, rfl, by have := length_takeDigits_le rest'; omega⟩
      · rename_i heq
        obtain ⟨-, rfl⟩ := Prod.mk.inj heq
        exact ⟨_, _, _, rfl, hle⟩
  | point hwhole hfraction hne =>
      rename_i cs cs'
      have hfront : takeDigits (cs ++ '.' :: (cs' ++ rest)) = (whole, '.' :: (cs' ++ rest)) :=
        takeDigits_append hwhole (noDigit_cons digitValue?_point)
      have hback := hfraction.take_append rest
      have hle := length_takeDigits_le rest
      rw [List.append_assoc, List.cons_append, scanMantissa, hfront]
      cases whole with
      | nil =>
          obtain ⟨d, ds, rfl⟩ := List.exists_cons_of_ne_nil (hne.resolve_left (· rfl))
          simp only [hback, List.cons_append]
          exact ⟨_, _, _, rfl, hle⟩
      | cons d ds =>
          simp only [hback]
          exact ⟨_, _, _, rfl, hle⟩

/-- An exponent goes on into no more than digits of what follows it. -/
theorem Exponent.length_scan_le {exponent : Int} (h : Exponent cs exponent) (rest : List Char) :
    (scanExponent (cs ++ rest)).2.length ≤ rest.length := by
  cases h with
  | none => exact length_scanExponent_le rest
  | power hletter hsign hdigits hne =>
      rename_i letter sign cs negative ds
      obtain ⟨d, ds, rfl⟩ := List.exists_cons_of_ne_nil hne
      have hsign' : takeSign (sign ++ (cs ++ rest)) = (negative, cs ++ rest) := by
        apply hsign.take
        intro c hc
        cases cs with
        | nil => cases hdigits.length_eq
        | cons c' cs =>
            obtain rfl : c' = c := by simpa using hc
            exact hdigits.isDigit_of_mem List.mem_cons_self
      have hletter' : (letter == 'e' || letter == 'E') = true := by
        simpa using hletter
      simp only [List.cons_append, List.append_assoc, scanExponent, hletter', hsign',
        hdigits.take_append, ↓reduceIte]
      exact length_takeDigits_le rest

/-- Where a numeral is spelled, one is scanned that is at least as long. -/
theorem Spelling.exists_scan (h : Spelling cs numeral) (rest : List Char) :
    ∃ numeral' left, scan (cs ++ rest) = some (numeral', left) ∧ left.length ≤ rest.length := by
  cases h with
  | decimal hmantissa hexponent =>
      rename_i cs cs' whole fraction exponent
      rw [List.append_assoc]
      cases hexponent with
      | none =>
          obtain ⟨whole', fraction', left, hscan, hle⟩ := hmantissa.exists_scan rest
          refine ⟨_, _, by simp only [scan, List.nil_append, hscan]; rfl, ?_⟩
          exact Nat.le_trans (length_scanExponent_le left) hle
      | power hletter hsign hdigits hne =>
          rename_i letter sign digits negative ds
          have hpower := Exponent.power hletter hsign hdigits hne
          -- the letter of the exponent ends the mantissa, whatever follows
          have hends : EndsMantissa (letter :: (sign ++ digits) ++ rest) := by
            intro c hc
            obtain rfl := Option.some.inj hc
            rcases hletter with rfl | rfl
            · decide
            · decide
          exact ⟨_, _, by simp only [scan, hmantissa.scan hends]; rfl, hpower.length_scan_le rest⟩
  | infinity => exact ⟨_, rest, rfl, Nat.le_refl _⟩
  | notANumber => exact ⟨_, rest, rfl, Nat.le_refl _⟩

/-- No numeral is spelled where none is scanned. -/
theorem not_isPrefix_of_scan_eq_none (hscan : scan cs = none) (h : Spelling front numeral) :
    ¬ front <+: cs := by
  rintro ⟨rest, rfl⟩
  obtain ⟨numeral', left, hsome, -⟩ := h.exists_scan rest
  rw [hscan] at hsome
  cases hsome

/-- The longest spelling at the front of a text is what is scanned. -/
theorem Spelling.scan_eq_of_longest (h : Spelling cs numeral)
    (hlongest : ∀ front numeral', Spelling front numeral' → front <+: cs ++ rest →
      front.length ≤ cs.length) :
    scan (cs ++ rest) = some (numeral, rest) := by
  obtain ⟨numeral', left, hscan, hle⟩ := h.exists_scan rest
  obtain ⟨front, hsplit, hspelling⟩ := scan_sound hscan
  have hfront := hlongest front numeral' hspelling ⟨left, hsplit.symm⟩
  have hlength := congrArg List.length hsplit
  rw [List.length_append, List.length_append] at hlength
  obtain ⟨rfl, rfl⟩ := List.append_inj hsplit (by omega)
  have hsame := hspelling.ofText?_eq.symm.trans h.ofText?_eq
  rw [hscan, Option.some.inj hsame]

/-- What is scanned is the longest spelling at the front. -/
theorem length_le_of_scan (hscan : scan (cs ++ rest) = some (numeral, rest))
    {numeral' : Numeral} (h : Spelling front numeral') (hfront : front <+: cs ++ rest) :
    front.length ≤ cs.length := by
  obtain ⟨back, hsplit⟩ := hfront
  obtain ⟨numeral₂, left, hscan', hle⟩ := h.exists_scan back
  rw [hsplit, hscan] at hscan'
  obtain ⟨-, rfl⟩ := Prod.mk.inj (Option.some.inj hscan')
  have hlength := congrArg List.length hsplit
  rw [List.length_append, List.length_append] at hlength
  omega

end Calculator.Numeral
