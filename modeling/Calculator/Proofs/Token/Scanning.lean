import Calculator.Proofs.Token.Spelled

/-!
Scanning from the left.  A token at the front of a text is scanned as it is spelled, if a numeral
does not go on into what follows it, and the scanner goes on with the rest.
-/
namespace Calculator

namespace Numeral

open Text

/-- No numeral begins with another character than a digit, a point or the letter of a name. -/
theorem scan_eq_none {c : Char} (hdigit : digitValue? c = none) (hpoint : c ≠ '.')
    (hi : c ≠ 'i') (hn : c ≠ 'n') (rest : List Char) : scan (c :: rest) = none := by
  have hmantissa : scanMantissa (c :: rest) = none := by
    simp [scanMantissa, takeDigits, hdigit, hpoint]
  simp [scan, hmantissa, hi, hn]

end Numeral

namespace Token

open Numeral (Spelling EndsNumeral)

variable {source : String} {start : Nat} {c : Char} {cs rest : List Char} {lexeme : Lexeme}
  {numeral : Numeral}

/-- A numeral at the front is one token, and the scanner goes on behind it. -/
theorem scanFrom_of_scan (h : Numeral.scan (cs ++ rest) = some (numeral, rest)) :
    scanFrom source start (cs ++ rest) = (do
      let ts ← scanFrom source (start + cs.length) rest
      return ⟨.number numeral, cs, start⟩ :: ts) := by
  have hne : cs ≠ [] := by
    rintro rfl
    exact absurd (Numeral.length_scan_lt h) (Nat.lt_irrefl _)
  obtain ⟨c, cs, rfl⟩ := List.exists_cons_of_ne_nil hne
  rw [List.cons_append] at h ⊢
  rw [scanFrom]
  split
  · rename_i numeral' rest' hscan'
    rw [h] at hscan'
    obtain ⟨rfl, rfl⟩ := Prod.mk.inj (Option.some.inj hscan')
    have hlength : (cs ++ rest).length + 1 - rest.length = (c :: cs).length := by
      simp only [List.length_append, List.length_cons]
      omega
    rw [hlength, ← List.cons_append, List.take_left]
  · rename_i hnone
    rw [h] at hnone
    cases hnone

/-- A number is scanned whole. -/
theorem scanFrom_number (h : Spelling cs numeral) (hrest : EndsNumeral rest) :
    scanFrom source start (cs ++ rest) = (do
      let ts ← scanFrom source (start + cs.length) rest
      return ⟨.number numeral, cs, start⟩ :: ts) :=
  scanFrom_of_scan (h.scan_append hrest)

/-- The operators and the parentheses. -/
def symbols : List Char :=
  ['+', '-', '*', '/', '(', ')']

theorem mem_symbols (h : symbol? c = some lexeme) : c ∈ symbols := by
  unfold symbol? at h
  split at h
  · rename_i op hop
    obtain rfl := Operator.symbol_of_ofChar? hop
    cases op <;> decide
  · split at h
    · rename_i hopening
      obtain rfl := eq_of_beq hopening
      decide
    · split at h
      · rename_i hclosing
        obtain rfl := eq_of_beq hclosing
        decide
      · cases h

/-- No numeral begins with an operator or a parenthesis. -/
theorem scan_eq_none_of_symbol (h : symbol? c = some lexeme) (rest : List Char) :
    Numeral.scan (c :: rest) = none := by
  have hapart : ∀ c ∈ symbols, Text.digitValue? c = none ∧ c ≠ '.' ∧ c ≠ 'i' ∧ c ≠ 'n' := by
    intro c hc
    fin_cases hc <;> decide
  obtain ⟨hdigit, hpoint, hi, hn⟩ := hapart c (mem_symbols h)
  exact Numeral.scan_eq_none hdigit hpoint hi hn rest

theorem scanFrom_symbol (h : symbol? c = some lexeme) (rest : List Char) :
    scanFrom source start (c :: rest) = (do
      let ts ← scanFrom source (start + 1) rest
      return ⟨lexeme, [c], start⟩ :: ts) := by
  rw [scanFrom]
  split
  · rename_i hscan
    rw [scan_eq_none_of_symbol h] at hscan
    cases hscan
  · rw [h]

theorem scanFrom_blank (h : Text.isBlank c = true) (rest : List Char) :
    scanFrom source start (c :: rest) = scanFrom source (start + 1) rest := by
  have hne : ∀ c' : Char, Text.isBlank c' = false → c ≠ c' := by
    rintro c' hc' rfl
    rw [h] at hc'
    cases hc'
  have hdigit : Text.digitValue? c = none := by
    by_contra hsome
    have := Numeral.isBlank_eq_false_of_isDigit (Option.isSome_iff_ne_none.mpr hsome)
    rw [h] at this
    cases this
  have hsymbol : symbol? c = none := by
    cases hlexeme : symbol? c with
    | none => rfl
    | some lexeme =>
        have hapart : ∀ c ∈ symbols, Text.isBlank c = false := by
          intro c hc
          fin_cases hc <;> rfl
        exact absurd rfl (hne c (hapart c (mem_symbols hlexeme)))
  rw [scanFrom]
  split
  · rename_i hscan
    rw [Numeral.scan_eq_none hdigit (hne '.' (by decide)) (hne 'i' (by decide))
      (hne 'n' (by decide))] at hscan
    cases hscan
  · rw [hsymbol, if_pos h]

/-- A numeral goes on into no text that begins with another character than a digit, a point or the
letter of an exponent. -/
theorem endsNumeral_cons (h : Text.digitValue? c = none ∧ c ≠ '.' ∧ c ≠ 'e' ∧ c ≠ 'E')
    (rest : List Char) : EndsNumeral (c :: rest) := by
  intro c' hc'
  obtain rfl : c = c' := by simpa using hc'
  exact h

end Token

end Calculator
