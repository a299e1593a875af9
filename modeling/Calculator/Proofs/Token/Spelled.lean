import Calculator.Proofs.Decimal.Spelling

/-!
Scanned tokens are what their characters say: a number spells its numeral, and an operator or a
parenthesis is its own symbol.
-/
namespace Calculator

namespace Lexeme

/-- The characters that a lexeme may consist of. -/
inductive SpelledBy : Lexeme → List Char → Prop where
  | number {cs : List Char} {numeral : Numeral} (hspelling : Numeral.Spelling cs numeral) :
      SpelledBy (.number numeral) cs
  | operator (op : Operator) : SpelledBy (.operator op) [op.symbol]
  | opening : SpelledBy .opening ['(']
  | closing : SpelledBy .closing [')']

end Lexeme

namespace Token

/-- The token consists of characters that spell its lexeme. -/
def Spelled (t : Token) : Prop :=
  t.lexeme.SpelledBy t.chars

theorem symbol?_sound {c : Char} {lexeme : Lexeme} (h : symbol? c = some lexeme) :
    lexeme.SpelledBy [c] := by
  unfold symbol? at h
  split at h
  · rename_i op hop
    obtain rfl := Option.some.inj h
    obtain rfl := Operator.symbol_of_ofChar? hop
    exact .operator op
  · split at h
    · rename_i hopening
      obtain rfl := Option.some.inj h
      obtain rfl := eq_of_beq hopening
      exact .opening
    · split at h
      · rename_i hclosing
        obtain rfl := Option.some.inj h
        obtain rfl := eq_of_beq hclosing
        exact .closing
      · simp at h

/-- A token in front of what is scanned next. -/
theorem cons_of_bind_ok {scanned : Except Complaint (List Token)} {t : Token} {ts : List Token}
    (h : (do let us ← scanned; pure (t :: us)) = Except.ok ts) :
    ∃ us, scanned = .ok us ∧ ts = t :: us := by
  cases scanned with
  | error c => cases h
  | ok us => exact ⟨us, rfl, (Except.ok.inj h).symm⟩

/-- The characters of a numeral are cut off by their number, which is that of its spelling. -/
theorem spelling_take {c : Char} {rest rest' : List Char} {numeral : Numeral}
    (h : Numeral.scan (c :: rest) = some (numeral, rest')) :
    c :: rest = (c :: rest).take (rest.length + 1 - rest'.length) ++ rest' ∧
      Numeral.Spelling ((c :: rest).take (rest.length + 1 - rest'.length)) numeral := by
  obtain ⟨front, hsplit, hspelling⟩ := Numeral.scan_sound h
  have hlength : rest.length + 1 - rest'.length = front.length := by
    have hsum := congrArg List.length hsplit
    simp only [List.length_cons, List.length_append] at hsum
    omega
  have htake : (c :: rest).take (rest.length + 1 - rest'.length) = front := by
    rw [hlength, hsplit, List.take_left]
  rw [htake]
  exact ⟨hsplit, hspelling⟩

theorem scanFrom_spelled {source : String} {start : Nat} {cs : List Char} {ts : List Token}
    (h : scanFrom source start cs = .ok ts) : ∀ t ∈ ts, t.Spelled := by
  fun_induction scanFrom source start cs generalizing ts with
  | case1 start =>
      obtain rfl := Except.ok.inj h
      intro t ht
      cases ht
  | case2 start c rest numeral rest' hscan chars =>
      rename_i ih
      obtain ⟨us, hus, rfl⟩ := cons_of_bind_ok h
      obtain ⟨-, hspelling⟩ := spelling_take hscan
      intro t ht
      rcases List.mem_cons.mp ht with rfl | ht
      · exact .number hspelling
      · exact ih hus t ht
  | case3 start c rest hscan lexeme hsymbol ih =>
      obtain ⟨us, hus, rfl⟩ := cons_of_bind_ok h
      intro t ht
      rcases List.mem_cons.mp ht with rfl | ht
      · exact symbol?_sound hsymbol
      · exact ih hus t ht
  | case4 start c rest hscan hsymbol hblank ih => exact ih h
  | case5 start c rest hscan hsymbol hblank => cases h

/-- Every token of an expression consists of characters that spell it. -/
theorem scan_spelled {source : String} {ts : List Token} (h : scan source = .ok ts) :
    ∀ t ∈ ts, t.Spelled :=
  scanFrom_spelled h

/-- The text of a number states its value. -/
theorem Spelled.readText_eq {t : Token} {numeral : Numeral} (h : t.Spelled)
    (hlexeme : t.lexeme = .number numeral) :
    Numeral.readText t.text = some (numeral.value false) := by
  rw [Spelled, hlexeme] at h
  cases h with
  | number hspelling => exact hspelling.readText_eq

end Token

end Calculator
