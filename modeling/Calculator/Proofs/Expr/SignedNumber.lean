import Calculator.Proofs.Expr.Printing
import Calculator.Proofs.Program.Commented
import Calculator.Proofs.Token.Characters

/-!
A number is read alike by the two readers.  A word without parentheses is the operand of a push
exactly if it is an expression of a single literal, namely a numeral or a minus sign with a numeral
right behind it, and the double is the same with all its bits.  Any other word is refused as an
operand, and as an expression it is rejected or has an operator at its root.
-/
namespace Calculator

open Text (IsWord isBlank)

namespace Token

variable {source : String} {ts : List Token}

/-- Where no parenthesis opens in a text, none of its tokens is one that opens. -/
theorem lexeme_ne_opening_of_scan (h : scan source = .ok ts) (hopen : '(' ∉ source.toList) :
    ∀ t ∈ ts, t.lexeme ≠ .opening := by
  intro t ht hlexeme
  have hspelled := scan_spelled h t ht
  rw [Spelled, hlexeme] at hspelled
  have hmem : '(' ∈ ts.flatMap Token.chars := by
    refine List.mem_flatMap.mpr ⟨t, ht, ?_⟩
    generalize t.chars = cs at hspelled
    cases hspelled
    exact List.mem_singleton_self _
  rw [← scanFrom_characters h] at hmem
  exact hopen (List.mem_filter.mp hmem).1

end Token

namespace Expr

variable {w source : String} {ts : List Token} {rank : Rank} {e : Expr} {x : Float} {depth : Nat}

/-- Where no parenthesis opens, no more of them are open than at first. -/
theorem deepest_le_of_no_opening (h : ∀ t ∈ ts, t.lexeme ≠ .opening) : deepest depth ts ≤ depth := by
  induction ts generalizing depth with
  | nil => exact Nat.le_refl depth
  | cons t ts ih =>
      obtain ⟨ht, hts⟩ := List.forall_mem_cons.mp h
      have hafter : openAfter depth t ≤ depth := by
        unfold openAfter
        split <;> simp_all
      exact deepest_cons_le.mpr ⟨Nat.le_refl depth, Nat.le_trans (ih hts) hafter⟩

/-- The grammar gives trees of literals and operators only. -/
theorem Derives.literal_or_binary (h : Derives rank ts e) :
    (∃ x, e = .literal x) ∨ ∃ op l r, e = .binary op l r := by
  induction h with
  | number hlexeme htext => exact .inl ⟨_, rfl⟩
  | negative hsign hlexeme hnext htext => exact .inl ⟨_, rfl⟩
  | group hleft hinner hright ih => exact ih
  | factor hfactor ih => exact ih
  | times hleft hop hrank hright => exact .inr ⟨_, _, _, rfl⟩
  | product hproduct ih => exact ih
  | plus hleft hop hrank hright => exact .inr ⟨_, _, _, rfl⟩

/-- A literal outside parentheses is derived from a numeral, or from a minus sign and a numeral. -/
theorem Derives.signed (h : Derives rank ts e) (he : e = .literal x)
    (hspelled : ∀ t ∈ ts, t.Spelled) (hopen : ∀ t ∈ ts, t.lexeme ≠ .opening) :
    Numeral.Signed (ts.flatMap Token.chars) x := by
  induction h with
  | @number t numeral y hlexeme htext =>
      obtain rfl := Expr.literal.inj he
      have ht := hspelled t List.mem_cons_self
      obtain rfl := Work.eq_value_of_readText ht hlexeme htext
      rw [Token.Spelled, hlexeme] at ht
      rw [List.flatMap_singleton]
      cases ht with
      | number hspelling => exact .plain hspelling
  | @negative sign t numeral y hsign hlexeme hnext htext =>
      obtain rfl := Expr.literal.inj he
      obtain ⟨hminus, ht, -⟩ := by simpa only [List.forall_mem_cons] using hspelled
      obtain rfl := Work.eq_value_of_readText ht hlexeme htext
      rw [Token.Spelled, hlexeme] at ht
      rw [Token.Spelled, hsign] at hminus
      rw [List.flatMap_cons, List.flatMap_singleton, ← Numeral.value_true]
      generalize sign.chars = cs at hminus
      cases hminus
      cases ht with
      | number hspelling => exact .negative hspelling
  | group hleft hinner hright => exact absurd hleft (hopen _ List.mem_cons_self)
  | factor hfactor ih => exact ih he hspelled hopen
  | times hleft hop hrank hright => cases he
  | product hproduct ih => exact ih he hspelled hopen
  | plus hleft hop hrank hright => cases he

/-- What is written as a signed numeral is parsed as the literal. -/
theorem parse_of_signed (h : Numeral.Signed w.toList x) : parse w = .ok (.literal x) := by
  refine parseWithin_eq_ok_iff.mpr ?_
  generalize hcs : w.toList = cs at h
  cases h with
  | @plain _ numeral hspelling =>
      have hscans : ScansAs 0 w.toList [⟨.number numeral, cs, 0⟩] := by
        rw [hcs]
        exact scansAs_number hspelling
      refine ⟨_, hscans.scan, .product (.factor ?_), Nat.zero_le _⟩
      exact .number rfl hspelling.readText_eq
  | @negative cs numeral hspelling =>
      have hscans : ScansAs 0 w.toList
          [⟨.operator .subtract, ['-'], 0⟩, ⟨.number numeral, cs, 1⟩] := by
        rw [hcs]
        exact scansAs_negative hspelling
      rw [Numeral.value_true]
      refine ⟨_, hscans.scan, .product (.factor ?_), Nat.zero_le _⟩
      exact .negative rfl rfl rfl hspelling.readText_eq

/-- A word without parentheses is parsed as a literal exactly if it is a signed numeral. -/
theorem parse_eq_literal_iff (hword : IsWord w.toList) (hopen : '(' ∉ w.toList) :
    parse w = .ok (.literal x) ↔ Numeral.Signed w.toList x := by
  refine ⟨?_, parse_of_signed⟩
  intro h
  obtain ⟨ts, hscan, hderives, -⟩ := parseWithin_eq_ok_iff.mp h
  have hsigned := hderives.signed rfl (Token.scan_spelled hscan)
    (Token.lexeme_ne_opening_of_scan hscan hopen)
  rw [← Token.scanFrom_characters hscan] at hsigned
  rwa [List.filter_eq_self.mpr] at hsigned
  intro c hc
  simp [hword.no_blank c hc]

/-- A text in which no parenthesis opens is parsed or complained of, whatever its length. -/
theorem parse_eq_error_of_no_opening {f : Failure} (hopen : '(' ∉ source.toList)
    (h : parse source = .error f) : ∃ c, f = .complaint c := by
  rcases parseWithin_eq_error h with hcomplaint | ⟨-, ts, hscan, hnesting⟩
  · exact hcomplaint
  · have hflat : nesting ts ≤ 0 :=
      deepest_le_of_no_opening (Token.lexeme_ne_opening_of_scan hscan hopen)
    exact absurd hnesting (Nat.not_lt_of_le (Nat.le_trans hflat (Nat.zero_le _)))

end Expr

namespace Record

open Calculator.Expr (parse)

variable {w : String} {x : Float}

theorem words_push (hword : IsWord w.toList) :
    Text.words ("push " ++ w).toList = [Instr.pushTag.toList, w.toList] := by
  have hsplit : ("push " ++ w).toList = [' '].intercalate [Instr.pushTag.toList, w.toList] := by
    simp [Instr.pushTag]
  rw [hsplit]
  exact Instr.words_pair Instr.isWord_pushTag hword

/-- A word is pushed as a number exactly if it is a signed numeral. -/
theorem ofLine_push_eq_ok_iff (hword : IsWord w.toList) :
    ofLine ("push " ++ w) = .ok ⟨.text Instr.pushTag, .float x⟩ ↔ Numeral.Signed w.toList x := by
  rw [← Numeral.signedValue?_eq_some_iff]
  constructor
  · intro h
    have hstates := ofLine_eq_ok_iff.mp h
    rw [words_push hword] at hstates
    cases hstates with
    | push htag hvalue => exact hvalue
  · exact ofLine_push (words_push hword)

/-- A word is pushed as a number, or the line is refused. -/
theorem ofLine_push_cases (hword : IsWord w.toList) :
    (∃ x, ofLine ("push " ++ w) = .ok ⟨.text Instr.pushTag, .float x⟩) ∨
      ∃ c, ofLine ("push " ++ w) = .error c := by
  cases h : ofLine ("push " ++ w) with
  | error c => exact .inr ⟨c, rfl⟩
  | ok r =>
      have hstates := ofLine_eq_ok_iff.mp h
      rw [words_push hword] at hstates
      cases hstates with
      | push htag hvalue => exact .inl ⟨_, rfl⟩
      | other htag => exact absurd (by decide) htag

/-- Main result: the two readers of numbers agree.  A word in which no parenthesis opens is pushed
as a number exactly if it is parsed as a literal, and then it is the same double.  Otherwise the
line is refused, and the word is rejected or has an operator at the root of its tree. -/
theorem push_number_iff_literal (hne : w ≠ "") (hblank : ∀ c ∈ w.toList, isBlank c = false)
    (hopen : '(' ∉ w.toList) :
    (∀ x, ofLine ("push " ++ w) = .ok ⟨.text Instr.pushTag, .float x⟩ ↔
      parse w = .ok (.literal x)) ∧
      ((∃ x, ofLine ("push " ++ w) = .ok ⟨.text Instr.pushTag, .float x⟩) ∨
        (∃ c, ofLine ("push " ++ w) = .error c) ∧
          ((∃ c, parse w = .error (.complaint c)) ∨ ∃ op l r, parse w = .ok (.binary op l r))) := by
  have hword : IsWord w.toList := ⟨fun hnil => hne (String.toList_eq_nil_iff.mp hnil), hblank⟩
  have hagree : ∀ x, ofLine ("push " ++ w) = .ok ⟨.text Instr.pushTag, .float x⟩ ↔
      parse w = .ok (.literal x) := by
    intro x
    rw [ofLine_push_eq_ok_iff hword, Expr.parse_eq_literal_iff hword hopen]
  refine ⟨hagree, ?_⟩
  rcases ofLine_push_cases hword with hnumber | ⟨c, hrefused⟩
  · exact .inl hnumber
  · refine .inr ⟨⟨c, hrefused⟩, ?_⟩
    cases hparse : parse w with
    | error f =>
        obtain ⟨c', rfl⟩ := Expr.parse_eq_error_of_no_opening hopen hparse
        exact .inl ⟨c', rfl⟩
    | ok e =>
        obtain ⟨ts, -, hderives, -⟩ := Expr.parseWithin_eq_ok_iff.mp hparse
        rcases hderives.literal_or_binary with ⟨x, rfl⟩ | ⟨op, l, r, rfl⟩
        · rw [(hagree x).mpr hparse] at hrefused
          cases hrefused
        · exact .inr ⟨op, l, r, rfl⟩

/-- A sign, a point at the front and an exponent are read alike; two signed numbers glued together
are no operand of a push. -/
theorem push_number_iff_literal_signed :
    (∃ x, ofLine "push -.5e1" = .ok ⟨.text Instr.pushTag, .float x⟩ ∧
      parse "-.5e1" = .ok (.literal x)) ∧
    (∃ c, ofLine "push -1-2" = .error c) ∧
      ((∃ c, parse "-1-2" = .error (.complaint c)) ∨ ∃ op l r, parse "-1-2" = .ok (.binary op l r)) := by
  have htext : "-.5e1".toList = ['-', '.', '5', 'e', '1'] := rfl
  have htext' : "-1-2".toList = ['-', '1', '-', '2'] := rfl
  have hword : IsWord "-.5e1".toList := Text.isWord_of_all (by decide) (by decide)
  have hword' : IsWord "-1-2".toList := Text.isWord_of_all (by decide) (by decide)
  have hread : Numeral.ofText? ['.', '5', 'e', '1'] = some (.decimal [] [5] 1) := by
    cbv
  have hsigned : Numeral.Signed "-.5e1".toList (Numeral.value true (.decimal [] [5] 1)) := by
    rw [htext]
    exact .negative (Numeral.ofText?_eq_some_iff.mp hread)
  have hparse := Expr.parse_of_signed hsigned
  constructor
  · obtain ⟨hagree, -⟩ := push_number_iff_literal (w := "-.5e1") (by decide)
      hword.no_blank (by rw [htext]; decide)
    exact ⟨_, (hagree _).mpr hparse, hparse⟩
  · obtain ⟨-, hcases⟩ := push_number_iff_literal (w := "-1-2") (by decide)
      hword'.no_blank (by rw [htext']; decide)
    refine hcases.resolve_left ?_
    rintro ⟨x, hx⟩
    have hrefused : ofLine "push -1-2" = .error (.pushOperand "push -1-2" "-1-2" 5) := by
      cbv
    rw [show "push " ++ "-1-2" = "push -1-2" from rfl, hrefused] at hx
    cases hx

end Record

end Calculator
