import Calculator.LogicalLine
import Calculator.Proofs.Expr.Parsing
import Calculator.Proofs.Text.Splitting
import Calculator.Proofs.Token.Scanning

/-!
The characters of what can be parsed.  A scanned text is the characters of its tokens with blanks
between them; so a text with an expression has characters of numerals, operators and parentheses
only, and it closes as many parentheses as it opens.
-/
namespace Calculator

namespace Token

open Numeral (Letter)
open Text (isBlank)

variable {source : String} {start : Nat} {c : Char} {cs : List Char} {t : Token}
  {ts : List Token}

theorem Spelled.mem_chars (h : t.Spelled) (hc : c ∈ t.chars) : Letter c ∨ c ∈ symbols := by
  obtain ⟨lexeme, chars, start⟩ := t
  cases h with
  | number hspelling => exact .inl (hspelling.letters c hc)
  | operator op =>
      obtain rfl := List.mem_singleton.mp hc
      exact .inr (by cases op <;> decide)
  | opening =>
      obtain rfl := List.mem_singleton.mp hc
      exact .inr (by decide)
  | closing =>
      obtain rfl := List.mem_singleton.mp hc
      exact .inr (by decide)

theorem isBlank_eq_false_of_mem_symbols (h : c ∈ symbols) : isBlank c = false := by
  have hsymbols : ∀ c ∈ symbols, isBlank c = false := by
    intro c hc
    fin_cases hc <;> rfl
  exact hsymbols c h

/-- The characters of a token are a word. -/
theorem Spelled.isWord (h : t.Spelled) : Text.IsWord t.chars := by
  constructor
  · obtain ⟨lexeme, chars, start⟩ := t
    cases h with
    | number hspelling => exact hspelling.ne_nil
    | operator op => exact List.cons_ne_nil _ _
    | opening => exact List.cons_ne_nil _ _
    | closing => exact List.cons_ne_nil _ _
  · intro c hc
    rcases h.mem_chars hc with hletter | hsymbol
    · exact hletter.plain.1
    · exact isBlank_eq_false_of_mem_symbols hsymbol

/-- A scanned text without its blanks is the characters of its tokens. -/
theorem scanFrom_characters (h : scanFrom source start cs = .ok ts) :
    cs.filter (fun c => !isBlank c) = ts.flatMap Token.chars := by
  fun_induction scanFrom source start cs generalizing ts with
  | case1 start =>
      obtain rfl := Except.ok.inj h
      rfl
  | case2 start c rest numeral rest' hscan chars =>
      rename_i ih
      obtain ⟨us, hus, rfl⟩ := cons_of_bind_ok h
      obtain ⟨hsplit, hspelling⟩ := spelling_take hscan
      have hkept : chars.filter (fun c => !isBlank c) = chars := by
        rw [List.filter_eq_self]
        intro c hc
        rw [(hspelling.plain c hc).1]
        rfl
      rw [hsplit, List.filter_append, hkept, ih hus]
      rfl
  | case3 start c rest hscan lexeme hsymbol ih =>
      obtain ⟨us, hus, rfl⟩ := cons_of_bind_ok h
      have hblank := isBlank_eq_false_of_mem_symbols (mem_symbols hsymbol)
      rw [List.filter_cons_of_pos (by rw [hblank]; rfl), ih hus]
      rfl
  | case4 start c rest hscan hsymbol hblank ih =>
      rw [List.filter_cons_of_neg (by rw [hblank]; decide), ih h]
  | case5 start c rest hscan hsymbol hblank => cases h

/-- The tokens that are a given parenthesis. -/
theorem count_chars (h : t.Spelled) :
    t.chars.count '(' = (if t.lexeme = .opening then 1 else 0) ∧
      t.chars.count ')' = (if t.lexeme = .closing then 1 else 0) := by
  obtain ⟨lexeme, chars, start⟩ := t
  cases h with
  | number hspelling =>
      have hopening : '(' ∉ chars := fun hc => absurd (hspelling.letters _ hc) (by decide)
      have hclosing : ')' ∉ chars := fun hc => absurd (hspelling.letters _ hc) (by decide)
      rw [List.count_eq_zero.mpr hopening, List.count_eq_zero.mpr hclosing]
      exact ⟨rfl, rfl⟩
  | operator op => cases op <;> exact ⟨rfl, rfl⟩
  | opening => exact ⟨rfl, rfl⟩
  | closing => exact ⟨rfl, rfl⟩

theorem count_flatMap_chars (h : ∀ t ∈ ts, t.Spelled) :
    (ts.flatMap Token.chars).count '(' = ts.countP (·.lexeme = .opening) ∧
      (ts.flatMap Token.chars).count ')' = ts.countP (·.lexeme = .closing) := by
  induction ts with
  | nil => exact ⟨rfl, rfl⟩
  | cons t ts ih =>
      rcases List.forall_mem_cons.mp h with ⟨ht, hts⟩
      rcases ih hts with ⟨hopening, hclosing⟩
      rcases count_chars ht with ⟨hfirst, hlast⟩
      simp only [List.flatMap_cons, List.count_append, List.countP_cons, hopening, hclosing, hfirst,
        hlast, decide_eq_true_eq]
      omega

end Token

namespace Expr

open Numeral (Letter)
open Text (isBlank)

variable {source : String} {ts : List Token} {e : Expr} {rank : Rank} {c : Char}

/-- A derived part of an expression has as many opening as closing parentheses. -/
theorem Derives.countP_eq (h : Derives rank ts e) :
    ts.countP (·.lexeme = .opening) = ts.countP (·.lexeme = .closing) := by
  induction h with
  | number hlexeme htext => simp [hlexeme]
  | negative hsign hlexeme hnext htext => simp [hsign, hlexeme]
  | group hleft hinner hright ih => simp [hleft, hright, ih]
  | factor hfactor ih => exact ih
  | times hleft hop hrank hright ihleft ihright => simp [hop, ihleft, ihright]
  | product hproduct ih => exact ih
  | plus hleft hop hrank hright ihleft ihright => simp [hop, ihleft, ihright]

/-- What can be parsed has no other characters than blanks and those of tokens. -/
theorem mem_of_parse (h : parse source = .ok e) (hc : c ∈ source.toList) :
    isBlank c = true ∨ Letter c ∨ c ∈ Token.symbols := by
  obtain ⟨ts, hscan, -⟩ := parseWithin_eq_ok_iff.mp h
  cases hblank : isBlank c with
  | true => exact .inl rfl
  | false =>
      have hmem : c ∈ source.toList.filter fun c => !isBlank c :=
        List.mem_filter.mpr ⟨hc, by rw [hblank]; rfl⟩
      rw [Token.scanFrom_characters hscan] at hmem
      obtain ⟨t, ht, hchars⟩ := List.mem_flatMap.mp hmem
      exact .inr ((Token.scan_spelled hscan t ht).mem_chars hchars)

/-- What can be parsed is complete. -/
theorem isOpen_of_parse (h : parse source = .ok e) : LogicalLine.isOpen source = false := by
  obtain ⟨ts, hscan, hderives, -⟩ := parseWithin_eq_ok_iff.mp h
  obtain ⟨hopening, hclosing⟩ := Token.count_flatMap_chars (Token.scan_spelled hscan)
  have hcount : source.toList.count '(' = source.toList.count ')' := by
    rw [← Token.scanFrom_characters hscan, List.count_filter (by decide)] at hopening
    rw [← Token.scanFrom_characters hscan, List.count_filter (by decide)] at hclosing
    rw [hopening, hclosing, hderives.countP_eq]
  rw [LogicalLine.isOpen, hcount]
  exact decide_eq_false (Nat.lt_irrefl _)

end Expr

end Calculator
