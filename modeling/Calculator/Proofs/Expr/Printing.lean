import Calculator.Expr.Walk
import Calculator.Proofs.Decimal.Written
import Calculator.Proofs.Expr.Parsing
import Calculator.Proofs.Token.Scanning

/-!
Printing a tree and parsing it back.  The text of a tree is scanned, in front of anything else, as
tokens that derive a factor with this tree; by the grammar the parser reads these tokens as the
tree and as no other one.  Full parentheses leave nothing to the ranks of the operators.
-/
namespace Calculator.Expr

open Numeral (EndsNumeral Spelling)

variable {start : Nat} {op : Operator} {left right e : Expr} {ls rs : List Char}
  {ts us : List Token}

/-- In front of every text that no numeral goes on into, the characters are scanned as these
tokens. -/
def ScansAs (start : Nat) (cs : List Char) (ts : List Token) : Prop :=
  ∀ (source : String) (rest : List Char), EndsNumeral rest →
    Token.scanFrom source start (cs ++ rest) = (do
      let us ← Token.scanFrom source (start + cs.length) rest
      return ts ++ us)

theorem ScansAs.scan {source : String} (h : ScansAs 0 source.toList ts) :
    Token.scan source = .ok ts := by
  have hscan := h source [] Numeral.endsNumeral_nil
  rw [List.append_nil] at hscan
  rw [Token.scan, hscan, Token.scanFrom]
  exact congrArg Except.ok (List.append_nil ts)

theorem scansAs_number {cs : List Char} {numeral : Numeral} (h : Spelling cs numeral) :
    ScansAs start cs [⟨.number numeral, cs, start⟩] := by
  intro source rest hrest
  exact Token.scanFrom_number h hrest

/-- A minus sign is scanned for itself, also in front of a number. -/
theorem scansAs_negative {cs : List Char} {numeral : Numeral} (h : Spelling cs numeral) :
    ScansAs start ('-' :: cs)
      [⟨.operator .subtract, ['-'], start⟩, ⟨.number numeral, cs, start + 1⟩] := by
  intro source rest hrest
  have hminus : Token.symbol? '-' = some (.operator .subtract) := rfl
  rw [List.cons_append, Token.scanFrom_symbol hminus,
    Token.scanFrom_number h hrest, List.length_cons, Nat.add_assoc, Nat.add_comm 1]
  simp only [bind_assoc, pure_bind, List.cons_append, List.nil_append]

/-- The characters of a tree between its parentheses. -/
def groupChars (op : Operator) (ls rs : List Char) : List Char :=
  '(' :: (ls ++ ' ' :: op.symbol :: ' ' :: (rs ++ [')']))

/-- The tokens of a tree between its parentheses. -/
def groupTokens (start : Nat) (op : Operator) (ls rs : List Char) (ts us : List Token) :
    List Token :=
  ⟨.opening, ['('], start⟩ :: (ts ++
    ⟨.operator op, [op.symbol], start + 1 + ls.length + 1⟩ :: us ++
      [⟨.closing, [')'], start + 1 + ls.length + 3 + rs.length⟩])

theorem scansAs_group (hleft : ScansAs (start + 1) ls ts)
    (hright : ScansAs (start + 1 + ls.length + 3) rs us) :
    ScansAs start (groupChars op ls rs) (groupTokens start op ls rs ts us) := by
  intro source rest hrest
  have hblank : ∀ cs, EndsNumeral (' ' :: cs) := Token.endsNumeral_cons (by decide)
  have hclosing : ∀ cs, EndsNumeral (')' :: cs) := Token.endsNumeral_cons (by decide)
  have hleftParen : Token.symbol? '(' = some .opening := rfl
  have hrightParen : Token.symbol? ')' = some .closing := rfl
  have hop : Token.symbol? op.symbol = some (.operator op) := by
    rw [Token.symbol?, Operator.ofChar?_symbol]
  have hsplit : groupChars op ls rs ++ rest =
      '(' :: (ls ++ ' ' :: op.symbol :: ' ' :: (rs ++ ')' :: rest)) := by
    simp [groupChars]
  have hlength : start + (groupChars op ls rs).length =
      start + 1 + ls.length + 3 + rs.length + 1 := by
    simp [groupChars]
    omega
  rw [hsplit, hlength, Token.scanFrom_symbol hleftParen, hleft _ _ (hblank _),
    Token.scanFrom_blank rfl, Token.scanFrom_symbol hop, Token.scanFrom_blank rfl,
    hright _ _ (hclosing _), Token.scanFrom_symbol hrightParen]
  simp only [bind_assoc, pure_bind, groupTokens, List.cons_append, List.append_assoc,
    List.nil_append]

theorem toList_text_binary :
    (binary op left right).text.toList = groupChars op left.text.toList right.text.toList := by
  simp [text, groupChars, Operator.text]

/-- Between parentheses, the ranks of the operators do not matter. -/
theorem derives_group (hleft : Derives .factor ts left) (hright : Derives .factor us right) :
    Derives .factor (groupTokens start op ls rs ts us) (.binary op left right) := by
  apply Derives.group rfl _ rfl
  cases hrank : op.isAdditive with
  | true => exact .plus (.product (.factor hleft)) rfl hrank (.factor hright)
  | false => exact .product (.times (.factor hleft) rfl hrank hright)

/-- The tokens of a tree between its parentheses nest one deeper than those of its subtrees. -/
theorem deepest_group {depth limit : Nat} (hleft : Derives .factor ts left)
    (hright : Derives .factor us right) (hts : deepest (depth + 1) ts ≤ limit)
    (hus : deepest (depth + 1) us ≤ limit) :
    deepest depth (groupTokens start op ls rs ts us) ≤ limit := by
  have hdepth : depth + 1 ≤ limit := Nat.le_trans (le_deepest _ _) hts
  rw [groupTokens, deepest_cons_le, deepest_append_le, deepest_append_le, deepest_cons_le]
  simp only [openAfter, List.foldl_append, List.foldl_cons, hleft.balanced, hright.balanced,
    deepest, Nat.add_sub_cancel, Nat.max_le]
  exact ⟨by omega, ⟨hts, hdepth, hus⟩, hdepth, by omega⟩

/-- The text of a tree, from the column on, has these tokens. -/
structure Printed (start : Nat) (e : Expr) (ts : List Token) : Prop where
  scans : ScansAs start e.text.toList ts
  derives : Derives .factor ts e
  shallow : ∀ depth, deepest depth ts < depth + e.height

theorem exists_printed_literal (start : Nat) (x : Float) : ∃ ts, Printed start (.literal x) ts := by
  obtain ⟨cs, numeral, htext, hspelling, hvalue⟩ := Numeral.writes_text x
  cases hnegative : Binary64.isNegative x with
  | true =>
      rw [hnegative] at htext hvalue
      refine ⟨[⟨.operator .subtract, ['-'], start⟩, ⟨.number numeral, cs, start + 1⟩], ?_, ?_, ?_⟩
      · rw [text, htext]
        exact scansAs_negative hspelling
      · rw [← hvalue, Numeral.value_true]
        exact .negative rfl rfl rfl hspelling.readText_eq
      · intro depth
        simp [deepest, openAfter, height]
  | false =>
      rw [hnegative] at htext hvalue
      refine ⟨[⟨.number numeral, cs, start⟩], ?_, ?_, ?_⟩
      · rw [text, htext]
        exact scansAs_number hspelling
      · rw [← hvalue]
        exact .number rfl hspelling.readText_eq
      · intro depth
        simp [deepest, openAfter, height]

/-- Every well-formed tree has its tokens. -/
theorem exists_printed (h : e.WellFormed) (start : Nat) : ∃ ts, Printed start e ts := by
  induction e generalizing start with
  | literal x => exact exists_printed_literal start x
  | binary op left right ihleft ihright =>
      obtain ⟨ts, hleft⟩ := ihleft h.1 (start + 1)
      obtain ⟨us, hright⟩ := ihright h.2 (start + 1 + left.text.toList.length + 3)
      refine ⟨groupTokens start op left.text.toList right.text.toList ts us, ?_, ?_, ?_⟩
      · rw [toList_text_binary]
        exact scansAs_group hleft.scans hright.scans
      · exact derives_group hleft.derives hright.derives
      · intro depth
        have hts := hleft.shallow (depth + 1)
        have hus := hright.shallow (depth + 1)
        have hgroup :
            deepest depth (groupTokens start op left.text.toList right.text.toList ts us) ≤
              depth + max left.height right.height :=
          deepest_group hleft.derives hright.derives (by omega) (by omega)
        rw [height]
        omega
  | foreign shown => exact h.elim

/-- The text of a tree is parsed as the tree, with room for all its parentheses. -/
theorem parseWithin_text (h : e.WellFormed) {limit : Nat} (hlimit : e.height ≤ limit + 1) :
    parseWithin limit e.text = .ok e := by
  obtain ⟨ts, hprinted⟩ := exists_printed h 0
  have hshallow := hprinted.shallow 0
  refine parseWithin_eq_ok_iff.mpr ⟨ts, hprinted.scans.scan, ?_, ?_⟩
  · exact .product (.factor hprinted.derives)
  · rw [nesting]
    omega

/-- Main result: parsing what a tree is printed as gives the tree back, with its shape, its
operators and the very double at each leaf.  Only trees that nest beyond a limit are not parsed,
and within the program's own limit a tree is also printed. -/
theorem parse_text (h : e.WellFormed) :
    (∀ limit, e.height ≤ limit + 1 → parseWithin limit e.text = .ok e) ∧
    (e.height ≤ nestingLimit + 1 → e.write = .ok e.text ∧ parse e.text = .ok e) := by
  constructor
  · intro limit hlimit
    exact parseWithin_text h hlimit
  · intro hheight
    have htext : e.height ≤ textLimit := Nat.le_trans hheight (by decide)
    exact ⟨within_of_le htext _, parseWithin_text h hheight⟩

/-- A negative operand after a minus sign, a negative zero, and a number with an exponent. -/
theorem parse_text_negative_operands :
    ∃ e : Expr, e.WellFormed ∧ e.write = .ok "((-0 - -inf) * 1e+16)" ∧
      parse "((-0 - -inf) * 1e+16)" = .ok e := by
  let difference : Expr := .binary .subtract (.literal (Binary64.ofWord true 0))
    (.literal (Binary64.ofWord true Binary64.infinityWord))
  let product : Expr :=
    .binary .multiply difference (.literal (Binary64.ofWord false 4846369599423283200))
  have hwell : product.WellFormed := ⟨⟨trivial, trivial⟩, trivial⟩
  have htext : product.text = "((-0 - -inf) * 1e+16)" := by decide +kernel
  have h := (parse_text hwell).2 (by decide)
  rw [htext] at h
  exact ⟨product, hwell, h⟩

end Calculator.Expr
