import Calculator.Proofs.Expr.Printing
import Calculator.Proofs.Expr.SignedNumber
import Calculator.Proofs.Expr.Turns
import Calculator.Proofs.Session.Queue

/-!
How deep parentheses nest bounds the slots that an expression needs.  Between parentheses a sum
needs three slots at most, however long it is, and each parenthesis that is open costs two more;
there are texts that need just as many.  So a stack with so many slots never overflows, and what
may still fail is only that the tree is too high to be walked.
-/
namespace Calculator.Expr

open Numeral (EndsNumeral Spelling)
open Stack (HasRoom)
open Program

variable {rank : Rank} {ts us : List Token} {e left right : Expr} {depth k n start : Nat} {c : Char}
  {cs ds : List Char} {lexeme : Lexeme} {numeral : Numeral} {source : String}

/-! ### The slots of a derived expression -/

/-- Slots that an expression of the rank needs without parentheses. -/
def Rank.slots : Rank → Nat
  | .factor => 1
  | .product => 2
  | .sum => 3

theorem Derives.wellFormed (h : Derives rank ts e) : e.WellFormed := by
  induction h with
  | number hlexeme htext => trivial
  | negative hsign hlexeme hnext htext => trivial
  | group hleft hinner hright ih => exact ih
  | factor hfactor ih => exact ih
  | times hleft hop hrank hright ihleft ihright => exact ⟨ihleft, ihright⟩
  | product hproduct ih => exact ih
  | plus hleft hop hrank hright ihleft ihright => exact ⟨ihleft, ihright⟩

/-- The operands on both sides of an operator nest no deeper than all of it. -/
theorem Derives.deepest_operands {t : Token} {op : Operator} (h : Derives rank ts e)
    (hop : t.lexeme = .operator op) (hdeepest : deepest depth (ts ++ t :: us) ≤ depth + k) :
    deepest depth ts ≤ depth + k ∧ deepest depth us ≤ depth + k := by
  rw [deepest_append_le, h.balanced, deepest_cons_le] at hdeepest
  simp only [openAfter, hop] at hdeepest
  exact ⟨hdeepest.1, hdeepest.2.2⟩

/-- Every parenthesis that is open costs two slots. -/
theorem Derives.need_le (h : Derives rank ts e) (hdeepest : deepest depth ts ≤ depth + k) :
    e.need ≤ 2 * k + rank.slots := by
  induction h generalizing depth k with
  | number hlexeme htext | negative hsign hlexeme hnext htext => simp [need, Rank.slots]
  | @group left right ts e hleft hinner hright ih =>
      rw [deepest_cons_le, deepest_append_le] at hdeepest
      simp only [openAfter, hleft] at hdeepest
      have hinside := hdeepest.2.1
      have hopen := le_deepest (depth + 1) ts
      -- one of the `k` parentheses is open already
      have hle := ih (show deepest (depth + 1) ts ≤ depth + 1 + (k - 1) by omega)
      simp only [Rank.slots] at hle ⊢
      omega
  | factor hfactor ih =>
      have hle := ih hdeepest
      simp only [Rank.slots] at hle ⊢
      omega
  | product hproduct ih =>
      have hle := ih hdeepest
      simp only [Rank.slots] at hle ⊢
      omega
  | times hleft hop hrank hright ihleft ihright | plus hleft hop hrank hright ihleft ihright =>
      obtain ⟨hl, hr⟩ := hleft.deepest_operands hop hdeepest
      have hle := ihleft hl
      have hle' := ihright hr
      simp only [Rank.slots, need] at hle hle' ⊢
      omega

/-! ### Texts put together -/

theorem deepest_append (depth : Nat) (ts us : List Token) :
    deepest depth (ts ++ us) = max (deepest depth ts) (deepest (ts.foldl openAfter depth) us) := by
  refine eq_of_forall_ge_iff fun limit => ?_
  rw [deepest_append_le, max_le_iff]

theorem scansAs_nil : ScansAs start [] [] :=
  fun _ _ _ => (bind_pure _).symm

theorem ScansAs.symbol (h : ScansAs (start + 1) cs ts) (hc : Token.symbol? c = some lexeme) :
    ScansAs start (c :: cs) (⟨lexeme, [c], start⟩ :: ts) := by
  intro source rest hrest
  rw [List.cons_append, Token.scanFrom_symbol hc, h source rest hrest, List.length_cons,
    Nat.add_assoc, Nat.add_comm 1]
  simp only [bind_assoc, pure_bind, List.cons_append]

/-- A text goes on with another one into which no numeral goes on. -/
theorem ScansAs.append (h : ScansAs start cs ts) (h' : ScansAs (start + cs.length) ds us)
    (hends : ∀ rest, EndsNumeral (ds ++ rest)) : ScansAs start (cs ++ ds) (ts ++ us) := by
  intro source rest hrest
  rw [List.append_assoc, h _ _ (hends rest), h' _ _ hrest, List.length_append, ← Nat.add_assoc]
  simp only [bind_assoc, pure_bind, List.append_assoc]

theorem endsNumeral_symbol (hc : Token.symbol? c = some lexeme) (rest : List Char) :
    EndsNumeral (c :: rest) := by
  have hapart : ∀ c ∈ Token.symbols,
      Text.digitValue? c = none ∧ c ≠ '.' ∧ c ≠ 'e' ∧ c ≠ 'E' := by
    intro c hc
    fin_cases hc <;> decide
  exact Token.endsNumeral_cons (hapart c (Token.mem_symbols hc)) rest

theorem spelling_digit {d : Nat} (hc : Text.digitValue? c = some d) :
    Spelling [c] (.decimal [d] [] 0) :=
  .decimal (.whole (Numeral.digits_cons.mpr ⟨hc, Numeral.digits_nil⟩) (List.cons_ne_nil _ _)) .none

/-- A text, from the column on, has tokens that derive the tree and nest `k` deep. -/
def Nests (start : Nat) (cs : List Char) (rank : Rank) (e : Expr) (k : Nat) : Prop :=
  ∃ ts, ScansAs start cs ts ∧ Derives rank ts e ∧ ∀ depth, deepest depth ts = depth + k

/-- The literal of a digit. -/
def digit (d : Nat) : Expr :=
  .literal (Numeral.value false (.decimal [d] [] 0))

theorem nests_digit {d : Nat} (hc : Text.digitValue? c = some d) :
    Nests start [c] .factor (digit d) 0 := by
  have hspelling := spelling_digit hc
  refine ⟨_, scansAs_number hspelling, .number rfl hspelling.readText_eq, ?_⟩
  intro depth
  simp [deepest, openAfter]

theorem Nests.group (h : Nests (start + 1) cs .sum e k) :
    Nests start ('(' :: (cs ++ [')'])) .factor e (k + 1) := by
  obtain ⟨ts, hscans, hderives, hdeepest⟩ := h
  have hclosing : Token.symbol? ')' = some .closing := rfl
  have hinside := hscans.append (scansAs_nil.symbol hclosing) (endsNumeral_symbol hclosing)
  refine ⟨_, hinside.symbol (by rfl), .group rfl hderives rfl, ?_⟩
  intro depth
  simp only [deepest, openAfter, deepest_append, hderives.balanced, hdeepest]
  omega

/-- Two parts with an operator between them nest as deep as the deeper one. -/
theorem Nests.join {rank₁ rank₂ : Rank} (op : Operator) (h : Nests start cs rank₁ left k)
    (h' : Nests (start + cs.length + 1) ds rank₂ right n)
    (hjoin : ∀ {ts us t}, Derives rank₁ ts left → t.lexeme = .operator op →
      Derives rank₂ us right → Derives rank (ts ++ t :: us) (.binary op left right)) :
    Nests start (cs ++ op.symbol :: ds) rank (.binary op left right) (max k n) := by
  obtain ⟨ts, hscans, hderives, hdeepest⟩ := h
  obtain ⟨us, hscans', hderives', hdeepest'⟩ := h'
  have hop : Token.symbol? op.symbol = some (.operator op) := by
    rw [Token.symbol?, Operator.ofChar?_symbol]
  refine ⟨_, hscans.append (hscans'.symbol hop) (endsNumeral_symbol hop),
    hjoin hderives rfl hderives', ?_⟩
  intro depth
  simp only [deepest, openAfter, deepest_append, hderives.balanced, hdeepest, hdeepest']
  omega

theorem Nests.times (h : Nests start cs .product left k)
    (h' : Nests (start + cs.length + 1) ds .factor right n) :
    Nests start (cs ++ '*' :: ds) .product (.binary .multiply left right) (max k n) :=
  Nests.join .multiply h h' fun hl hop hr => .times hl hop rfl hr

theorem Nests.plus (h : Nests start cs .sum left k)
    (h' : Nests (start + cs.length + 1) ds .product right n) :
    Nests start (cs ++ '+' :: ds) .sum (.binary .add left right) (max k n) :=
  Nests.join .add h h' fun hl hop hr => .plus hl hop rfl hr

theorem Nests.product (h : Nests start cs .factor e k) : Nests start cs .product e k := by
  obtain ⟨ts, hscans, hderives, hdeepest⟩ := h
  exact ⟨ts, hscans, .factor hderives, hdeepest⟩

theorem Nests.sum (h : Nests start cs .product e k) : Nests start cs .sum e k := by
  obtain ⟨ts, hscans, hderives, hdeepest⟩ := h
  exact ⟨ts, hscans, .product hderives, hdeepest⟩

/-- A whole text is parsed with room for its parentheses, and only so. -/
theorem Nests.parse_iff (h : Nests 0 cs .sum e k) :
    ∃ ts, Token.scan (String.ofList cs) = .ok ts ∧ nesting ts = k ∧
      ∀ limit, parseWithin limit (String.ofList cs) = .ok e ↔ k ≤ limit := by
  obtain ⟨ts, hscans, hderives, hdeepest⟩ := h
  have hscan : Token.scan (String.ofList cs) = .ok ts :=
    ScansAs.scan (by rwa [String.toList_ofList])
  have hnesting : nesting ts = k := (hdeepest 0).trans (Nat.zero_add k)
  refine ⟨ts, hscan, hnesting, fun limit => ?_⟩
  rw [parseWithin_eq_ok_iff, ← hnesting]
  constructor
  · rintro ⟨us, hus, -, hle⟩
    rw [hscan] at hus
    rwa [Except.ok.inj hus]
  · exact fun hle => ⟨ts, hscan, hderives, hle⟩

/-! ### Texts that need as many slots as they can, and long ones -/

/-- A text that nests `k` deep: inside every parenthesis, and outside all of them, the last factor
stands to the right of a product to the right of a sum. -/
def tightChars : Nat → List Char
  | 0 => ['1', '+', '2', '*', '3']
  | k + 1 => '1' :: '+' :: '2' :: '*' :: '(' :: (tightChars k ++ [')'])

/-- The tree of that text. -/
def tight : Nat → Expr
  | 0 => .binary .add (digit 1) (.binary .multiply (digit 2) (digit 3))
  | k + 1 => .binary .add (digit 1) (.binary .multiply (digit 2) (tight k))

theorem nests_last (h : Nests (start + 4) cs .factor e k) :
    Nests start ('1' :: '+' :: '2' :: '*' :: cs) .sum
      (.binary .add (digit 1) (.binary .multiply (digit 2) e)) k := by
  have hone : Nests start ['1'] .factor (digit 1) 0 := nests_digit (by decide)
  have htwo : Nests (start + 2) ['2'] .factor (digit 2) 0 := nests_digit (by decide)
  have hall := hone.product.sum.plus (htwo.product.times h)
  rwa [Nat.zero_max, Nat.zero_max] at hall

theorem nests_tight (k start : Nat) : Nests start (tightChars k) .sum (tight k) k := by
  induction k generalizing start with
  | zero => exact nests_last (nests_digit (by decide))
  | succ k ih => exact nests_last (ih _).group

theorem need_tight (k : Nat) : (tight k).need = 2 * k + 3 := by
  induction k with
  | zero => rfl
  | succ k ih =>
      simp only [tight, digit, need, ih]
      omega

theorem height_tight (k : Nat) : (tight k).height = 2 * k + 3 := by
  induction k with
  | zero => rfl
  | succ k ih =>
      simp only [tight, digit, height, ih]
      omega

/-- A sum of ones with `n` signs. -/
def sumChars : Nat → List Char
  | 0 => ['1']
  | n + 1 => sumChars n ++ ['+', '1']

/-- The tree of that sum. -/
def sum (n : Nat) : Expr :=
  chain (Numeral.value false (.decimal [1] [] 0))
    (List.replicate n (.add, Numeral.value false (.decimal [1] [] 0)))

theorem nests_sum (n start : Nat) : Nests start (sumChars n) .sum (sum n) 0 := by
  have hone : ∀ start, Nests start ['1'] .factor (digit 1) 0 := fun start =>
    nests_digit (by decide)
  induction n with
  | zero => exact (hone start).product.sum
  | succ n ih =>
      rw [sum, List.replicate_succ', chain_concat]
      exact ih.plus (hone _).product

theorem mem_sumChars (h : c ∈ sumChars n) : c = '1' ∨ c = '+' := by
  induction n with
  | zero => exact .inl (List.mem_singleton.mp h)
  | succ n ih =>
      rcases List.mem_append.mp h with h | h
      · exact ih h
      · simpa [or_comm] using h

theorem sumChars_ne_nil (n : Nat) : sumChars n ≠ [] := by
  cases n with
  | zero => exact List.cons_ne_nil _ _
  | succ n => exact List.append_ne_nil_of_right_ne_nil _ (List.cons_ne_nil _ _)

/-! ### Sessions -/

theorem fits_of_hasRoom {capacity : Option Nat} (h : HasRoom capacity e.need) :
    e.Fits capacity := by
  rintro m hcapacity ⟨p, d, hcompile, hdepth, hlt⟩
  obtain ⟨is, x, rfl, hcode, -⟩ := exists_code_of_compile hcompile
  obtain rfl := Except.ok.inj ((depth_code hcode).symm.trans hdepth)
  exact absurd hlt (Nat.not_lt_of_le (h m hcapacity))

/-- With room for its code a tree is run or shown, unless it is too high for the strategy. -/
theorem result_runQueued_of_room {s : Session} {number : Int} (hs : s.stack.Valid)
    (he : e.WellFormed) (hroom : HasRoom s.stack.capacity e.need) :
    ((Session.runQueued ⟨number, source, e⟩).run s).result =
      if e.height ≤ (Setting.ofSession s).heightLimit then .ok () else .error .nestsTooDeeply := by
  have hfits : e.Fits (Setting.ofSession s).capacity := fits_of_hasRoom hroom
  rw [Session.result_runQueued hs]
  exact Setting.answerOf_of_fits he hfits

/-- Main result: if the parentheses of a text nest at most `k` deep, the code of its tree has depth
`2 * k + 3` at most, however long the text is.  Compiling gives this code, and with so many slots a
session runs the text without an overflow; only a tree that is too high to be compiled, or for the
strategy of the session, fails as one that nests too deeply.  A text in which no parenthesis opens
nests `0` deep.  For every `k` there is a text that nests `k` deep with code of just that depth; it
is parsed with room for its parentheses, and all such texts that are parsed within the program's own
limit are compiled as well. -/
theorem depth_le_of_nesting :
    (∀ source e ts k, parse source = .ok e → Token.scan source = .ok ts → nesting ts ≤ k →
      ∃ is d, e.code = .ok is ∧ (ofInstrs is).depth = .ok d ∧ d ≤ 2 * k + 3 ∧
        e.compile =
          (if e.height ≤ compileLimit then .ok (ofInstrs is) else .error .nestsTooDeeply) ∧
        ∀ files s number, Session.Reachable files s → HasRoom s.stack.capacity (2 * k + 3) →
          ((Session.runQueued ⟨number, source, e⟩).run s).result =
            if e.height ≤ (Setting.ofSession s).heightLimit then .ok ()
            else .error .nestsTooDeeply) ∧
    (∀ source ts, Token.scan source = .ok ts → '(' ∉ source.toList → nesting ts = 0) ∧
    ∀ k, ∃ source ts e is, Token.scan source = .ok ts ∧ nesting ts = k ∧
      (∀ limit, parseWithin limit source = .ok e ↔ k ≤ limit) ∧
      e.code = .ok is ∧ (ofInstrs is).depth = .ok (2 * k + 3) ∧
      (k ≤ nestingLimit → parse source = .ok e ∧ e.compile = .ok (ofInstrs is)) := by
  refine ⟨?_, ?_, ?_⟩
  · intro source e ts k hparse hscan hnesting
    obtain ⟨ts', hscan', hderives, -⟩ := parseWithin_eq_ok_iff.mp hparse
    obtain rfl := Except.ok.inj (hscan.symm.trans hscan')
    have hneed : e.need ≤ 2 * k + 3 := by
      have hdeepest : deepest 0 ts ≤ 0 + k := by rwa [Nat.zero_add]
      exact hderives.need_le hdeepest
    have he := hderives.wellFormed
    obtain ⟨is, x, hcode, -⟩ := he.code_value
    refine ⟨is, e.need, hcode, depth_code hcode, hneed, compile_of_code hcode, ?_⟩
    intro files s number hs hroom
    exact result_runQueued_of_room hs.sound.stack he (hroom.mono hneed)
  · intro source ts hscan hopen
    have hflat : nesting ts ≤ 0 :=
      deepest_le_of_no_opening (Token.lexeme_ne_opening_of_scan hscan hopen)
    exact Nat.le_zero.mp hflat
  · intro k
    have htight : Nests 0 (tightChars k) .sum (tight k) k := nests_tight k 0
    obtain ⟨ts, hscan, hnesting, hparse⟩ := htight.parse_iff
    have he : (tight k).WellFormed := by
      obtain ⟨_, _, hderives, _⟩ := htight
      exact hderives.wellFormed
    obtain ⟨is, x, hcode, -⟩ := he.code_value
    refine ⟨_, ts, tight k, is, hscan, hnesting, hparse, hcode, ?_, ?_⟩
    · rw [depth_code hcode, need_tight]
    · intro hk
      have hheight : (tight k).height ≤ compileLimit := by
        rw [height_tight]
        exact Nat.le_trans (Nat.add_le_add_right (Nat.mul_le_mul_left 2 hk) 3) (by decide)
      refine ⟨(hparse nestingLimit).mpr hk, ?_⟩
      rw [compile_of_code hcode, if_pos hheight]

/-- The text `1+2*(1+2*3)` nests one deep and needs five slots. -/
theorem depth_le_of_nesting_one_parenthesis :
    ∃ ts is, parse (String.ofList (tightChars 1)) = .ok (tight 1) ∧
      Token.scan (String.ofList (tightChars 1)) = .ok ts ∧ nesting ts ≤ 1 ∧
      (tight 1).code = .ok is ∧ (ofInstrs is).depth = .ok 5 ∧
      (tight 1).compile = .ok (ofInstrs is) := by
  obtain ⟨ts, hscan, hnesting, hlimit⟩ := Nests.parse_iff (nests_tight 1 0)
  have hparse : parse (String.ofList (tightChars 1)) = .ok (tight 1) :=
    (hlimit nestingLimit).mpr (by decide)
  obtain ⟨is, d, hcode, hdepth, -, hcompile, -⟩ :=
    depth_le_of_nesting.1 _ _ ts 1 hparse hscan (Nat.le_of_eq hnesting)
  obtain rfl := Except.ok.inj ((depth_code hcode).symm.trans hdepth)
  exact ⟨ts, is, hparse, hscan, Nat.le_of_eq hnesting, hcode, hdepth, hcompile⟩

/-- A sum of 2500 ones has no parentheses and is parsed, but it is not compiled; and no text that
nests 500 deep is parsed at all. -/
theorem compile_long_sum :
    (∃ ts, Token.scan (String.ofList (sumChars 2499)) = .ok ts ∧ nesting ts = 0 ∧
      parse (String.ofList (sumChars 2499)) = .ok (sum 2499) ∧
      (sum 2499).compile = .error .nestsTooDeeply) ∧
    ∀ source ts e, Token.scan source = .ok ts → nesting ts = 500 → parse source ≠ .ok e := by
  constructor
  · obtain ⟨ts, hscan, hnesting, hlimit⟩ := Nests.parse_iff (nests_sum 2499 0)
    refine ⟨ts, hscan, hnesting, (hlimit nestingLimit).mpr (Nat.zero_le _), ?_⟩
    exact (compile_chain_of_le _ (by rw [List.length_replicate]; decide)).2
  · intro source ts e hscan hnesting hparse
    obtain ⟨ts', hscan', -, hle⟩ := parseWithin_eq_ok_iff.mp hparse
    obtain rfl := Except.ok.inj (hscan.symm.trans hscan')
    rw [hnesting] at hle
    exact absurd hle (by decide)

end Calculator.Expr
