import Calculator.Proofs.Expr.Grammar

/-!
The parser accepts the grammar.  The grammar is left-recursive, and the parser reads tokens from
the left and never goes back.  What joins the two is an account of the tokens read so far: they
are open parentheses, and inside each a sum and a product that wait for a right operand.  The
account gives a derivation of whatever is accepted; and since the parser is a function, that it
reads every derivation as its tree also shows that no text has two trees.
-/
namespace Calculator.Expr

namespace Work

variable {limit : Nat} {source : String} {w w' : Work} {t : Token} {ts us vs : List Token}
  {e : Expr}

/-! ### What the parser accepts is derived -/

/-- The tokens are those of an operator that waits and of its left operand. -/
inductive Waits (rank : Rank) (additive : Bool) : Waiting → List Token → Prop where
  | none : Waits rank additive none []
  | some {ts : List Token} {t : Token} {left : Expr} {op : Operator}
      (hleft : Derives rank ts left) (hop : t.lexeme = .operator op)
      (hrank : op.isAdditive = additive) : Waits rank additive (some (left, op)) (ts ++ [t])

/-- The tokens are those of the sum and the product that wait in one level. -/
inductive LevelReads : Level → List Token → Prop where
  | mk {sum product : Waiting} {ts us : List Token} (hsum : Waits .sum true sum ts)
      (hproduct : Waits .product false product us) : LevelReads ⟨sum, product⟩ (ts ++ us)

/-- The tokens are those before the innermost open parenthesis, and that parenthesis. -/
inductive ParensRead : List Paren → List Token → Prop where
  | nil : ParensRead [] []
  | cons {level : Level} {parens : List Paren} {ts us : List Token} {t : Token}
      (houter : ParensRead parens ts) (hlevel : LevelReads level us)
      (hlexeme : t.lexeme = .opening) : ParensRead (⟨t.start, level⟩ :: parens) (ts ++ us ++ [t])

/-- The tokens that were read account for the work that is left. -/
inductive Reads : Work → List Token → Prop where
  | operand {level : Level} {parens : List Paren} {ts us : List Token}
      (houter : ParensRead parens ts) (hlevel : LevelReads level us) :
      Reads (.operand level parens) (ts ++ us)
  | signed {sign : Token} {level : Level} {parens : List Paren} {ts us : List Token}
      (houter : ParensRead parens ts) (hlevel : LevelReads level us)
      (hsign : sign.lexeme = .operator .subtract) :
      Reads (.signed sign level parens) (ts ++ us ++ [sign])
  | operator {sum : Waiting} {term : Expr} {parens : List Paren} {ts us vs : List Token}
      (houter : ParensRead parens ts) (hsum : Waits .sum true sum us)
      (hterm : Derives .product vs term) : Reads (.operator sum term parens) (ts ++ us ++ vs)

theorem Waits.joined_sum {waiting : Waiting} (h : Waits .sum true waiting ts)
    (hterm : Derives .product us e) : Derives .sum (ts ++ us) (joined waiting e) := by
  cases h with
  | none => exact .product hterm
  | some hleft hop hrank =>
      rw [List.append_assoc]
      exact .plus hleft hop hrank hterm

theorem Waits.joined_product {waiting : Waiting} (h : Waits .product false waiting ts)
    (hfactor : Derives .factor us e) : Derives .product (ts ++ us) (joined waiting e) := by
  cases h with
  | none => exact .factor hfactor
  | some hleft hop hrank =>
      rw [List.append_assoc]
      exact .times hleft hop hrank hfactor

/-- An operand completes the product that waits for it. -/
theorem reads_of_operand {level : Level} {parens : List Paren} (houter : ParensRead parens ts)
    (hlevel : LevelReads level us) (hfactor : Derives .factor vs e) :
    Reads (.operator level.sum (level.term e) parens) (ts ++ us ++ vs) := by
  cases hlevel with
  | mk hsum hproduct =>
      rename_i sum product us us'
      have h := Reads.operator houter hsum (hproduct.joined_product hfactor)
      rwa [← List.append_assoc, List.append_assoc ts us us'] at h

theorem levelReads_start : LevelReads .start [] :=
  .mk .none .none

/-- An operator waits with what was completed before it. -/
theorem levelReads_after {sum : Waiting} {term : Expr} {op : Operator}
    (hsum : Waits .sum true sum us) (hterm : Derives .product vs term)
    (hop : t.lexeme = .operator op) : LevelReads (.after sum term op) (us ++ vs ++ [t]) := by
  rw [Level.after]
  cases hrank : op.isAdditive with
  | true =>
      rw [if_pos rfl]
      have h := LevelReads.mk (.some (hsum.joined_sum hterm) hop hrank) .none
      rwa [List.append_nil] at h
  | false =>
      rw [if_neg (by decide), List.append_assoc]
      exact .mk hsum (.some hterm hop hrank)

/-- A token keeps the account. -/
theorem Reads.step (h : Reads w ts) (hspelled : t.Spelled) (hstep : Step limit w t w') :
    Reads w' (ts ++ [t]) := by
  cases hstep with
  | number hlexeme =>
      cases h with
      | operand houter hlevel =>
          exact reads_of_operand houter hlevel (.number hlexeme (hspelled.readText_eq hlexeme))
  | sign hlexeme =>
      cases h with
      | operand houter hlevel => exact .signed houter hlevel hlexeme
  | opening hlexeme hroom =>
      cases h with
      | operand houter hlevel =>
          have h := Reads.operand (ParensRead.cons houter hlevel hlexeme) levelReads_start
          rwa [List.append_nil] at h
  | negative hlexeme hnext =>
      cases h with
      | signed houter hlevel hsign =>
          rw [List.append_assoc, Numeral.value_true]
          exact reads_of_operand houter hlevel
            (.negative hsign hlexeme hnext (hspelled.readText_eq hlexeme))
  | operator hlexeme =>
      cases h with
      | operator houter hsum hterm =>
          rw [List.append_assoc, List.append_assoc]
          rw [← List.append_assoc _ _ [t]]
          exact .operand houter (levelReads_after hsum hterm hlexeme)
  | closing hlexeme =>
      cases h with
      | operator houter hsum hterm =>
          cases houter with
          | cons houter hlevel hleft =>
              -- the sum between the parentheses becomes an operand of the level around them
              have hfactor := Derives.group hleft (hsum.joined_sum hterm) hlexeme
              have h := reads_of_operand houter hlevel hfactor
              simpa only [List.append_assoc, List.cons_append, List.nil_append] using h

/-- Reading tokens keeps the account. -/
theorem Reads.advance (h : Reads w ts) (hspelled : ∀ t ∈ us, t.Spelled)
    (hadvance : advance limit source w us = .ok w') : Reads w' (ts ++ us) := by
  induction us generalizing w ts with
  | nil =>
      obtain rfl := Except.ok.inj hadvance
      rwa [List.append_nil]
  | cons t us ih =>
      obtain ⟨v, hnext, htail⟩ := advance_cons_eq_ok hadvance
      obtain ⟨ht, hus⟩ := List.forall_mem_cons.mp hspelled
      have hreads := ih (h.step ht (step_of_next_eq_ok hnext)) hus htail
      rwa [List.append_assoc] at hreads

theorem reads_start : Reads .start [] :=
  .operand .nil levelReads_start

/-- A finished sum is derived from all the tokens that were read. -/
theorem Reads.finish (h : Reads w ts) (hfinish : finish source w = .ok e) :
    Derives .sum ts e := by
  obtain ⟨sum, term, rfl, rfl⟩ := finish_eq_ok hfinish
  cases h with
  | operator houter hsum hterm =>
      cases houter with
      | nil => exact hsum.joined_sum hterm

/-! ### What is derived the parser reads -/

/-- The parser reads the tokens as an expression of the rank, wherever one may stand. -/
def ReadsAs (limit : Nat) (source : String) : Rank → List Token → Expr → Prop
  | .factor, ts, e =>
    ∀ (level : Level) (parens : List Paren), deepest parens.length ts ≤ limit →
      advance limit source (.operand level parens) ts =
        .ok (.operator level.sum (level.term e) parens)
  | .product, ts, e =>
    ∀ (sum : Waiting) (parens : List Paren), deepest parens.length ts ≤ limit →
      advance limit source (.operand ⟨sum, none⟩ parens) ts = .ok (.operator sum e parens)
  | .sum, ts, e =>
    ∀ parens : List Paren, deepest parens.length ts ≤ limit → ∃ sum term,
      advance limit source (.operand .start parens) ts = .ok (.operator sum term parens) ∧
        joined sum term = e

/-- After tokens that were read, the rest nests within the limit from the depth reached. -/
theorem deepest_rest_le {depth : Nat} (hdeepest : deepest depth (ts ++ us) ≤ limit)
    (hdepth : w.depth = depth) (h : advance limit source w ts = .ok w') :
    deepest w'.depth us ≤ limit := by
  rw [depth_eq_of_advance h, hdepth]
  exact (deepest_append_le.mp hdeepest).2

theorem advance_number {level : Level} {parens : List Paren} {numeral : Numeral}
    (hlexeme : t.lexeme = .number numeral) :
    advance limit source (.operand level parens) [t] =
      .ok (.operator level.sum (level.term (.literal (numeral.value false))) parens) := by
  rw [advance_singleton]
  exact next_eq_ok_of_step (.number hlexeme)

theorem advance_negative {level : Level} {parens : List Paren} {sign : Token} {numeral : Numeral}
    (hsign : sign.lexeme = .operator .subtract) (hlexeme : t.lexeme = .number numeral)
    (hnext : t.start = sign.stop) :
    advance limit source (.operand level parens) [sign, t] =
      .ok (.operator level.sum (level.term (.literal (numeral.value true))) parens) := by
  rw [advance_cons_of_ok (next_eq_ok_of_step (.sign hsign)), advance_singleton]
  exact next_eq_ok_of_step (.negative hlexeme hnext)

/-- A sum between parentheses is read as an operand. -/
theorem ReadsAs.group {left right : Token} (hleft : left.lexeme = .opening)
    (hright : right.lexeme = .closing) (h : ReadsAs limit source .sum ts e) :
    ReadsAs limit source .factor (left :: (ts ++ [right])) e := by
  intro level parens hdeepest
  have hinside : deepest (parens.length + 1) (ts ++ [right]) ≤ limit := by
    have := (deepest_cons_le.mp hdeepest).2
    simpa only [openAfter, hleft] using this
  have hroom : parens.length < limit := Nat.le_trans (le_deepest _ _) hinside
  obtain ⟨sum, term, hadvance, rfl⟩ :=
    h (⟨left.start, level⟩ :: parens) (deepest_append_le.mp hinside).1
  rw [advance_cons_of_ok (next_eq_ok_of_step (.opening hleft hroom)), advance_append hadvance,
    advance_singleton]
  exact next_eq_ok_of_step (.closing hright)

theorem ReadsAs.times {l r : Expr} {op : Operator} (hleft : ReadsAs limit source .product ts l)
    (hop : t.lexeme = .operator op) (hrank : op.isAdditive = false)
    (hright : ReadsAs limit source .factor us r) :
    ReadsAs limit source .product (ts ++ t :: us) (.binary op l r) := by
  intro sum parens hdeepest
  have hl := hleft sum parens (deepest_append_le.mp hdeepest).1
  have hafter : Level.after sum l op = ⟨sum, some (l, op)⟩ := by
    rw [Level.after, hrank]
    rfl
  have ht : next limit source (.operator sum l parens) t =
      .ok (.operand ⟨sum, some (l, op)⟩ parens) := by
    rw [← hafter]
    exact next_eq_ok_of_step (.operator hop)
  have hrest : deepest parens.length us ≤ limit := by
    have := (deepest_cons_le.mp (deepest_rest_le hdeepest rfl hl)).2
    simpa only [depth, openAfter, hop] using this
  rw [advance_append hl, advance_cons_of_ok ht, hright _ parens hrest]
  rfl

theorem ReadsAs.plus {l r : Expr} {op : Operator} (hleft : ReadsAs limit source .sum ts l)
    (hop : t.lexeme = .operator op) (hrank : op.isAdditive = true)
    (hright : ReadsAs limit source .product us r) :
    ReadsAs limit source .sum (ts ++ t :: us) (.binary op l r) := by
  intro parens hdeepest
  obtain ⟨sum, term, hl, rfl⟩ := hleft parens (deepest_append_le.mp hdeepest).1
  -- an additive operator completes whatever waits, so the tree grows to the left
  have hafter : Level.after sum term op = ⟨some (joined sum term, op), none⟩ := by
    rw [Level.after, hrank]
    rfl
  have ht : next limit source (.operator sum term parens) t =
      .ok (.operand ⟨some (joined sum term, op), none⟩ parens) := by
    rw [← hafter]
    exact next_eq_ok_of_step (.operator hop)
  have hrest : deepest parens.length us ≤ limit := by
    have := (deepest_cons_le.mp (deepest_rest_le hdeepest rfl hl)).2
    simpa only [depth, openAfter, hop] using this
  refine ⟨some (joined sum term, op), r, ?_, rfl⟩
  rw [advance_append hl, advance_cons_of_ok ht, hright _ parens hrest]

/-- What a number's text states is what its numeral denotes. -/
theorem eq_value_of_readText {numeral : Numeral} {x : Float} (hspelled : t.Spelled)
    (hlexeme : t.lexeme = .number numeral) (htext : Numeral.readText t.text = some x) :
    x = numeral.value false := by
  rw [hspelled.readText_eq hlexeme] at htext
  exact (Option.some.inj htext).symm

/-- The parser reads every derivation as its tree. -/
theorem readsAs_of_derives {rank : Rank} (h : Derives rank ts e)
    (hspelled : ∀ t ∈ ts, t.Spelled) : ReadsAs limit source rank ts e := by
  induction h with
  | number hlexeme htext =>
      intro level parens hdeepest
      rw [eq_value_of_readText (hspelled _ List.mem_cons_self) hlexeme htext]
      exact advance_number hlexeme
  | negative hsign hlexeme hnext htext =>
      intro level parens hdeepest
      have ht := hspelled _ (List.mem_cons_of_mem _ List.mem_cons_self)
      rw [eq_value_of_readText ht hlexeme htext, ← Numeral.value_true]
      exact advance_negative hsign hlexeme hnext
  | group hleft hinner hright ih =>
      have hinside := (List.forall_mem_cons.mp hspelled).2
      exact (ih (List.forall_mem_append.mp hinside).1).group hleft hright
  | factor hfactor ih =>
      intro sum parens hdeepest
      exact ih hspelled ⟨sum, none⟩ parens hdeepest
  | times hleft hop hrank hright ihleft ihright =>
      obtain ⟨hl, hr⟩ := List.forall_mem_append.mp hspelled
      exact (ihleft hl).times hop hrank (ihright (List.forall_mem_cons.mp hr).2)
  | product hproduct ih =>
      intro parens hdeepest
      exact ⟨none, _, ih hspelled none parens hdeepest, rfl⟩
  | plus hleft hop hrank hright ihleft ihright =>
      obtain ⟨hl, hr⟩ := List.forall_mem_append.mp hspelled
      exact (ihleft hl).plus hop hrank (ihright (List.forall_mem_cons.mp hr).2)

/-- All the tokens of a text that derive a sum are read as its tree. -/
theorem parse_of_derives (h : Derives .sum ts e) (hspelled : ∀ t ∈ ts, t.Spelled)
    (hnesting : nesting ts ≤ limit) : Work.start.parse limit source ts = .ok e := by
  have hreads : ReadsAs limit source .sum ts e := readsAs_of_derives h hspelled
  obtain ⟨sum, term, hadvance, rfl⟩ := hreads [] hnesting
  rw [parse_eq, Work.start, hadvance]
  rfl

/-- Tokens that are parsed derive the tree, and they nest within the limit. -/
theorem derives_of_parse (h : Work.start.parse limit source ts = .ok e)
    (hspelled : ∀ t ∈ ts, t.Spelled) : Derives .sum ts e ∧ nesting ts ≤ limit := by
  rw [parse_eq] at h
  cases hadvance : advance limit source .start ts with
  | error f =>
      rw [hadvance] at h
      cases h
  | ok w =>
      rw [hadvance] at h
      have hreads := reads_start.advance hspelled hadvance
      rw [List.nil_append] at hreads
      exact ⟨hreads.finish h, deepest_le_of_advance hadvance (Nat.zero_le limit)⟩

theorem parse_eq_error {f : Failure} (h : Work.start.parse limit source ts = .error f) :
    (∃ c, f = .complaint c) ∨ (f = .nestsTooDeeply ∧ limit < nesting ts) := by
  rw [parse_eq] at h
  cases hadvance : advance limit source .start ts with
  | error f' =>
      rw [hadvance] at h
      obtain rfl := Except.error.inj h
      exact advance_eq_error hadvance
  | ok w =>
      rw [hadvance] at h
      exact .inl (finish_eq_error h)

end Work

variable {limit : Nat} {source : String} {ts : List Token} {e e' : Expr}

/-- A text is parsed as exactly the tree that its tokens derive, within the limit. -/
theorem parseWithin_eq_ok_iff : parseWithin limit source = .ok e ↔
    ∃ ts, Token.scan source = .ok ts ∧ Derives .sum ts e ∧ nesting ts ≤ limit := by
  constructor
  · intro h
    cases hscan : Token.scan source with
    | error c =>
        rw [parseWithin, hscan] at h
        cases h
    | ok ts =>
        by_cases hnil : ts = []
        · rw [parseWithin, hscan, hnil] at h
          cases h
        · rw [parseWithin_eq hscan hnil] at h
          exact ⟨ts, rfl, Work.derives_of_parse h (Token.scan_spelled hscan)⟩
  · rintro ⟨ts, hscan, hderives, hnesting⟩
    rw [parseWithin_eq hscan hderives.ne_nil]
    exact Work.parse_of_derives hderives (Token.scan_spelled hscan) hnesting

/-- The tokens of a text have at most one tree: parsing with room for all of them reads it. -/
theorem derives_unique (hscan : Token.scan source = .ok ts) (h : Derives .sum ts e)
    (h' : Derives .sum ts e') : e = e' := by
  have hparse : parseWithin (nesting ts) source = .ok e :=
    parseWithin_eq_ok_iff.mpr ⟨ts, hscan, h, Nat.le_refl _⟩
  have hparse' : parseWithin (nesting ts) source = .ok e' :=
    parseWithin_eq_ok_iff.mpr ⟨ts, hscan, h', Nat.le_refl _⟩
  exact Except.ok.inj (hparse.symm.trans hparse')

/-- Parsing fails with a complaint, unless parentheses nest beyond the limit. -/
theorem parseWithin_eq_error {f : Failure} (h : parseWithin limit source = .error f) :
    (∃ c, f = .complaint c) ∨
      (f = .nestsTooDeeply ∧ ∃ ts, Token.scan source = .ok ts ∧ limit < nesting ts) := by
  cases hscan : Token.scan source with
  | error c =>
      rw [parseWithin, hscan] at h
      exact .inl ⟨c, (Except.error.inj h).symm⟩
  | ok ts =>
      by_cases hnil : ts = []
      · rw [parseWithin, hscan, hnil] at h
        exact .inl ⟨_, (Except.error.inj h).symm⟩
      · rw [parseWithin_eq hscan hnil] at h
        rcases Work.parse_eq_error h with hcomplaint | ⟨hdeep, hnesting⟩
        · exact .inl hcomplaint
        · exact .inr ⟨hdeep, ts, rfl, hnesting⟩

/-- Main result: parsing gives a tree exactly if the text has tokens that derive it as a sum; the
tree is the only one they derive; and every other text is rejected with a complaint.  The limit
matters only to texts whose parentheses nest beyond it. -/
theorem parse_accepts_grammar (limit : Nat) (source : String) :
    (∀ e, parseWithin limit source = .ok e ↔
      ∃ ts, Token.scan source = .ok ts ∧ Derives .sum ts e ∧ nesting ts ≤ limit) ∧
    (∀ ts e e', Token.scan source = .ok ts → Derives .sum ts e → Derives .sum ts e' → e = e') ∧
    (∀ f, parseWithin limit source = .error f →
      (∃ c, f = .complaint c) ∨
        (f = .nestsTooDeeply ∧ ∃ ts, Token.scan source = .ok ts ∧ limit < nesting ts)) := by
  refine ⟨?_, ?_, ?_⟩
  · intro e
    exact parseWithin_eq_ok_iff
  · intro ts e e' hscan h h'
    exact derives_unique hscan h h'
  · intro f h
    exact parseWithin_eq_error h

/-- Differences are taken from the left, and a minus sign between two numbers is no sign of the
second one. -/
theorem parse_accepts_grammar_differences :
    ∃ x y z, parseWithin nestingLimit "8-2-1" =
      .ok (.binary .subtract (.binary .subtract (.literal x) (.literal y)) (.literal z)) := by
  have hscan : Token.scan "8-2-1" = .ok [⟨.number (.decimal [8] [] 0), ['8'], 0⟩,
      ⟨.operator .subtract, ['-'], 1⟩, ⟨.number (.decimal [2] [] 0), ['2'], 2⟩,
      ⟨.operator .subtract, ['-'], 3⟩, ⟨.number (.decimal [1] [] 0), ['1'], 4⟩] := by
    cbv
  have hspelled := Token.scan_spelled hscan
  simp only [List.forall_mem_cons] at hspelled
  rcases hspelled with ⟨h8, -, h2, -, h1, -⟩
  have hminus : ∀ start, (⟨.operator .subtract, ['-'], start⟩ : Token).lexeme =
      .operator .subtract := fun _ => rfl
  have hleft := Derives.plus (.product (.factor (.number rfl (h8.readText_eq rfl)))) (hminus 1)
    rfl (.factor (.number rfl (h2.readText_eq rfl)))
  have hwhole := hleft.plus (hminus 3) rfl (.factor (.number rfl (h1.readText_eq rfl)))
  exact ⟨_, _, _, ((parse_accepts_grammar nestingLimit "8-2-1").1 _).mpr
    ⟨_, hscan, hwhole, by decide⟩⟩

end Calculator.Expr
