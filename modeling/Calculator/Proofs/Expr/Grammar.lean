import Calculator.Proofs.Expr.Work
import Calculator.Proofs.Token.Spelled

/-!
The grammar of expressions, which gives every derivation its tree, and how deep parentheses nest.
The parser goes no deeper than its limit, and only beyond the limit does it fail without a
complaint.
-/
namespace Calculator.Expr

/-- What a part of an expression may be. -/
inductive Rank where
  | sum
  | product
  | factor
  deriving DecidableEq

/-- The tokens are an expression of the rank, and `e` is its tree. -/
inductive Derives : Rank → List Token → Expr → Prop where
  | number {t : Token} {numeral : Numeral} {x : Float} (hlexeme : t.lexeme = .number numeral)
      (htext : Numeral.readText t.text = some x) : Derives .factor [t] (.literal x)
  | negative {sign t : Token} {numeral : Numeral} {x : Float}
      (hsign : sign.lexeme = .operator .subtract) (hlexeme : t.lexeme = .number numeral)
      (hnext : t.start = sign.stop) (htext : Numeral.readText t.text = some x) :
      Derives .factor [sign, t] (.literal (-x))
  | group {left right : Token} {ts : List Token} {e : Expr} (hleft : left.lexeme = .opening)
      (hinner : Derives .sum ts e) (hright : right.lexeme = .closing) :
      Derives .factor (left :: (ts ++ [right])) e
  | factor {ts : List Token} {e : Expr} (hfactor : Derives .factor ts e) : Derives .product ts e
  | times {ts us : List Token} {t : Token} {op : Operator} {l r : Expr}
      (hleft : Derives .product ts l) (hop : t.lexeme = .operator op)
      (hrank : op.isAdditive = false) (hright : Derives .factor us r) :
      Derives .product (ts ++ t :: us) (.binary op l r)
  | product {ts : List Token} {e : Expr} (hproduct : Derives .product ts e) : Derives .sum ts e
  | plus {ts us : List Token} {t : Token} {op : Operator} {l r : Expr}
      (hleft : Derives .sum ts l) (hop : t.lexeme = .operator op) (hrank : op.isAdditive = true)
      (hright : Derives .product us r) : Derives .sum (ts ++ t :: us) (.binary op l r)

/-- Number of parentheses open after a token, if `depth` are open before it. -/
def openAfter (depth : Nat) (t : Token) : Nat :=
  match t.lexeme with
  | .opening => depth + 1
  | .closing => depth - 1
  | _ => depth

/-- Greatest number of parentheses open at a time, if `depth` are open at first. -/
def deepest (depth : Nat) : List Token → Nat
  | [] => depth
  | t :: ts => max depth (deepest (openAfter depth t) ts)

/-- How deep the parentheses among tokens nest. -/
def nesting (ts : List Token) : Nat :=
  deepest 0 ts

theorem deepest_cons_le {depth limit : Nat} {t : Token} {ts : List Token} :
    deepest depth (t :: ts) ≤ limit ↔
      depth ≤ limit ∧ deepest (openAfter depth t) ts ≤ limit := by
  rw [deepest]
  exact Nat.max_le

theorem le_deepest (depth : Nat) (ts : List Token) : depth ≤ deepest depth ts := by
  cases ts with
  | nil => exact Nat.le_refl depth
  | cons t ts => exact Nat.le_max_left _ _

theorem deepest_append_le {depth limit : Nat} {ts us : List Token} :
    deepest depth (ts ++ us) ≤ limit ↔
      deepest depth ts ≤ limit ∧ deepest (ts.foldl openAfter depth) us ≤ limit := by
  induction ts generalizing depth with
  | nil =>
      constructor
      · intro h
        exact ⟨Nat.le_trans (le_deepest depth us) h, h⟩
      · intro h
        exact h.2
  | cons t ts ih =>
      rw [List.cons_append, deepest_cons_le, deepest_cons_le, ih, List.foldl_cons, and_assoc]

theorem Derives.ne_nil {rank : Rank} {ts : List Token} {e : Expr} (h : Derives rank ts e) :
    ts ≠ [] := by
  induction h with
  | number hlexeme htext => simp
  | negative hsign hlexeme hnext htext => simp
  | group hleft hinner hright ih => simp
  | factor hfactor ih => exact ih
  | times hleft hop hrank hright ihleft ihright => simp
  | product hproduct ih => exact ih
  | plus hleft hop hrank hright ihleft ihright => simp

/-- A derived part of an expression closes every parenthesis that it opens. -/
theorem Derives.balanced {rank : Rank} {ts : List Token} {e : Expr} (h : Derives rank ts e)
    (depth : Nat) : ts.foldl openAfter depth = depth := by
  induction h generalizing depth with
  | number hlexeme htext => simp only [List.foldl_cons, List.foldl_nil, openAfter, hlexeme]
  | negative hsign hlexeme hnext htext =>
      simp only [List.foldl_cons, List.foldl_nil, openAfter, hsign, hlexeme]
  | group hleft hinner hright ih =>
      simp only [List.foldl_cons, List.foldl_append, List.foldl_nil, openAfter, hleft, hright, ih,
        Nat.add_sub_cancel]
  | factor hfactor ih => exact ih depth
  | times hleft hop hrank hright ihleft ihright =>
      simp only [List.foldl_append, List.foldl_cons, ihleft, openAfter, hop, ihright]
  | product hproduct ih => exact ih depth
  | plus hleft hop hrank hright ihleft ihright =>
      simp only [List.foldl_append, List.foldl_cons, ihleft, openAfter, hop, ihright]

namespace Work

variable {limit : Nat} {source : String} {w w' : Work} {t : Token} {ts us vs : List Token}
  {e : Expr} {f : Failure}

/-- Number of open parentheses. -/
def depth : Work → Nat
  | .operand _ parens => parens.length
  | .signed _ _ parens => parens.length
  | .operator _ _ parens => parens.length

theorem Step.depth_eq (h : Step limit w t w') : w'.depth = openAfter w.depth t := by
  cases h with
  | number hlexeme => simp only [depth, openAfter, hlexeme]
  | sign hlexeme => simp only [depth, openAfter, hlexeme]
  | opening hlexeme hroom => simp only [depth, openAfter, hlexeme, List.length_cons]
  | negative hlexeme hnext => simp only [depth, openAfter, hlexeme]
  | operator hlexeme => simp only [depth, openAfter, hlexeme]
  | closing hlexeme =>
      simp only [depth, openAfter, hlexeme, List.length_cons, Nat.add_sub_cancel]

theorem Step.depth_le (h : Step limit w t w') (hdepth : w.depth ≤ limit) : w'.depth ≤ limit := by
  cases h with
  | opening hlexeme hroom => exact hroom
  | number hlexeme => exact hdepth
  | sign hlexeme => exact hdepth
  | negative hlexeme hnext => exact hdepth
  | operator hlexeme => exact hdepth
  | closing hlexeme => exact Nat.le_of_succ_le hdepth

theorem depth_eq_of_advance (h : advance limit source w ts = .ok w') :
    w'.depth = ts.foldl openAfter w.depth := by
  induction ts generalizing w with
  | nil =>
      obtain rfl := Except.ok.inj h
      rfl
  | cons t ts ih =>
      obtain ⟨v, hnext, htail⟩ := advance_cons_eq_ok h
      rw [List.foldl_cons, ← (step_of_next_eq_ok hnext).depth_eq]
      exact ih htail

/-- The parser reads to the end only tokens that nest within the limit. -/
theorem deepest_le_of_advance (h : advance limit source w ts = .ok w')
    (hdepth : w.depth ≤ limit) : deepest w.depth ts ≤ limit := by
  induction ts generalizing w with
  | nil => exact hdepth
  | cons t ts ih =>
      obtain ⟨v, hnext, htail⟩ := advance_cons_eq_ok h
      have hstep := step_of_next_eq_ok hnext
      have hdeepest := ih htail (hstep.depth_le hdepth)
      rw [hstep.depth_eq] at hdeepest
      exact deepest_cons_le.mpr ⟨hdepth, hdeepest⟩

/-- A failure is a complaint, or the tokens nest beyond the limit. -/
theorem advance_eq_error (h : advance limit source w ts = .error f) :
    (∃ c, f = .complaint c) ∨ (f = .nestsTooDeeply ∧ limit < deepest w.depth ts) := by
  induction ts generalizing w with
  | nil => cases h
  | cons t ts ih =>
      cases hnext : next limit source w t with
      | ok w' =>
          rw [advance_cons_of_ok hnext] at h
          rcases ih h with hcomplaint | ⟨hdeep, hlimit⟩
          · exact .inl hcomplaint
          · rw [(step_of_next_eq_ok hnext).depth_eq] at hlimit
            exact .inr ⟨hdeep, Nat.lt_of_lt_of_le hlimit (Nat.le_max_right _ _)⟩
      | error f' =>
          rw [advance_cons_of_error hnext] at h
          obtain rfl := Except.error.inj h
          rcases next_eq_error hnext with hcomplaint | ⟨hdeep, hopening, level, parens, rfl, hfull⟩
          · exact .inl hcomplaint
          · have hafter : limit < openAfter (Work.operand level parens).depth t := by
              simp only [openAfter, hopening, depth]
              omega
            have htail := le_deepest (openAfter (Work.operand level parens).depth t) ts
            refine .inr ⟨hdeep, Nat.lt_of_lt_of_le hafter ?_⟩
            exact Nat.le_trans htail (Nat.le_max_right _ _)

end Work

end Calculator.Expr
