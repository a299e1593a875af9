import Calculator.Proofs.Expr.Parsing

/-!
How far an expression can be read.  The parser keeps only tokens with which some expression begins:
whatever work is left undone, an operand and closing parentheses would finish it.  And it refuses no
token that could go on, so the first token that it refuses is the first that does not fit.
-/
namespace Calculator.Expr

variable {limit limit' : Nat} {source source' : String} {ts us vs : List Token} {t : Token}
  {e : Expr} {c : Complaint}

/-- Some expression begins with the tokens. -/
def Begins (ts : List Token) : Prop :=
  ∃ us e, (∀ t ∈ ts ++ us, t.Spelled) ∧ Derives .sum (ts ++ us) e

theorem Begins.spelled (h : Begins ts) : ∀ t ∈ ts, t.Spelled := by
  obtain ⟨us, e, hspelled, -⟩ := h
  exact (List.forall_mem_append.mp hspelled).1

/-- An expression that begins with tokens begins with the first of them. -/
theorem Begins.of_append (h : Begins (ts ++ us)) : Begins ts := by
  obtain ⟨vs, e, hspelled, hderives⟩ := h
  rw [List.append_assoc] at hspelled hderives
  exact ⟨us ++ vs, e, hspelled, hderives⟩

theorem Derives.begins (h : Derives .sum ts e) (hspelled : ∀ t ∈ ts, t.Spelled) : Begins ts := by
  refine ⟨[], e, ?_, ?_⟩
  · rwa [List.append_nil]
  · rwa [List.append_nil]

namespace Work

variable {w w' v : Work}

/-! ### Steps and the limit -/

/-- A step opens a parenthesis only within the limit, and else does not depend on it. -/
theorem Step.of_depth_le (h : Step limit w t w') (hdepth : w'.depth ≤ limit') :
    Step limit' w t w' := by
  cases h with
  | number hlexeme => exact .number hlexeme
  | sign hlexeme => exact .sign hlexeme
  | opening hlexeme hroom => exact .opening hlexeme hdepth
  | negative hlexeme hnext => exact .negative hlexeme hnext
  | operator hlexeme => exact .operator hlexeme
  | closing hlexeme => exact .closing hlexeme

/-- Tokens that are read within one limit are read alike within another one that they nest within,
and as the tokens of any text. -/
theorem advance_of_deepest_le (h : advance limit source w ts = .ok w')
    (hdeepest : deepest w.depth ts ≤ limit') : advance limit' source' w ts = .ok w' := by
  induction ts generalizing w with
  | nil => exact h
  | cons t ts ih =>
      obtain ⟨v, hnext, htail⟩ := advance_cons_eq_ok h
      have hstep := step_of_next_eq_ok hnext
      have hrest := (deepest_cons_le.mp hdeepest).2
      rw [← hstep.depth_eq] at hrest
      have hdepth : v.depth ≤ limit' := Nat.le_trans (le_deepest _ _) hrest
      rw [advance_cons_of_ok (next_eq_ok_of_step (hstep.of_depth_le hdepth))]
      exact ih htail hrest

/-- Where tokens are read, the first of them are read, and then the rest. -/
theorem exists_advance_append (h : advance limit source w (ts ++ us) = .ok w') :
    ∃ v, advance limit source w ts = .ok v ∧ advance limit source v us = .ok w' := by
  induction ts generalizing w with
  | nil => exact ⟨w, rfl, h⟩
  | cons t ts ih =>
      obtain ⟨v, hnext, htail⟩ := advance_cons_eq_ok h
      rw [advance_cons_of_ok hnext]
      exact ih htail

/-- Where tokens are not all read, one of them is refused. -/
theorem exists_of_advance_error {f : Failure} (h : advance limit source w ts = .error f) :
    ∃ us t vs v, ts = us ++ t :: vs ∧ advance limit source w us = .ok v ∧
      next limit source v t = .error f := by
  induction ts generalizing w with
  | nil => cases h
  | cons t ts ih =>
      cases hnext : next limit source w t with
      | error f' =>
          rw [advance_cons_of_error hnext] at h
          obtain rfl := Except.error.inj h
          exact ⟨[], t, ts, w, rfl, rfl, hnext⟩
      | ok w' =>
          rw [advance_cons_of_ok hnext] at h
          obtain ⟨us, t', vs, v, rfl, hadvance, hrefused⟩ := ih h
          exact ⟨t :: us, t', vs, v, rfl, (advance_cons_of_ok hnext).trans hadvance, hrefused⟩

/-- What is complained of is no step within any limit. -/
theorem not_step_of_complaint (h : next limit source w t = .error (.complaint c)) :
    ¬ Step limit' w t w' := by
  intro hstep
  cases hstep with
  | number hlexeme => simp only [next, hlexeme, reduceCtorEq] at h
  | sign hlexeme => simp only [next, hlexeme, reduceCtorEq] at h
  | opening hlexeme hroom =>
      simp only [next, hlexeme] at h
      split at h <;> cases h
  | negative hlexeme hnext =>
      simp only [next, hlexeme, hnext, beq_self_eq_true, ↓reduceIte, reduceCtorEq] at h
  | operator hlexeme => simp only [next, hlexeme, reduceCtorEq] at h
  | closing hlexeme => simp only [next, hlexeme, reduceCtorEq] at h

/-! ### What is read begins an expression -/

/-- A number at a column. -/
def operandToken (start : Nat) : Token :=
  ⟨.number .infinity, ['i', 'n', 'f'], start⟩

theorem spelled_operandToken (start : Nat) : (operandToken start).Spelled :=
  .number .infinity

theorem forall_spelled_concat (hspelled : ∀ t ∈ ts, t.Spelled) (ht : t.Spelled) :
    ∀ t' ∈ ts ++ [t], t'.Spelled :=
  List.forall_mem_append.mpr ⟨hspelled, List.forall_mem_singleton.mpr ht⟩

/-- With a product read, closing the open parentheses makes an expression. -/
theorem Reads.begins_of_operator {sum : Waiting} {term : Expr} {parens : List Paren}
    (h : Reads (.operator sum term parens) ts) (hspelled : ∀ t ∈ ts, t.Spelled) : Begins ts := by
  induction parens generalizing sum term ts with
  | nil =>
      have hfinish : Work.finish "" (.operator sum term []) = .ok (joined sum term) := rfl
      exact (h.finish hfinish).begins hspelled
  | cons p parens ih =>
      have hclosing : Token.Spelled ⟨.closing, [')'], 0⟩ := .closing
      have hstep : Step 0 (.operator sum term (p :: parens)) ⟨.closing, [')'], 0⟩ _ := .closing rfl
      have hclosed := h.step hclosing hstep
      exact (ih hclosed (forall_spelled_concat hspelled hclosing)).of_append

/-- Whatever has been read, an expression begins with it. -/
theorem Reads.begins (h : Reads w ts) (hspelled : ∀ t ∈ ts, t.Spelled) : Begins ts := by
  cases w with
  | operand level parens =>
      have hnumber := spelled_operandToken 0
      have hstep : Step 0 (.operand level parens) (operandToken 0) _ := .number rfl
      have hread := h.step hnumber hstep
      exact (hread.begins_of_operator (forall_spelled_concat hspelled hnumber)).of_append
  | signed sign level parens =>
      have hnumber := spelled_operandToken sign.stop
      have hstep : Step 0 (.signed sign level parens) (operandToken sign.stop) _ :=
        .negative rfl rfl
      have hread := h.step hnumber hstep
      exact (hread.begins_of_operator (forall_spelled_concat hspelled hnumber)).of_append
  | operator sum term parens => exact h.begins_of_operator hspelled

/-! ### What begins an expression is read -/

/-- The tokens that an expression begins with are read, with room for their parentheses. -/
theorem exists_advance_of_begins (h : Begins ts) (source : String) (hlimit : nesting ts ≤ limit) :
    ∃ w, advance limit source .start ts = .ok w := by
  obtain ⟨us, e, hspelled, hderives⟩ := h
  have hparse : Work.start.parse (nesting (ts ++ us)) source (ts ++ us) = .ok e :=
    parse_of_derives hderives hspelled (Nat.le_refl _)
  rw [parse_eq] at hparse
  cases hadvance : advance (nesting (ts ++ us)) source .start (ts ++ us) with
  | error f =>
      rw [hadvance] at hparse
      cases hparse
  | ok w =>
      obtain ⟨v, hfront, -⟩ := exists_advance_append hadvance
      exact ⟨v, advance_of_deepest_le hfront hlimit⟩

/-- With a token that fits behind tokens that were read, the parser goes on. -/
theorem exists_step_of_begins (h : advance limit source .start ts = .ok w)
    (hbegins : Begins (ts ++ [t])) : ∃ limit' w', Step limit' w t w' := by
  obtain ⟨w', hadvance⟩ := exists_advance_of_begins hbegins source (Nat.le_refl _)
  obtain ⟨v, hfront, hlast⟩ := exists_advance_append hadvance
  rw [advance_singleton] at hlast
  -- the limit does not matter to what the first tokens leave
  have hdeepest : deepest Work.start.depth ts ≤ limit := deepest_le_of_advance h (Nat.zero_le _)
  have hsame : advance limit source .start ts = .ok v := advance_of_deepest_le hfront hdeepest
  obtain rfl := Except.ok.inj (hsame.symm.trans h)
  exact ⟨_, w', step_of_next_eq_ok hlast⟩

/-- A token that is complained of does not fit: with it no expression begins. -/
theorem not_begins_of_complaint (h : advance limit source .start ts = .ok w)
    (hnext : next limit source w t = .error (.complaint c)) : ¬ Begins (ts ++ [t]) := by
  intro hbegins
  obtain ⟨limit', w', hstep⟩ := exists_step_of_begins h hbegins
  exact not_step_of_complaint hnext hstep

end Work

end Calculator.Expr
