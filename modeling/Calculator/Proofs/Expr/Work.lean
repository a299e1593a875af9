import Calculator.Expr.Parser

/-!
The parser as a machine that takes one token at a time.  Between two tokens it holds the work that
is left undone; a token changes the work or fails, and at the end of the text the work must be a
finished sum outside all parentheses.
-/
namespace Calculator.Expr

/-- What is left undone between two tokens. -/
inductive Work where
  /-- An operand is expected. -/
  | operand (level : Level) (parens : List Paren)
  /-- A number is expected right after a minus sign. -/
  | signed (sign : Token) (level : Level) (parens : List Paren)
  /-- The product `term` has been read, and an operator may follow. -/
  | operator (sum : Waiting) (term : Expr) (parens : List Paren)

namespace Work

variable (limit : Nat) (source : String)

/-- The work that a token leaves. -/
def next : Work → Token → Except Failure Work
  | .operand level parens, t =>
    match t.lexeme with
    | .number numeral =>
      .ok (.operator level.sum (level.term (.literal (numeral.value false))) parens)
    | .operator .subtract => .ok (.signed t level parens)
    | .opening =>
      if limit ≤ parens.length then .error .nestsTooDeeply
      else .ok (.operand .start (⟨t.start, level⟩ :: parens))
    | _ => .error (.complaint (.unexpectedToken source t.text t.start))
  | .signed sign level parens, t =>
    match t.lexeme with
    | .number numeral =>
      if t.start == sign.stop then
        .ok (.operator level.sum (level.term (.literal (numeral.value true))) parens)
      else .error (.complaint (.loneSign source sign.start))
    | _ => .error (.complaint (.loneSign source sign.start))
  | .operator sum term parens, t =>
    match t.lexeme, parens with
    | .operator op, parens => .ok (.operand (.after sum term op) parens)
    | .closing, p :: parens =>
      .ok (.operator p.level.sum (p.level.term (joined sum term)) parens)
    | .closing, [] => .error (.complaint (.mismatchedParenthesis source t.start))
    | _, parens =>
      .error (.complaint
        ((unclosed source parens).getD (.unexpectedToken source t.text t.start)))

/-- The tree that the work gives at the end of the text. -/
def finish : Work → Except Failure Expr
  | .operand _ _ => .error (.complaint (.endsUnexpectedly source))
  | .signed _ _ _ => .error (.complaint (.endsUnexpectedly source))
  | .operator sum term parens =>
    match unclosed source parens with
    | none => .ok (joined sum term)
    | some c => .error (.complaint c)

/-- The work that tokens leave. -/
def advance : Work → List Token → Except Failure Work
  | w, [] => .ok w
  | w, t :: ts =>
    match next limit source w t with
    | .ok w' => advance w' ts
    | .error f => .error f

/-- The tree that the parser builds from the rest of the tokens. -/
def parse : Work → List Token → Except Failure Expr
  | .operand level parens, ts => parseOperand limit source level parens ts
  | .signed sign level parens, ts => parseSigned limit source sign level parens ts
  | .operator sum term parens, ts => parseOperator limit source sum term parens ts

variable {limit : Nat} {source : String} {w w' : Work} {t : Token} {ts us : List Token}
  {f : Failure}

theorem advance_cons_of_ok (h : next limit source w t = .ok w') :
    advance limit source w (t :: ts) = advance limit source w' ts := by
  rw [advance, h]

theorem advance_cons_of_error (h : next limit source w t = .error f) :
    advance limit source w (t :: ts) = .error f := by
  rw [advance, h]

theorem advance_singleton : advance limit source w [t] = next limit source w t := by
  rw [advance]
  cases next limit source w t with
  | ok w' => rfl
  | error f => rfl

/-- Where tokens are read, each of them is read. -/
theorem advance_cons_eq_ok (h : advance limit source w (t :: ts) = .ok w') :
    ∃ v, next limit source w t = .ok v ∧ advance limit source v ts = .ok w' := by
  cases hnext : next limit source w t with
  | ok v =>
      rw [advance_cons_of_ok hnext] at h
      exact ⟨v, rfl, h⟩
  | error f =>
      rw [advance_cons_of_error hnext] at h
      cases h

theorem advance_append (h : advance limit source w ts = .ok w') :
    advance limit source w (ts ++ us) = advance limit source w' us := by
  induction ts generalizing w with
  | nil =>
      obtain rfl := Except.ok.inj h
      rfl
  | cons t ts ih =>
      obtain ⟨v, hnext, htail⟩ := advance_cons_eq_ok h
      rw [List.cons_append, advance_cons_of_ok hnext]
      exact ih htail

theorem parse_nil : parse limit source w [] = finish source w := by
  cases w with
  | operand level parens => rfl
  | signed sign level parens => rfl
  | operator sum term parens => rfl

theorem parse_cons : parse limit source w (t :: ts) =
    match next limit source w t with
    | .ok w' => parse limit source w' ts
    | .error f => .error f := by
  obtain ⟨lexeme, chars, start⟩ := t
  cases w with
  | operand level parens =>
      cases lexeme with
      | number numeral => rfl
      | operator op =>
          cases op with
          | subtract => rfl
          | add => rfl
          | multiply => rfl
          | divide => rfl
      | opening =>
          rw [parse, parseOperand, next]
          by_cases hdeep : limit ≤ parens.length
          · simp only [if_pos hdeep]
          · simp only [if_neg hdeep]
            rfl
      | closing => rfl
  | signed sign level parens =>
      cases lexeme with
      | number numeral =>
          rw [parse, parseSigned, next]
          by_cases hnext : (start == sign.stop) = true
          · simp only [if_pos hnext]
            rfl
          · simp only [if_neg hnext]
      | operator op => rfl
      | opening => rfl
      | closing => rfl
  | operator sum term parens =>
      cases lexeme with
      | number numeral => rfl
      | operator op => rfl
      | opening => rfl
      | closing =>
          cases parens with
          | nil => rfl
          | cons p parens => rfl

/-- Parsing is advancing over all the tokens and finishing. -/
theorem parse_eq : parse limit source w ts =
    match advance limit source w ts with
    | .ok w' => finish source w'
    | .error f => .error f := by
  induction ts generalizing w with
  | nil => exact parse_nil
  | cons t ts ih =>
      rw [parse_cons]
      cases hnext : next limit source w t with
      | ok w' =>
          rw [advance_cons_of_ok hnext]
          exact ih
      | error f => rw [advance_cons_of_error hnext]

/-! ### What one token can do -/

/-- A token that changes the work, whatever the text. -/
inductive Step (limit : Nat) : Work → Token → Work → Prop where
  | number {level : Level} {parens : List Paren} {t : Token} {numeral : Numeral}
      (hlexeme : t.lexeme = .number numeral) :
      Step limit (.operand level parens) t
        (.operator level.sum (level.term (.literal (numeral.value false))) parens)
  | sign {level : Level} {parens : List Paren} {t : Token}
      (hlexeme : t.lexeme = .operator .subtract) :
      Step limit (.operand level parens) t (.signed t level parens)
  | opening {level : Level} {parens : List Paren} {t : Token} (hlexeme : t.lexeme = .opening)
      (hroom : parens.length < limit) :
      Step limit (.operand level parens) t (.operand .start (⟨t.start, level⟩ :: parens))
  | negative {level : Level} {parens : List Paren} {sign t : Token} {numeral : Numeral}
      (hlexeme : t.lexeme = .number numeral) (hnext : t.start = sign.stop) :
      Step limit (.signed sign level parens) t
        (.operator level.sum (level.term (.literal (numeral.value true))) parens)
  | operator {sum : Waiting} {term : Expr} {parens : List Paren} {t : Token} {op : Operator}
      (hlexeme : t.lexeme = .operator op) :
      Step limit (.operator sum term parens) t (.operand (.after sum term op) parens)
  | closing {sum : Waiting} {term : Expr} {p : Paren} {parens : List Paren} {t : Token}
      (hlexeme : t.lexeme = .closing) :
      Step limit (.operator sum term (p :: parens)) t
        (.operator p.level.sum (p.level.term (joined sum term)) parens)

theorem next_eq_ok_of_step (h : Step limit w t w') : next limit source w t = .ok w' := by
  cases h with
  | number hlexeme => simp only [next, hlexeme]
  | sign hlexeme => simp only [next, hlexeme]
  | opening hlexeme hroom => simp only [next, hlexeme, if_neg (Nat.not_le.mpr hroom)]
  | negative hlexeme hnext => simp only [next, hlexeme, hnext, beq_self_eq_true, ↓reduceIte]
  | operator hlexeme => simp only [next, hlexeme]
  | closing hlexeme => simp only [next, hlexeme]

/-- A token is a step, is complained about, or would open one parenthesis too many. -/
theorem next_cases (limit : Nat) (source : String) (w : Work) (t : Token) :
    (∃ w', next limit source w t = .ok w' ∧ Step limit w t w') ∨
      (∃ c, next limit source w t = .error (.complaint c)) ∨
      (next limit source w t = .error .nestsTooDeeply ∧ t.lexeme = .opening ∧
        ∃ level parens, w = .operand level parens ∧ limit ≤ parens.length) := by
  obtain ⟨lexeme, chars, start⟩ := t
  cases w with
  | operand level parens =>
      cases lexeme with
      | number numeral => exact .inl ⟨_, rfl, .number rfl⟩
      | operator op =>
          cases op with
          | subtract => exact .inl ⟨_, rfl, .sign rfl⟩
          | add => exact .inr (.inl ⟨_, rfl⟩)
          | multiply => exact .inr (.inl ⟨_, rfl⟩)
          | divide => exact .inr (.inl ⟨_, rfl⟩)
      | opening =>
          by_cases hdeep : limit ≤ parens.length
          · refine .inr (.inr ⟨?_, rfl, level, parens, rfl, hdeep⟩)
            simp only [next, if_pos hdeep]
          · refine .inl ⟨_, ?_, .opening rfl (Nat.not_le.mp hdeep)⟩
            simp only [next, if_neg hdeep]
      | closing => exact .inr (.inl ⟨_, rfl⟩)
  | signed sign level parens =>
      cases lexeme with
      | number numeral =>
          by_cases hnext : (start == sign.stop) = true
          · refine .inl ⟨_, ?_, .negative rfl (eq_of_beq hnext)⟩
            simp only [next, if_pos hnext]
          · refine .inr (.inl ⟨.loneSign source sign.start, ?_⟩)
            simp only [next, if_neg hnext]
      | operator op => exact .inr (.inl ⟨_, rfl⟩)
      | opening => exact .inr (.inl ⟨_, rfl⟩)
      | closing => exact .inr (.inl ⟨_, rfl⟩)
  | operator sum term parens =>
      cases lexeme with
      | number numeral => exact .inr (.inl ⟨_, rfl⟩)
      | operator op => exact .inl ⟨_, rfl, .operator rfl⟩
      | opening => exact .inr (.inl ⟨_, rfl⟩)
      | closing =>
          cases parens with
          | nil => exact .inr (.inl ⟨_, rfl⟩)
          | cons p parens => exact .inl ⟨_, rfl, .closing rfl⟩

theorem step_of_next_eq_ok (h : next limit source w t = .ok w') : Step limit w t w' := by
  rcases next_cases limit source w t with ⟨v, hok, hstep⟩ | ⟨c, herror⟩ | ⟨herror, -⟩
  · obtain rfl := Except.ok.inj (h.symm.trans hok)
    exact hstep
  · rw [herror] at h
    cases h
  · rw [herror] at h
    cases h

/-- A token fails with a complaint, unless it would open one parenthesis too many. -/
theorem next_eq_error (h : next limit source w t = .error f) :
    (∃ c, f = .complaint c) ∨
      (f = .nestsTooDeeply ∧ t.lexeme = .opening ∧
        ∃ level parens, w = .operand level parens ∧ limit ≤ parens.length) := by
  rcases next_cases limit source w t with ⟨v, hok, -⟩ | ⟨c, herror⟩ | ⟨herror, hopening⟩
  · rw [hok] at h
    cases h
  · exact .inl ⟨c, Except.error.inj (h.symm.trans herror)⟩
  · exact .inr ⟨Except.error.inj (h.symm.trans herror), hopening⟩

theorem finish_eq_error (h : finish source w = .error f) : ∃ c, f = .complaint c := by
  cases w with
  | operand level parens => exact ⟨_, (Except.error.inj h).symm⟩
  | signed sign level parens => exact ⟨_, (Except.error.inj h).symm⟩
  | operator sum term parens =>
      cases parens with
      | nil => cases h
      | cons p parens => exact ⟨_, (Except.error.inj h).symm⟩

/-- Only a finished sum outside all parentheses gives a tree. -/
theorem finish_eq_ok {e : Expr} (h : finish source w = .ok e) :
    ∃ sum term, w = .operator sum term [] ∧ e = joined sum term := by
  cases w with
  | operand level parens => cases h
  | signed sign level parens => cases h
  | operator sum term parens =>
      cases parens with
      | nil => exact ⟨sum, term, rfl, (Except.ok.inj h).symm⟩
      | cons p parens => cases h

end Work

/-- The work before the first token. -/
def Work.start : Work :=
  .operand .start []

/-- A text with tokens is parsed by the machine from its start; a text without is no expression. -/
theorem parseWithin_eq {limit : Nat} {source : String} {ts : List Token}
    (h : Token.scan source = .ok ts) (hne : ts ≠ []) :
    parseWithin limit source = Work.start.parse limit source ts := by
  rw [parseWithin, h]
  cases ts with
  | nil => exact absurd rfl hne
  | cons t ts => rfl

end Calculator.Expr
