import Calculator.Proofs.Expr.Begun
import Calculator.Proofs.Expr.Blame

/-!
When parentheses are blamed.  The parser complains of a parenthesis that closes behind a whole
expression, and of one that is open where the text ends; both really lack a partner.  It also
complains of an open parenthesis when an operand stands right behind a whole expression inside it,
as in `(1 2)`, where nothing is wrong with the parentheses.  Apart from such texts, one whose
parentheses balance is rejected for a token that does not fit.
-/
namespace Calculator.Expr

open Token (Cut)

variable {limit : Nat} {source : String} {ts us vs read : List Token} {t p : Token} {e : Expr}
  {c : Complaint}

/-- There are as many parentheses of both kinds, and nowhere have more been closed than opened. -/
structure Balanced (ts : List Token) : Prop where
  count_eq : ts.countP (·.lexeme = .closing) = ts.countP (·.lexeme = .opening)
  count_le : ∀ us, us <+: ts →
    us.countP (·.lexeme = .closing) ≤ us.countP (·.lexeme = .opening)

theorem balanced_iff : Balanced ts ↔
    ts.countP (·.lexeme = .closing) = ts.countP (·.lexeme = .opening) ∧
      ∀ us ∈ ts.inits, us.countP (·.lexeme = .closing) ≤ us.countP (·.lexeme = .opening) := by
  simp only [List.mem_inits]
  exact ⟨fun h => ⟨h.count_eq, h.count_le⟩, fun h => ⟨h.1, h.2⟩⟩

instance : Decidable (Balanced ts) :=
  decidable_of_iff _ balanced_iff.symm

/-- The parenthesis closes behind a whole expression, where none is open. -/
inductive Stray : List Token → Token → Prop where
  | mk {us vs : List Token} {p : Token} {e : Expr} (hbefore : Derives .sum us e)
      (hlexeme : p.lexeme = .closing) : Stray (us ++ p :: vs) p

/-- The parenthesis opens where an operand may stand, and the text ends with the expression that
follows it. -/
inductive Unclosed : List Token → Token → Prop where
  | mk {us vs : List Token} {p : Token} {e : Expr} (hbefore : Begins (us ++ [p]))
      (hlexeme : p.lexeme = .opening) (hinside : Derives .sum vs e) :
      Unclosed (us ++ [p] ++ vs) p

/-- The parenthesis opens where an operand may stand, and right behind the expression that follows
it, with which the tokens `read` end, there is a number or a parenthesis that opens. -/
inductive Juxtaposed : List Token → List Token → Token → Prop where
  | mk {us vs ws : List Token} {p t : Token} {e : Expr} (hbefore : Begins (us ++ [p]))
      (hlexeme : p.lexeme = .opening) (hinside : Derives .sum vs e)
      (hoperand : (∃ numeral, t.lexeme = .number numeral) ∨ t.lexeme = .opening) :
      Juxtaposed (us ++ [p] ++ vs ++ t :: ws) (us ++ [p] ++ vs) p

/-- The token does not fit, and the complaint is about this. -/
inductive Misfit (source : String) : List Token → Token → Complaint → Prop where
  | unexpected {us vs : List Token} {t : Token} (hbefore : Begins us)
      (hnot : ¬ Begins (us ++ [t])) :
      Misfit source (us ++ t :: vs) t (.unexpectedToken source t.text t.start)
  /-- A minus sign behind which only a number fits, and nothing may come between; another token
  follows it. -/
  | sign {us vs : List Token} {sign t : Token} (hlexeme : sign.lexeme = .operator .subtract)
      (hbefore : Begins (us ++ [sign]))
      (honly : ∀ t, Begins (us ++ [sign] ++ [t]) →
        (∃ numeral, t.lexeme = .number numeral) ∧ t.start = sign.stop)
      (hnot : ¬ Begins (us ++ [sign] ++ [t])) :
      Misfit source (us ++ [sign] ++ t :: vs) sign (.loneSign source sign.start)
  /-- The last token, behind which something is missing. -/
  | ending {us : List Token} {t : Token} (hlexeme : ∀ numeral, t.lexeme ≠ .number numeral)
      (hbefore : Begins (us ++ [t])) (hnot : ∀ e, ¬ Derives .sum (us ++ [t]) e) :
      Misfit source (us ++ [t]) t (.endsUnexpectedly source)

/-- What is complained of in tokens that are no expression. -/
inductive Fault (limit : Nat) (source : String) (ts : List Token) : Complaint → Prop where
  | stray {p : Token} (h : Stray ts p) :
      Fault limit source ts (.mismatchedParenthesis source p.start)
  | unclosed {p : Token} (h : Unclosed ts p) :
      Fault limit source ts (.mismatchedParenthesis source p.start)
  | juxtaposed {read : List Token} {p : Token} (h : Juxtaposed ts read p)
      (hlimit : nesting read ≤ limit) :
      Fault limit source ts (.mismatchedParenthesis source p.start)
  | misfit {t : Token} {c : Complaint} (h : Misfit source ts t c) : Fault limit source ts c

/-! ### What the parser complains of -/

namespace Work

variable {w w' : Work}

/-- The innermost open parenthesis, and the expression that has been read inside it. -/
theorem Reads.exists_inside {sum : Waiting} {term : Expr} {parens : List Paren} {paren : Paren}
    (h : Reads (.operator sum term (paren :: parens)) ts) (hspelled : ∀ t ∈ ts, t.Spelled) :
    ∃ us p vs, ts = us ++ [p] ++ vs ∧ Begins (us ++ [p]) ∧ p.lexeme = .opening ∧
      p.start = paren.start ∧ Derives .sum vs (joined sum term) := by
  cases h with
  | operator houter hsum hterm =>
      rw [List.append_assoc] at hspelled ⊢
      have hread := Reads.operand houter levelReads_start
      rw [List.append_nil] at hread
      have hbegins := hread.begins (List.forall_mem_append.mp hspelled).1
      cases houter with
      | cons houter hlevel hlexeme =>
          exact ⟨_, _, _, rfl, hbegins, hlexeme, rfl, hsum.joined_sum hterm⟩

/-- A token is refused because it does not fit, or a parenthesis is blamed. -/
theorem fault_of_next (hspelled : ∀ t ∈ us, t.Spelled)
    (hadvance : advance limit source .start us = .ok w)
    (hnext : next limit source w t = .error (.complaint c)) :
    Fault limit source (us ++ t :: vs) c := by
  have hreads := reads_start.advance hspelled hadvance
  rw [List.nil_append] at hreads
  have hbegins := hreads.begins hspelled
  have hnot := not_begins_of_complaint hadvance hnext
  cases w with
  | operand level parens =>
      simp only [next] at hnext
      split at hnext
      · cases hnext
      · cases hnext
      · split at hnext <;> cases hnext
      · obtain rfl := Failure.complaint.inj (Except.error.inj hnext)
        exact .misfit (.unexpected hbegins hnot)
  | signed sign level parens =>
      obtain rfl : c = .loneSign source sign.start := by
        simp only [next] at hnext
        split at hnext
        · split at hnext
          · cases hnext
          · exact (Failure.complaint.inj (Except.error.inj hnext)).symm
        · exact (Failure.complaint.inj (Except.error.inj hnext)).symm
      have honly : ∀ t, Begins (us ++ [t]) →
          (∃ numeral, t.lexeme = .number numeral) ∧ t.start = sign.stop := by
        intro t' hfits
        obtain ⟨limit', w', hstep⟩ := exists_step_of_begins hadvance hfits
        cases hstep with
        | negative hlexeme hstart => exact ⟨⟨_, hlexeme⟩, hstart⟩
      cases hreads with
      | signed houter hlevel hsign => exact .misfit (.sign hsign hbegins honly hnot)
  | operator sum term parens =>
      cases parens with
      | nil =>
          have hfinish : finish source (.operator sum term []) = .ok (joined sum term) := rfl
          have hwhole := hreads.finish hfinish
          cases hlexeme : t.lexeme with
          | operator op => simp only [next, hlexeme, reduceCtorEq] at hnext
          | closing =>
              simp only [next, hlexeme] at hnext
              obtain rfl := Failure.complaint.inj (Except.error.inj hnext)
              exact .stray (.mk hwhole hlexeme)
          | number numeral =>
              simp only [next, hlexeme] at hnext
              obtain rfl := Failure.complaint.inj (Except.error.inj hnext)
              exact .misfit (.unexpected hbegins hnot)
          | opening =>
              simp only [next, hlexeme] at hnext
              obtain rfl := Failure.complaint.inj (Except.error.inj hnext)
              exact .misfit (.unexpected hbegins hnot)
      | cons paren parens =>
          obtain ⟨us, p, vs, rfl, hopen, hp, hstart, hinside⟩ := hreads.exists_inside hspelled
          have hlimit : nesting (us ++ [p] ++ vs) ≤ limit :=
            deepest_le_of_advance hadvance (Nat.zero_le _)
          cases hlexeme : t.lexeme with
          | operator op => simp only [next, hlexeme, reduceCtorEq] at hnext
          | closing => simp only [next, hlexeme, reduceCtorEq] at hnext
          | number numeral =>
              simp only [next, hlexeme] at hnext
              obtain rfl : c = .mismatchedParenthesis source paren.start :=
                (Failure.complaint.inj (Except.error.inj hnext)).symm
              rw [← hstart]
              exact .juxtaposed (.mk hopen hp hinside (.inl ⟨numeral, hlexeme⟩)) hlimit
          | opening =>
              simp only [next, hlexeme] at hnext
              obtain rfl : c = .mismatchedParenthesis source paren.start :=
                (Failure.complaint.inj (Except.error.inj hnext)).symm
              rw [← hstart]
              exact .juxtaposed (.mk hopen hp hinside (.inr hlexeme)) hlimit

/-- At the end of the text an operand is missing, or a parenthesis is open. -/
theorem fault_of_finish (hspelled : ∀ t ∈ ts, t.Spelled) (hne : ts ≠ [])
    (hadvance : advance limit source .start ts = .ok w)
    (hfinish : w.finish source = .error (.complaint c)) : Fault limit source ts c := by
  have hreads := reads_start.advance hspelled hadvance
  rw [List.nil_append] at hreads
  have hbegins := hreads.begins hspelled
  have hending : EndsOpen ts → Fault limit source ts (.endsUnexpectedly source) := by
    intro hopen
    obtain ⟨us, t, rfl⟩ := (List.eq_nil_or_concat' ts).resolve_left hne
    refine .misfit (.ending (hopen t List.getLast?_concat) hbegins fun e hderives => ?_)
    have hlimit : nesting (us ++ [t]) ≤ limit := deepest_le_of_advance hadvance (Nat.zero_le _)
    have hparse : Work.start.parse limit source (us ++ [t]) = .ok e :=
      parse_of_derives hderives hspelled hlimit
    rw [parse_eq, hadvance] at hparse
    cases hfinish.symm.trans hparse
  cases w with
  | operand level parens =>
      obtain rfl := Failure.complaint.inj (Except.error.inj hfinish)
      cases hreads with
      | operand houter hlevel => exact hending (houter.endsOpen.append hlevel.endsOpen)
  | signed sign level parens =>
      obtain rfl := Failure.complaint.inj (Except.error.inj hfinish)
      cases hreads with
      | signed houter hlevel hsign =>
          refine hending (endsOpen_concat (fun numeral hnumber => ?_) _)
          rw [hsign] at hnumber
          cases hnumber
  | operator sum term parens =>
      cases parens with
      | nil => cases hfinish
      | cons paren parens =>
          obtain rfl : c = .mismatchedParenthesis source paren.start :=
            (Failure.complaint.inj (Except.error.inj hfinish)).symm
          obtain ⟨us, p, vs, rfl, hopen, hp, hstart, hinside⟩ := hreads.exists_inside hspelled
          rw [← hstart]
          exact .unclosed (.mk hopen hp hinside)

/-- What the parser complains of in tokens. -/
theorem fault_of_parse (hspelled : ∀ t ∈ ts, t.Spelled) (hne : ts ≠ [])
    (h : Work.start.parse limit source ts = .error (.complaint c)) : Fault limit source ts c := by
  rw [parse_eq] at h
  cases hadvance : advance limit source .start ts with
  | error f =>
      rw [hadvance] at h
      obtain rfl := Except.error.inj h
      obtain ⟨us, t, vs, w, rfl, hfront, hnext⟩ := exists_of_advance_error hadvance
      exact fault_of_next (List.forall_mem_append.mp hspelled).1 hfront hnext
  | ok w =>
      rw [hadvance] at h
      exact fault_of_finish hspelled hne hadvance h

/-! ### Counting parentheses -/

theorem Step.countP_eq (h : Step limit w t w') :
    w'.depth + [t].countP (·.lexeme = .closing) = w.depth + [t].countP (·.lexeme = .opening) := by
  cases h with
  | number hlexeme => simp [depth, hlexeme]
  | sign hlexeme => simp [depth, hlexeme]
  | opening hlexeme hroom => simp [depth, hlexeme]
  | negative hlexeme hnext => simp [depth, hlexeme]
  | operator hlexeme => simp [depth, hlexeme]
  | closing hlexeme => simp [depth, hlexeme]

/-- As many parentheses are open as were opened and not closed. -/
theorem countP_of_advance (h : advance limit source w ts = .ok w') :
    w'.depth + ts.countP (·.lexeme = .closing) = w.depth + ts.countP (·.lexeme = .opening) := by
  induction ts generalizing w with
  | nil =>
      obtain rfl := Except.ok.inj h
      rfl
  | cons t ts ih =>
      obtain ⟨v, hnext, htail⟩ := advance_cons_eq_ok h
      have hfirst := (step_of_next_eq_ok hnext).countP_eq
      have hrest := ih htail
      rw [← List.singleton_append, List.countP_append, List.countP_append]
      omega

end Work

/-- Nowhere does an expression close more parentheses than it has opened. -/
theorem Begins.countP_le (h : Begins ts) :
    ts.countP (·.lexeme = .closing) ≤ ts.countP (·.lexeme = .opening) := by
  obtain ⟨w, hadvance⟩ := Work.exists_advance_of_begins h "" (Nat.le_refl _)
  have hcount := Work.countP_of_advance hadvance
  have hstart : Work.start.depth = 0 := rfl
  omega

theorem countP_closing (hlexeme : p.lexeme = .closing) :
    [p].countP (·.lexeme = .closing) = 1 ∧ [p].countP (·.lexeme = .opening) = 0 := by
  simp [hlexeme]

theorem countP_opening (hlexeme : p.lexeme = .opening) :
    [p].countP (·.lexeme = .closing) = 0 ∧ [p].countP (·.lexeme = .opening) = 1 := by
  simp [hlexeme]

theorem Stray.not_balanced (h : Stray ts p) : ¬ Balanced ts := by
  intro hbalanced
  cases h with
  | mk hbefore hlexeme =>
      rename_i us vs e
      obtain ⟨hclosing, hopening⟩ := countP_closing hlexeme
      have hle := hbalanced.count_le (us ++ [p]) ⟨vs, (List.append_cons us p vs).symm⟩
      have hbefore := hbefore.countP_eq
      rw [List.countP_append, List.countP_append] at hle
      omega

theorem Unclosed.not_balanced (h : Unclosed ts p) : ¬ Balanced ts := by
  intro hbalanced
  cases h with
  | mk hbefore hlexeme hinside =>
      obtain ⟨hclosing, hopening⟩ := countP_opening hlexeme
      have heq := hbalanced.count_eq
      have hbefore := hbefore.of_append.countP_le
      have hinside := hinside.countP_eq
      simp only [List.countP_append] at heq
      omega

/-! ### An operand right behind an expression -/

namespace Work

variable {w w' : Work} {sum : Waiting} {term : Expr} {paren : Paren} {parens : List Paren}

theorem Step.exists_of_opening (h : Step limit w t w') (hlexeme : t.lexeme = .opening) :
    ∃ level parens, w' = .operand .start (⟨t.start, level⟩ :: parens) := by
  cases h with
  | opening hlexeme' hroom => exact ⟨_, _, rfl⟩
  | number hlexeme' => simp [hlexeme] at hlexeme'
  | sign hlexeme' => simp [hlexeme] at hlexeme'
  | negative hlexeme' hnext => simp [hlexeme] at hlexeme'
  | operator hlexeme' => simp [hlexeme] at hlexeme'
  | closing hlexeme' => simp [hlexeme] at hlexeme'

/-- Behind an expression inside a parenthesis an operand is no closing parenthesis. -/
theorem next_operand_inside
    (hoperand : (∃ numeral, t.lexeme = .number numeral) ∨ t.lexeme = .opening) :
    next limit source (.operator sum term (paren :: parens)) t =
      .error (.complaint (.mismatchedParenthesis source paren.start)) := by
  rcases hoperand with ⟨numeral, hlexeme⟩ | hlexeme
  · simp only [next, hlexeme]
    rfl
  · simp only [next, hlexeme]
    rfl

/-- A parenthesis is read with the expression behind it. -/
theorem exists_advance_inside (source : String) (hbefore : Begins (us ++ [p]))
    (hlexeme : p.lexeme = .opening) (hinside : Derives .sum vs e) (hspelled : ∀ t ∈ vs, t.Spelled)
    (hlimit : nesting (us ++ [p] ++ vs) ≤ limit) :
    ∃ sum term level parens, advance limit source .start (us ++ [p] ++ vs) =
      .ok (.operator sum term (⟨p.start, level⟩ :: parens)) := by
  obtain ⟨w, hadvance⟩ := exists_advance_of_begins hbefore source (deepest_append_le.mp hlimit).1
  obtain ⟨v, -, hopening⟩ := exists_advance_append hadvance
  rw [advance_singleton] at hopening
  obtain ⟨level, parens, rfl⟩ := (step_of_next_eq_ok hopening).exists_of_opening hlexeme
  have hreads : ReadsAs limit source .sum vs e := readsAs_of_derives hinside hspelled
  obtain ⟨sum, term, hinner, -⟩ := hreads _ (deepest_rest_le hlimit rfl hadvance)
  exact ⟨sum, term, level, parens, (advance_append hadvance).trans hinner⟩

end Work

/-- Where the parser gets as far as the operand, it blames the parenthesis. -/
theorem Juxtaposed.parse_eq (h : Juxtaposed ts read p) (hspelled : ∀ t ∈ ts, t.Spelled)
    (hlimit : nesting read ≤ limit) :
    Work.start.parse limit source ts =
      .error (.complaint (.mismatchedParenthesis source p.start)) := by
  cases h with
  | mk hbefore hlexeme hinside hoperand =>
      have hinner := (List.forall_mem_append.mp (List.forall_mem_append.mp hspelled).1).2
      obtain ⟨sum, term, level, parens, hadvance⟩ :=
        Work.exists_advance_inside source hbefore hlexeme hinside hinner hlimit
      rw [Work.parse_eq, Work.advance_append hadvance,
        Work.advance_cons_of_error (Work.next_operand_inside hoperand)]

/-! ### Fair blame -/

/-- The complaint is about the columns of the token that does not fit. -/
theorem Misfit.marks (h : Misfit source ts t c) (hcut : Cut [] 0 source.toList ts) :
    Marks source t c := by
  have hspelled := Token.scan_spelled (Token.scan_eq_ok_iff.mpr hcut)
  cases h with
  | unexpected hbefore hnot => exact marks_unexpected source t
  | sign hlexeme hbefore honly hnot => exact marks_sign source (hspelled t (by simp)) hlexeme
  | ending hlexeme hbefore hnot => exact marks_ending hcut (hspelled t (by simp)) hlexeme

/-- A complaint about a token that does not fit is about no parenthesis. -/
theorem Misfit.ne_mismatched {subject : String} {start : Nat} (h : Misfit source ts t c) :
    c ≠ .mismatchedParenthesis subject start := by
  rintro rfl
  cases h

/-- Parentheses are blamed only where they do not balance, and where they balance, the token is
blamed that does not fit. -/
structure BlamesFairly (limit : Nat) (source : String) : Prop where
  not_balanced : ∀ ts, Token.scan source = .ok ts → ∀ subject start,
    parseWithin limit source = .error (.complaint (.mismatchedParenthesis subject start)) →
      ¬ Balanced ts
  blames_token : ∀ ts, Token.scan source = .ok ts → Balanced ts → ∀ f,
    parseWithin limit source = .error f →
      (f = .nestsTooDeeply ∧ limit < nesting ts) ∨
      (f = .complaint (.emptyExpression source) ∧ ts = []) ∨
      ∃ t c, f = .complaint c ∧ Misfit source ts t c ∧ Marks source t c

/-- A text with tokens is rejected for a fault of these, if it has any. -/
theorem fault_of_parseWithin (hscan : Token.scan source = .ok ts)
    (h : parseWithin limit source = .error (.complaint c)) :
    (c = .emptyExpression source ∧ ts = []) ∨ Fault limit source ts c := by
  by_cases hne : ts = []
  · rw [parseWithin, hscan, hne] at h
    exact .inl ⟨(Failure.complaint.inj (Except.error.inj h)).symm, hne⟩
  · rw [parseWithin_eq hscan hne] at h
    exact .inr (Work.fault_of_parse (Token.scan_spelled hscan) hne h)

/-- In tokens that balance, a fault is a token that does not fit, or an operand is juxtaposed. -/
theorem Fault.of_balanced (h : Fault limit source ts c) (hbalanced : Balanced ts) :
    (∃ t, Misfit source ts t c) ∨ ∃ read p, Juxtaposed ts read p ∧ nesting read ≤ limit := by
  cases h with
  | stray hstray => exact absurd hbalanced hstray.not_balanced
  | unclosed hunclosed => exact absurd hbalanced hunclosed.not_balanced
  | juxtaposed hjuxtaposed hlimit => exact .inr ⟨_, _, hjuxtaposed, hlimit⟩
  | misfit hmisfit => exact .inl ⟨_, hmisfit⟩

/-- Main result: parentheses are blamed fairly in a text exactly if, in case they balance, no number
and no parenthesis stands right behind an expression inside a parenthesis, or only beyond the limit
on open parentheses. -/
theorem blamesFairly_iff (limit : Nat) (source : String) :
    BlamesFairly limit source ↔ ∀ ts, Token.scan source = .ok ts → Balanced ts →
      ∀ read p, Juxtaposed ts read p → limit < nesting read := by
  constructor
  · intro hfair ts hscan hbalanced read p hjuxtaposed
    by_contra hroom
    have hne : ts ≠ [] := by
      cases hjuxtaposed
      simp
    have hparse : Work.start.parse limit source ts =
        .error (.complaint (.mismatchedParenthesis source p.start)) :=
      hjuxtaposed.parse_eq (Token.scan_spelled hscan) (Nat.not_lt.mp hroom)
    rw [← parseWithin_eq hscan hne] at hparse
    exact hfair.not_balanced ts hscan _ _ hparse hbalanced
  · intro hapart
    constructor
    · intro ts hscan subject start hparse hbalanced
      rcases fault_of_parseWithin hscan hparse with ⟨hempty, -⟩ | hfault
      · cases hempty
      · rcases hfault.of_balanced hbalanced with ⟨t, hmisfit⟩ | ⟨read, p, hjuxtaposed, hlimit⟩
        · exact hmisfit.ne_mismatched rfl
        · exact absurd hlimit (Nat.not_le.mpr (hapart ts hscan hbalanced read p hjuxtaposed))
    · intro ts hscan hbalanced f hparse
      rcases parseWithin_eq_error hparse with ⟨c, rfl⟩ | ⟨rfl, us, hus, hdeep⟩
      · rcases fault_of_parseWithin hscan hparse with ⟨rfl, hnil⟩ | hfault
        · exact .inr (.inl ⟨rfl, hnil⟩)
        · rcases hfault.of_balanced hbalanced with ⟨t, hmisfit⟩ | ⟨read, p, hjuxtaposed, hlimit⟩
          · exact .inr (.inr ⟨t, c, rfl, hmisfit,
              hmisfit.marks (Token.scan_eq_ok_iff.mp hscan)⟩)
          · exact absurd hlimit (Nat.not_le.mpr (hapart ts hscan hbalanced read p hjuxtaposed))
      · obtain rfl := Except.ok.inj (hscan.symm.trans hus)
        exact .inl ⟨rfl, hdeep⟩

/-- In `(1 2)` the parentheses balance, and the first one is blamed. -/
theorem balanced_not_blamesFairly :
    (∃ ts, Token.scan "(1 2)" = .ok ts ∧ Balanced ts) ∧
      parse "(1 2)" = .error (.complaint (.mismatchedParenthesis "(1 2)" 0)) ∧
      ¬ BlamesFairly nestingLimit "(1 2)" := by
  have hscan : Token.scan "(1 2)" = .ok [⟨.opening, ['('], 0⟩,
      ⟨.number (.decimal [1] [] 0), ['1'], 1⟩, ⟨.number (.decimal [2] [] 0), ['2'], 3⟩,
      ⟨.closing, [')'], 4⟩] := by
    cbv
  have hparse : parse "(1 2)" = .error (.complaint (.mismatchedParenthesis "(1 2)" 0)) := by
    rw [parse, parseWithin, hscan]
    rfl
  exact ⟨⟨_, hscan, by decide⟩, hparse,
    fun hfair => hfair.not_balanced _ hscan _ _ hparse (by decide)⟩

end Calculator.Expr
