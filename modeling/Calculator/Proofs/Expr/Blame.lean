import Calculator.Program.Listing
import Calculator.Proofs.Token.Apart
import Calculator.Proofs.Token.Characters
import Calculator.Proofs.Token.Cutting

/-!
What a rejected text is blamed for.  The parser complains of a token that it has just met, of an
open parenthesis or of a minus sign that it has read, or of the end of the text; the account of the
tokens read so far says where that token is, and that an operand is missing only behind the last
one.  So the marked columns are those of one token; and in a line of a listing they are those of
its second word, or all.
-/
namespace Calculator

namespace Report

/-- The report is about a text in three parts and marks just the middle one. -/
structure Blames (r : Report) (before part after : List Char) : Prop where
  subject_eq : r.subject.toList = before ++ (part ++ after)
  start_eq : r.start = before.length
  stop_eq : r.stop = before.length + part.length

/-- A report on the whole of a text marks all of it. -/
theorem blames_onWhole (template : Template) (source : String) :
    (onWhole template [source]).Blames [] source.toList [] := by
  refine ⟨(List.append_nil _).symm, rfl, ?_⟩
  rw [List.length_nil, String.length_toList]
  exact (Int.zero_add _).symm

end Report

namespace Token

open Text (IsWord)

variable {source : String} {start : Nat} {cs : List Char} {t : Token} {us vs : List Token}

theorem Spelled.stop_eq (h : t.Spelled) (hlexeme : ∀ numeral, t.lexeme ≠ .number numeral) :
    t.stop = t.start + 1 := by
  rw [stop, length_eq_one_of_spelledBy h hlexeme]

/-- Without the blanks behind it a text ends where its last token does. -/
theorem Cut.length_trimRight (h : Cut [] start cs (us ++ [t])) :
    start + (Text.trimRight cs).length = t.stop := by
  obtain ⟨before, after, rfl, hstart, hspelled, hafter⟩ := h.exists_around
  rw [Text.trimRight_of_isWord hspelled.isWord hafter.blanks, List.length_append,
    stop, hstart, Nat.add_assoc]

/-- A report with the columns of a token marks this token. -/
theorem Cut.exists_blames (h : Cut [] 0 source.toList (us ++ t :: vs)) {r : Report}
    (hsubject : r.subject = source) (hstart : r.start = t.start) (hstop : r.stop = t.stop) :
    ∃ before after, before.length = t.start ∧ r.Blames before t.chars after := by
  obtain ⟨before, after, hsplit, hbefore, -, -⟩ := h.exists_around
  rw [Nat.zero_add] at hbefore
  refine ⟨before, after, hbefore.symm, ⟨by rw [hsubject, hsplit], ?_, ?_⟩⟩
  · rw [hstart, hbefore]
  · rw [hstop, stop, hbefore, Nat.cast_add]

end Token

namespace Expr

open Text (Blanks)
open Token (Cut Stuck)

variable {limit : Nat} {source : String} {w : Work} {t : Token} {ts us vs : List Token}
  {parens : List Paren} {c : Complaint} {f : Failure}

/-- The complaint is about one of the tokens, and about the last one if an operand is missing. -/
inductive AboutToken (source : String) (ts : List Token) : Complaint → Prop where
  | unexpected {t : Token} (ht : t ∈ ts) :
      AboutToken source ts (.unexpectedToken source t.text t.start)
  | parenthesis {t : Token} (ht : t ∈ ts) (hlexeme : t.lexeme = .opening ∨ t.lexeme = .closing) :
      AboutToken source ts (.mismatchedParenthesis source t.start)
  | sign {t : Token} (ht : t ∈ ts) (hlexeme : t.lexeme = .operator .subtract) :
      AboutToken source ts (.loneSign source t.start)
  | ending {us : List Token} {t : Token} (hts : ts = us ++ [t])
      (hlexeme : ∀ numeral, t.lexeme ≠ .number numeral) :
      AboutToken source ts (.endsUnexpectedly source)

namespace Work

/-! ### The token that is complained of -/

/-- No number ends the tokens. -/
def EndsOpen (ts : List Token) : Prop :=
  ∀ t ∈ ts.getLast?, ∀ numeral, t.lexeme ≠ .number numeral

theorem EndsOpen.append (hts : EndsOpen ts) (hus : EndsOpen us) : EndsOpen (ts ++ us) := by
  intro t ht
  rw [List.getLast?_append] at ht
  cases hlast : us.getLast? with
  | none =>
      rw [hlast] at ht
      exact hts t ht
  | some u =>
      rw [hlast] at ht
      exact hus t (hlast.trans ht)

theorem endsOpen_nil : EndsOpen [] := by
  rintro t ⟨⟩

theorem endsOpen_concat (h : ∀ numeral, t.lexeme ≠ .number numeral) (ts : List Token) :
    EndsOpen (ts ++ [t]) := by
  intro t' ht'
  rw [List.getLast?_concat] at ht'
  obtain rfl := Option.some.inj ht'
  exact h

theorem Waits.endsOpen {rank : Rank} {additive : Bool} {waiting : Waiting}
    (h : Waits rank additive waiting ts) : EndsOpen ts := by
  cases h with
  | none => exact endsOpen_nil
  | some hleft hop hrank =>
      apply endsOpen_concat
      intro numeral hnumber
      rw [hop] at hnumber
      cases hnumber

theorem LevelReads.endsOpen {level : Level} (h : LevelReads level ts) : EndsOpen ts := by
  cases h with
  | mk hsum hproduct => exact hsum.endsOpen.append hproduct.endsOpen

theorem ParensRead.endsOpen (h : ParensRead parens ts) : EndsOpen ts := by
  cases h with
  | nil => exact endsOpen_nil
  | cons houter hlevel hlexeme =>
      apply endsOpen_concat
      intro numeral hnumber
      rw [hlexeme] at hnumber
      cases hnumber

/-- An open parenthesis has been read as a token. -/
theorem ParensRead.aboutToken_of_unclosed (h : ParensRead parens ts) (hsub : ts ⊆ us)
    (hc : unclosed source parens = some c) : AboutToken source us c := by
  cases h with
  | nil => cases hc
  | cons houter hlevel hlexeme =>
      obtain rfl := Option.some.inj hc
      exact .parenthesis (hsub List.mem_concat_self) (.inl hlexeme)

/-- A token that the parser refuses is complained of, or an open parenthesis or a sign before it. -/
theorem Reads.aboutToken_of_next (h : Reads w us)
    (hnext : next limit source w t = .error (.complaint c)) :
    AboutToken source (us ++ t :: vs) c := by
  have ht : t ∈ us ++ t :: vs := List.mem_append_right _ List.mem_cons_self
  cases h with
  | operand houter hlevel =>
      simp only [next] at hnext
      split at hnext
      · cases hnext
      · cases hnext
      · split at hnext <;> cases hnext
      · obtain rfl := Failure.complaint.inj (Except.error.inj hnext)
        exact .unexpected ht
  | signed houter hlevel hsign =>
      rename_i sign level parens ts us
      have hmem : sign ∈ ts ++ us ++ [sign] ++ t :: vs :=
        List.mem_append_left _ List.mem_concat_self
      simp only [next] at hnext
      split at hnext
      · split at hnext
        · cases hnext
        · obtain rfl := Failure.complaint.inj (Except.error.inj hnext)
          exact .sign hmem hsign
      · obtain rfl := Failure.complaint.inj (Except.error.inj hnext)
        exact .sign hmem hsign
  | operator houter hsum hterm =>
      rename_i sum term parens ts us us'
      have hopen : AboutToken source (ts ++ us ++ us' ++ t :: vs)
          ((unclosed source parens).getD (.unexpectedToken source t.text t.start)) := by
        cases hunclosed : unclosed source parens with
        | none => exact .unexpected ht
        | some c' =>
            refine houter.aboutToken_of_unclosed ?_ hunclosed
            rw [List.append_assoc, List.append_assoc]
            exact List.subset_append_left _ _
      cases hlexeme : t.lexeme with
      | operator op => simp only [next, hlexeme, reduceCtorEq] at hnext
      | closing =>
          cases parens with
          | nil =>
              simp only [next, hlexeme] at hnext
              obtain rfl := Failure.complaint.inj (Except.error.inj hnext)
              exact .parenthesis ht (.inr hlexeme)
          | cons p parens => simp only [next, hlexeme, reduceCtorEq] at hnext
      | number numeral =>
          simp only [next, hlexeme] at hnext
          rwa [← Failure.complaint.inj (Except.error.inj hnext)]
      | opening =>
          simp only [next, hlexeme] at hnext
          rwa [← Failure.complaint.inj (Except.error.inj hnext)]

theorem Reads.aboutToken_of_finish (h : Reads w ts) (hne : ts ≠ [])
    (hfinish : w.finish source = .error (.complaint c)) : AboutToken source ts c := by
  have hending : EndsOpen ts → AboutToken source ts (.endsUnexpectedly source) := by
    intro hopen
    obtain ⟨us, t, rfl⟩ := (List.eq_nil_or_concat' ts).resolve_left hne
    exact .ending rfl (hopen t List.getLast?_concat)
  cases h with
  | operand houter hlevel =>
      obtain rfl := Failure.complaint.inj (Except.error.inj hfinish)
      exact hending (houter.endsOpen.append hlevel.endsOpen)
  | signed houter hlevel hsign =>
      obtain rfl := Failure.complaint.inj (Except.error.inj hfinish)
      apply hending
      apply endsOpen_concat
      intro numeral hnumber
      rw [hsign] at hnumber
      cases hnumber
  | operator houter hsum hterm =>
      rename_i sum term parens ts us us'
      have hsub : ts ⊆ ts ++ us ++ us' := by
        rw [List.append_assoc]
        exact List.subset_append_left _ _
      simp only [Work.finish] at hfinish
      split at hfinish
      · cases hfinish
      · rename_i c' hopen
        obtain rfl := Failure.complaint.inj (Except.error.inj hfinish)
        exact houter.aboutToken_of_unclosed hsub hopen

/-- Whatever has been read, the parser complains of a token. -/
theorem Reads.aboutToken (h : Reads w us) (hspelled : ∀ t ∈ ts, t.Spelled) (hne : us ++ ts ≠ [])
    (hparse : parse limit source w ts = .error (.complaint c)) :
    AboutToken source (us ++ ts) c := by
  induction ts generalizing w us with
  | nil =>
      rw [List.append_nil] at hne ⊢
      rw [parse_nil] at hparse
      exact h.aboutToken_of_finish hne hparse
  | cons t ts ih =>
      obtain ⟨ht, hts⟩ := List.forall_mem_cons.mp hspelled
      rw [parse_cons] at hparse
      cases hnext : next limit source w t with
      | error f =>
          rw [hnext] at hparse
          obtain rfl := Except.error.inj hparse
          exact h.aboutToken_of_next hnext
      | ok w' =>
          rw [hnext] at hparse
          have hreads := h.step ht (step_of_next_eq_ok hnext)
          rw [List.append_cons] at hne ⊢
          exact ih hreads hts hne hparse

end Work

/-- The complaint is about the text and marks the columns of the token. -/
structure Marks (source : String) (t : Token) (c : Complaint) : Prop where
  subject_eq : c.report.subject = source
  start_eq : c.report.start = t.start
  stop_eq : c.report.stop = t.stop

theorem marks_unexpected (source : String) (t : Token) :
    Marks source t (.unexpectedToken source t.text t.start) := by
  have hstop : (t.start : Int) + t.text.length = t.stop := by
    rw [Token.text, String.length_ofList, Token.stop, Nat.cast_add]
  exact ⟨rfl, rfl, hstop⟩

theorem marks_parenthesis (source : String) (h : t.Spelled)
    (hlexeme : t.lexeme = .opening ∨ t.lexeme = .closing) :
    Marks source t (.mismatchedParenthesis source t.start) := by
  have hstop : (t.start : Int) + 1 = t.stop := by
    rw [h.stop_eq (by rcases hlexeme with heq | heq <;> simp [heq])]
    rfl
  exact ⟨rfl, rfl, hstop⟩

theorem marks_sign (source : String) (h : t.Spelled) (hlexeme : t.lexeme = .operator .subtract) :
    Marks source t (.loneSign source t.start) := by
  have hstop : (t.start : Int) + 1 = t.stop := by
    rw [h.stop_eq (by simp [hlexeme])]
    rfl
  exact ⟨rfl, rfl, hstop⟩

theorem marks_ending (hcut : Cut [] 0 source.toList (us ++ [t])) (h : t.Spelled)
    (hlexeme : ∀ numeral, t.lexeme ≠ .number numeral) :
    Marks source t (.endsUnexpectedly source) := by
  have hlast : (Text.trimRight source.toList).length = t.stop := by
    rw [← hcut.length_trimRight, Nat.zero_add]
  have hstop := h.stop_eq hlexeme
  have hstart : ((Text.trimRight source.toList).length : Int) - 1 = t.start := by
    omega
  exact ⟨rfl, hstart, congrArg Nat.cast hlast⟩

/-- The complaint marks the columns of the token that it is about. -/
theorem AboutToken.exists_blames (h : AboutToken source ts c) (hcut : Cut [] 0 source.toList ts) :
    c.report.subject = source ∧ ∃ us t vs before after, ts = us ++ t :: vs ∧
      before.length = t.start ∧ c.report.Blames before t.chars after ∧
      (c = .endsUnexpectedly source → vs = []) := by
  have hspelled := Token.scan_spelled (Token.scan_eq_ok_iff.mpr hcut)
  have hmark : ∀ {t : Token} {c : Complaint}, t ∈ ts → Marks source t c →
      c ≠ .endsUnexpectedly source →
      ∃ us t vs before after, ts = us ++ t :: vs ∧ before.length = t.start ∧
        c.report.Blames before t.chars after ∧ (c = .endsUnexpectedly source → vs = []) := by
    intro t c ht hmarks hne
    obtain ⟨us, vs, rfl⟩ := List.append_of_mem ht
    obtain ⟨before, after, hbefore, hblames⟩ :=
      hcut.exists_blames hmarks.subject_eq hmarks.start_eq hmarks.stop_eq
    exact ⟨us, t, vs, before, after, rfl, hbefore, hblames, fun hending => absurd hending hne⟩
  cases h with
  | unexpected ht => exact ⟨rfl, hmark ht (marks_unexpected source _) (by rintro ⟨⟩)⟩
  | parenthesis ht hlexeme =>
      exact ⟨rfl, hmark ht (marks_parenthesis source (hspelled _ ht) hlexeme) (by rintro ⟨⟩)⟩
  | sign ht hlexeme =>
      exact ⟨rfl, hmark ht (marks_sign source (hspelled _ ht) hlexeme) (by rintro ⟨⟩)⟩
  | ending hts hlexeme =>
      rename_i us t
      subst hts
      have hmarks := marks_ending hcut (hspelled t List.mem_concat_self) hlexeme
      obtain ⟨before, after, hbefore, hblames⟩ :=
        hcut.exists_blames hmarks.subject_eq hmarks.start_eq hmarks.stop_eq
      exact ⟨rfl, us, t, [], before, after, rfl, hbefore, hblames, fun _ => rfl⟩

/-- Why a text is rejected: it cannot be cut into tokens, has none, or one of them does not fit. -/
inductive Rejected (source : String) : Complaint → Prop where
  | stuck {before : List Char} {ch : Char} {after : List Char}
      (hstuck : Stuck source.toList before ch after) :
      Rejected source (.illegalCharacter source ch before.length)
  | blank (hblanks : Blanks source.toList) : Rejected source (.emptyExpression source)
  | token {ts : List Token} {c : Complaint} (hcut : Cut [] 0 source.toList ts)
      (habout : AboutToken source ts c) : Rejected source c

theorem rejected_of_parse_error (h : parseWithin limit source = .error (.complaint c)) :
    Rejected source c := by
  cases hscan : Token.scan source with
  | error c' =>
      rw [parseWithin, hscan] at h
      obtain rfl := Failure.complaint.inj (Except.error.inj h)
      obtain ⟨before, ch, after, hstuck, rfl⟩ := Token.scan_eq_error_iff.mp hscan
      exact .stuck hstuck
  | ok ts =>
      have hcut := Token.scan_eq_ok_iff.mp hscan
      by_cases hts : ts = []
      · rw [parseWithin, hscan, hts] at h
        obtain rfl := Failure.complaint.inj (Except.error.inj h)
        rw [hts] at hcut
        exact .blank hcut.blanks
      · rw [parseWithin_eq hscan hts] at h
        exact .token hcut (Work.reads_start.aboutToken (Token.scan_spelled hscan) hts h)

/-- The complaint about a text is made to the user. -/
theorem Rejected.not_internal (h : Rejected source c) : c.report.internal = false := by
  cases h with
  | stuck hstuck => rfl
  | blank hblanks => rfl
  | token hcut habout => cases habout <;> rfl

/-- What the complaint about a text marks: the first character at which no token begins, all of a
blank text, or else a token, which is the last one if the text ends unexpectedly. -/
structure MarksPiece (source : String) (c : Complaint) : Prop where
  subject_eq : c.report.subject = source
  stuck : ∀ before ch after, Stuck source.toList before ch after →
    c.report.Blames before [ch] after
  blank : Blanks source.toList → c.report.Blames [] source.toList []
  token : (∀ before ch after, ¬ Stuck source.toList before ch after) → ¬ Blanks source.toList →
    ∃ us t vs before after, Cut [] 0 source.toList (us ++ t :: vs) ∧ before.length = t.start ∧
      c.report.Blames before t.chars after ∧ (c = .endsUnexpectedly source → vs = [])

theorem Rejected.marksPiece (h : Rejected source c) : MarksPiece source c := by
  cases h with
  | stuck hstuck =>
      rename_i before ch after
      refine ⟨rfl, ?_, fun hblanks => absurd hstuck (Token.not_stuck_of_blanks hblanks),
        fun hnone => absurd hstuck (hnone before ch after)⟩
      intro before' ch' after' hstuck'
      -- the scanner has one answer, so it gets stuck at one place
      have hsame := (Token.scan_eq_error_iff.mpr ⟨before, ch, after, hstuck, rfl⟩).symm.trans
        (Token.scan_eq_error_iff.mpr ⟨before', ch', after', hstuck', rfl⟩)
      obtain ⟨-, rfl, hlength⟩ := Complaint.illegalCharacter.inj (Except.error.inj hsame)
      refine ⟨hstuck'.split, congrArg Nat.cast hlength, ?_⟩
      simp [Complaint.report, Complaint.blaming, hlength]
  | blank hblanks =>
      exact ⟨rfl, fun before ch after hstuck => absurd hstuck (Token.not_stuck_of_blanks hblanks),
        fun _ => Report.blames_onWhole _ source, fun _ hnot => absurd hblanks hnot⟩
  | token hcut habout =>
      obtain ⟨hsubject, us, t, vs, before, after, rfl, hblames⟩ := habout.exists_blames hcut
      have hscan := Token.scan_eq_ok_iff.mpr hcut
      refine ⟨hsubject, fun before ch after hstuck =>
        absurd hstuck (Token.not_stuck_of_scan hscan before ch after), ?_,
        fun _ _ => ⟨us, t, vs, before, after, hcut, hblames⟩⟩
      intro hblanks
      rw [Token.scan, Token.scanFrom_blanks hblanks] at hscan
      exact absurd (Except.ok.inj hscan) (by simp)

end Expr

namespace Record

open Text (Blanks IsWord)

variable {line : String} {c : Complaint}

/-- A line is refused for its number of words, or for the operand of a push. -/
theorem ofLine_eq_error (h : ofLine line = .error c) :
    (Text.words line.toList).length ≠ 2 ∧ c = .instructionForm line ∨
      ∃ mnemonic operand, Text.words line.toList = [mnemonic, operand] ∧
        c = .pushOperand line (String.ofList operand)
          ((Text.trimRight line.toList).length - operand.length) := by
  unfold ofLine at h
  split at h
  · rename_i mnemonic operand hwords
    by_cases htag : (String.ofList (Text.lower mnemonic) == Instr.pushTag) = true
    · simp only [if_pos htag] at h
      split at h
      · cases h
      · exact .inr ⟨mnemonic, operand, hwords, (Except.error.inj h).symm⟩
    · simp only [if_neg htag] at h
      cases h
  · rename_i hcount
    refine .inl ⟨?_, (Except.error.inj h).symm⟩
    intro htwo
    obtain ⟨mnemonic, operand, hwords⟩ := List.length_eq_two.mp htwo
    exact hcount mnemonic operand hwords

/-- The column of the operand is counted from the end of the line, without the blanks there. -/
theorem column_of_append {before operand after : List Char}
    (h : line.toList = before ++ (operand ++ after)) (hoperand : IsWord operand)
    (hafter : Blanks after) :
    (Text.trimRight line.toList).length - operand.length = before.length := by
  rw [h, Text.trimRight_of_isWord hoperand hafter, List.length_append, Nat.add_sub_cancel]

/-- It is the last column at which the operand occurs in the line. -/
theorem isLast_of_ofLine_error {text operand : String} {start : Nat}
    (h : ofLine line = .error (.pushOperand text operand start)) :
    Text.IsLast operand.toList line.toList start := by
  rcases ofLine_eq_error h with ⟨-, hc⟩ | ⟨mnemonic, w, hwords, hc⟩
  · cases hc
  · obtain ⟨-, rfl, rfl⟩ := Complaint.pushOperand.inj hc
    obtain ⟨front, between, after, hsplit, -, -, -, -, hw, hafter⟩ :=
      Text.exists_of_words_pair hwords
    have hpieces : line.toList = front ++ mnemonic ++ between ++ (w ++ after) := by
      rw [hsplit]
      simp only [List.append_assoc]
    rw [column_of_append hpieces hw hafter, hpieces, String.toList_ofList]
    exact Text.isLast_of_blanks hw hafter _

/-- What the complaint about a line marks: all of it, or the second word if there are two. -/
structure MarksPiece (line : String) (c : Complaint) : Prop where
  subject_eq : c.report.subject = line
  whole : (Text.words line.toList).length ≠ 2 → c.report.Blames [] line.toList []
  second : (Text.words line.toList).length = 2 → ∃ front mnemonic between operand after,
    line.toList = front ++ (mnemonic ++ (between ++ (operand ++ after))) ∧ Blanks front ∧
      IsWord mnemonic ∧ Blanks between ∧ between ≠ [] ∧ IsWord operand ∧ Blanks after ∧
      c.report.Blames (front ++ mnemonic ++ between) operand after

theorem marksPiece_of_ofLine_error (h : ofLine line = .error c) : MarksPiece line c := by
  rcases ofLine_eq_error h with ⟨hcount, rfl⟩ | ⟨mnemonic, operand, hwords, rfl⟩
  · exact ⟨rfl, fun _ => Report.blames_onWhole _ line, fun htwo => absurd htwo hcount⟩
  · obtain ⟨front, between, after, hsplit, hfront, hmnemonic, hbetween, hne, hoperand, hafter⟩ :=
      Text.exists_of_words_pair hwords
    have hpieces : line.toList = front ++ mnemonic ++ between ++ (operand ++ after) := by
      rw [hsplit]
      simp only [List.append_assoc]
    have hstart := column_of_append hpieces hoperand hafter
    refine ⟨rfl, fun hcount => absurd (congrArg List.length hwords) hcount, fun _ =>
      ⟨front, mnemonic, between, operand, after, hsplit, hfront, hmnemonic, hbetween, hne,
        hoperand, hafter, hpieces, ?_, ?_⟩⟩
    · rw [← hstart]
      rfl
    · simp only [Complaint.report, Complaint.blaming, hstart, String.length_ofList]

end Record

namespace Expr

open Text (Blanks)
open Token (Cut)

/-- Main result: a rejected text is the subject of its report, and one piece of it is marked.  Of an
expression this is the first character at which no token begins, or else all of a blank text, or
else a token, and the last one where the expression ends unexpectedly; only a text that nests too
deeply has no such report.  Of a line of a listing it is the second word of two, wherever the same
characters stand before, and the whole line otherwise. -/
theorem rejected_marks_one_piece :
    (∀ limit source f, parseWithin limit source = .error f →
      (f = .nestsTooDeeply ∧ ∃ ts, Cut [] 0 source.toList ts ∧ limit < nesting ts) ∨
        ∃ c, f = .complaint c ∧ MarksPiece source c) ∧
      ∀ line c, Record.ofLine line = .error c → Record.MarksPiece line c := by
  refine ⟨?_, fun line c => Record.marksPiece_of_ofLine_error⟩
  intro limit source f h
  rcases parseWithin_eq_error h with ⟨c, rfl⟩ | ⟨rfl, ts, hscan, hnesting⟩
  · exact .inr ⟨c, rfl, (rejected_of_parse_error h).marksPiece⟩
  · exact .inl ⟨rfl, ts, Token.scan_eq_ok_iff.mp hscan, hnesting⟩

/-- Where a mnemonic is pushed, its second occurrence is marked; a sum without its second operand
marks the operator, not the blanks behind it. -/
theorem rejected_marks_one_piece_at_ends :
    Record.ofLine "push push" = .error (.pushOperand "push push" "push" 5) ∧
      (∃ front mnemonic between operand after,
        "push push".toList = front ++ (mnemonic ++ (between ++ (operand ++ after))) ∧
          (Complaint.pushOperand "push push" "push" 5).report.Blames
            (front ++ mnemonic ++ between) operand after) ∧
      parseWithin nestingLimit "1 +  " = .error (.complaint (.endsUnexpectedly "1 +  ")) ∧
      ∃ us t before after, Cut [] 0 "1 +  ".toList (us ++ [t]) ∧ before.length = t.start ∧
        (Complaint.endsUnexpectedly "1 +  ").report.Blames before t.chars after := by
  have hline : Record.ofLine "push push" = .error (.pushOperand "push push" "push" 5) := by
    cbv
  have hscan : Token.scan "1 +  " = .ok [⟨.number (.decimal [1] [] 0), ['1'], 0⟩,
      ⟨.operator .add, ['+'], 2⟩] := by
    cbv
  have hparse : parseWithin nestingLimit "1 +  " =
      .error (.complaint (.endsUnexpectedly "1 +  ")) := by
    rw [parseWithin, hscan]
    rfl
  have hblank : ¬ Blanks "1 +  ".toList := fun h => absurd (h '1' (by decide)) (by decide)
  obtain ⟨hexpr, hlines⟩ := rejected_marks_one_piece
  obtain ⟨front, mnemonic, between, operand, after, hsplit, -, -, -, -, -, -, hblames⟩ :=
    (hlines _ _ hline).second (by cbv)
  refine ⟨hline, ⟨front, mnemonic, between, operand, after, hsplit, hblames⟩, hparse, ?_⟩
  rcases hexpr _ _ _ hparse with ⟨hdeep, -⟩ | ⟨c, hc, hmarks⟩
  · cases hdeep
  · obtain rfl := Failure.complaint.inj hc
    obtain ⟨us, t, vs, before, after, hcut, hbefore, hblames, hlast⟩ :=
      hmarks.token (Token.not_stuck_of_scan hscan) hblank
    obtain rfl := hlast rfl
    exact ⟨us, t, before, after, hcut, hbefore, hblames⟩

end Expr

end Calculator
