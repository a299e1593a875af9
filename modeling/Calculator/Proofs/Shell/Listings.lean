import Calculator.Proofs.Expr.Printing
import Calculator.Proofs.Program.Listing
import Calculator.Proofs.Shell.Conversation
import Calculator.Proofs.Shell.Resting
import Calculator.Proofs.Token.Characters

/-!
Listings that the shell shows.  A session that shows programs answers a line with the listing of its
expression, or it reports a failure, and no report looks like a listing.  The command that shows
programs lists its argument as it stands, in whatever session: no comment is cut from it.  So of a
line that is answered with a listing the command shows the same listing just if the line has no
comment.
-/
namespace Calculator

/-! ### Reports and listings -/

/-- What the report of an error can begin with. -/
def Reporter.fronts : List String :=
  ["Traceback:\n", "[internal] ", "error: ", Ink.error.opening]

theorem Traceback.text_cases (t : Traceback) :
    t.text = "" ∨ ∃ rest, t.text = "Traceback:\n" ++ rest := by
  rw [text]
  split
  · exact .inl rfl
  · exact .inr ⟨_, rfl⟩

theorem Reporter.exists_label (coloured internal : Bool) :
    ∃ front ∈ fronts, ∃ rest,
      (if internal then Ink.error.paint coloured "[internal] " else "") ++
        Ink.error.paint coloured "error: " = front ++ rest := by
  cases coloured with
  | true =>
      refine ⟨Ink.error.opening, by decide, ?_⟩
      cases internal with
      | true =>
          simp only [Ink.paint, ↓reduceIte, String.append_assoc]
          exact ⟨_, rfl⟩
      | false => exact ⟨_, String.append_assoc⟩
  | false =>
      cases internal with
      | true => exact ⟨"[internal] ", by decide, "error: ", rfl⟩
      | false => exact ⟨"error: ", by decide, "", rfl⟩

theorem Reporter.exists_front (r : Reporter) (report : Report) :
    ∃ front ∈ fronts, ∃ rest, r.errorText report = front ++ rest := by
  rw [errorText]
  rcases r.traceback.text_cases with htext | ⟨rest, htext⟩
  · obtain ⟨front, hfront, rest, hlabel⟩ := exists_label r.coloured report.internal
    rw [htext, String.empty_append, hlabel]
    simp only [String.append_assoc]
    exact ⟨front, hfront, _, rfl⟩
  · refine ⟨"Traceback:\n", by decide, ?_⟩
    rw [htext]
    simp only [String.append_assoc]
    exact ⟨_, rfl⟩

/-- A listing begins with a blank or a digit; that of no instructions is an empty line. -/
theorem Program.exists_head (p : Program) :
    ∃ c rest, (p.display ++ "\n").toList = c :: rest ∧
      (c = '\n' ∨ c = ' ' ∨ c.isDigit = true) := by
  have hline : ∀ width index d, ∃ c rest, (numberedLine width index d).toList = c :: rest ∧
      (c = ' ' ∨ c.isDigit = true) := by
    intro width index d
    have hdigits := Nat.length_toDigits_pos (b := 10) (n := index)
    rw [toList_numberedLine]
    cases hfill : List.replicate (width - (Nat.toDigits 10 index).length) ' ' with
    | nil =>
        obtain ⟨c, cs, hcs⟩ := List.exists_cons_of_length_pos hdigits
        refine ⟨c, _, by rw [hcs]; rfl, .inr ?_⟩
        have hc : c ∈ Nat.toDigits 10 index := by
          rw [hcs]
          exact List.mem_cons_self
        exact Nat.isDigit_of_mem_toDigits (by decide) (by decide) hc
    | cons b bs =>
        have hb : b ∈ List.replicate (width - (Nat.toDigits 10 index).length) ' ' := by
          rw [hfill]
          exact List.mem_cons_self
        exact ⟨b, _, rfl, .inl (List.eq_of_mem_replicate hb)⟩
  rw [display]
  cases p.items with
  | nil => exact ⟨'\n', [], by simp [numberedLines], .inl rfl⟩
  | cons d ds =>
      obtain ⟨c, rest, hfirst, hc⟩ := hline (indexWidth p.size) 0 d
      rw [numberedLines, String.toList_append, String.toList_intercalate, List.map_cons, hfirst]
      cases (numberedLines (indexWidth p.size) 1 ds).map String.toList with
      | nil => exact ⟨c, _, rfl, .inr hc⟩
      | cons line lines => exact ⟨c, _, rfl, .inr hc⟩

/-- No report of an error looks like a listing. -/
theorem Reporter.errorText_ne_listing (r : Reporter) (report : Report) (p : Program) :
    r.errorText report ≠ p.display ++ "\n" := by
  obtain ⟨front, hfront, rest, hreport⟩ := r.exists_front report
  obtain ⟨c, cs, hlisting, hc⟩ := p.exists_head
  intro heq
  have hhead : ∀ front ∈ fronts, ∃ c cs, front.toList = c :: cs ∧ c ≠ '\n' ∧ c ≠ ' ' ∧
      c.isDigit = false := by
    intro front hfront
    fin_cases hfront
    all_goals exact ⟨_, _, rfl, by decide, by decide, by decide⟩
  obtain ⟨c', cs', hfront', hend, hblank, hdigit⟩ := hhead front hfront
  rw [← heq, hreport, String.toList_append, hfront'] at hlisting
  obtain rfl := (List.cons.inj hlisting).1
  rcases hc with hc | hc | hc
  · exact hend hc
  · exact hblank hc
  · rw [hdigit] at hc
    cases hc

theorem Reporter.failureText_ne_listing (r : Reporter) {f : Failure} (h : f.Usual) (p : Program) :
    r.failureText f ≠ p.display ++ "\n" := by
  obtain ⟨report, hreport, -⟩ := h.exists_report
  rw [failureText, hreport]
  exact r.errorText_ne_listing report p

open Shell (Command)
open Text (Blanks trimmed)

variable {v : View} {sh : Shell} {line source : String} {p : Program} {f : Failure}
  {coloured : Bool}

/-! ### A line in a session that shows programs -/

/-- A session that shows programs answers a text with its listing. -/
theorem Setting.answer_of_emitting {g : Setting} (h : g.emitting = true) (text : String)
    (number : Nat) :
    g.answer text number =
      match View.listing text with
      | .ok shown => shown ++ "\n"
      | .error f => (g.reporter (some text) (some number)).failureText f := by
  simp only [answer, lineResult, View.listing, shown, h, ↓reduceIte]
  cases Expr.parse text with
  | error f => exact String.empty_append
  | ok e =>
      simp only
      cases e.compile with
      | error f => exact String.empty_append
      | ok p => exact String.empty_append

namespace View

/-- A text with a listing is complete, and is not empty. -/
theorem complete_of_listing {text shown : String} (h : listing text = .ok shown) :
    LogicalLine.isOpen text = false ∧ text.isEmpty = false := by
  rw [listing] at h
  cases hparse : Expr.parse text with
  | error f =>
      rw [hparse] at h
      cases h
  | ok e =>
      refine ⟨Expr.isOpen_of_parse hparse, ?_⟩
      rw [Bool.eq_false_iff]
      intro hempty
      rw [String.isEmpty_iff] at hempty
      subst hempty
      have hscan : Token.scan "" = .ok [] := by cbv
      rw [Expr.parse, Expr.parseWithin, hscan] at hparse
      cases hparse

/-- The line is answered with a listing just if that is the one of its text. -/
theorem expression_eq_listing_iff (hemitting : v.setting.emitting = true) :
    (v.expression line).1 = p.display ++ "\n" ↔ listing (v.text line) = .ok p.display := by
  have hnothing : "" ≠ p.display ++ "\n" := by
    intro heq
    have hlength := congrArg (fun s => s.toList.length) heq
    simp at hlength
  constructor
  · intro h
    rw [expression] at h
    split at h
    · exact absurd h hnothing
    · simp only at h
      split at h
      · exact absurd h hnothing
      · rw [Setting.answer_of_emitting hemitting] at h
        cases hlisting : listing (v.text line) with
        | ok shown =>
            simp only [hlisting] at h
            rw [(String.append_left_inj "\n").mp h]
        | error f =>
            simp only [hlisting] at h
            exact absurd h (Reporter.failureText_ne_listing _ (usual_of_listing hlisting) p)
  · intro h
    obtain ⟨hopen, hempty⟩ := complete_of_listing h
    simp only [expression, hopen, hempty, Bool.false_eq_true, ↓reduceIte,
      Setting.answer_of_emitting hemitting, h]

/-- In a shell that waits for no text the text of a line is the line without its comment. -/
theorem text_of_not_pending (h : v.pending = "") (line : String) :
    v.text (trimmed line) = LogicalLine.clean line := by
  rw [text, h, LogicalLine.clean_trimmed]

end View

namespace Shell

/-! ### The command that shows programs -/

/-- A line that begins with the name of the command is the name and the argument, or just the name,
once it is trimmed. -/
theorem exists_trim_emit (cs : List Char) :
    ∃ rest, Text.trim ('e' :: 'm' :: 'i' :: 't' :: ' ' :: cs) = 'e' :: 'm' :: 'i' :: 't' :: rest ∧
      (∀ c ∈ rest.head?, c = ' ') ∧ Text.trim rest = Text.trim cs := by
  have hblank : Blanks [' '] := List.forall_mem_singleton.mpr rfl
  obtain ⟨bs, hbs, hsplit⟩ := Text.exists_trimRight cs
  by_cases hempty : Text.trimRight cs = []
  · rw [hempty, List.nil_append] at hsplit
    have hblanks : Blanks (' ' :: cs) := by
      rw [hsplit]
      exact List.forall_mem_cons.mpr ⟨rfl, hbs⟩
    refine ⟨[], ?_, by simp, ?_⟩
    · exact (Text.trim_append_right hblanks ['e', 'm', 'i', 't']).trans (by decide)
    · have hnone := Text.trim_append_left hbs []
      rw [List.append_nil, ← hsplit] at hnone
      exact hnone.symm
  · have hflush : Text.Flush ('e' :: 'm' :: 'i' :: 't' :: ' ' :: cs) := by
      intro c hc
      obtain rfl : 'e' = c := by simpa using hc
      decide
    refine ⟨' ' :: Text.trimRight cs, ?_, by simp, ?_⟩
    · rw [Text.trim_of_flush hflush]
      exact Text.trimRight_append_of_ne_nil ['e', 'm', 'i', 't', ' '] hempty
    · have hleft := Text.trim_append_left hblank (Text.trimRight cs)
      have hright := Text.trim_append_right hbs (Text.trimRight cs)
      rw [← hsplit] at hright
      exact hleft.trans hright.symm

/-- The command takes the rest of its line, without the blanks at its ends. -/
theorem Command.ofLine_emit (line : String) :
    ofLine ("emit " ++ line) = .emit (trimmed line) := by
  obtain ⟨rest, htrim, hspace, hargument⟩ := exists_trim_emit line.toList
  have hword : ('e' :: 'm' :: 'i' :: 't' :: rest).takeWhile isNameChar = ['e', 'm', 'i', 't'] ∧
      ('e' :: 'm' :: 'i' :: 't' :: rest).dropWhile isNameChar = rest := by
    cases rest with
    | nil => decide
    | cons c rest =>
        obtain rfl := hspace c rfl
        exact ⟨rfl, rfl⟩
  have hline : Text.trim ("emit " ++ line).toList = 'e' :: 'm' :: 'i' :: 't' :: rest := by
    rw [String.toList_append]
    exact htrim
  unfold ofLine
  rw [hline]
  change ofName (String.ofList (('e' :: 'm' :: 'i' :: 't' :: rest).takeWhile isNameChar))
    (String.ofList (Text.trim (('e' :: 'm' :: 'i' :: 't' :: rest).dropWhile isNameChar))) _ = _
  rw [hword.1, hword.2, hargument]
  rfl

/-- Whatever the shell, the command prints a listing or the report of why there is none. -/
theorem printed_emit (sh : Shell) (source : String) :
    ((emit source).run sh).printed =
      match View.listing source with
      | .ok text => text ++ "\n"
      | .error f => sh.session.reporter.failureText f := by
  have hprogram := View.run_printProgram source sh
  rw [emit, guarded]
  cases hlisting : View.listing source with
  | ok text =>
      rw [hlisting] at hprogram
      rw [Action.run_settling_of_ok hprogram]
  | error f =>
      rw [hlisting] at hprogram
      obtain ⟨report, hreport, hdrawn⟩ := (View.usual_of_listing hlisting).exists_report
      have hprinted := printed_guarded (congrArg Outcome.result hprogram) hreport hdrawn
      rw [hprogram, String.empty_append] at hprinted
      simp only [Reporter.failureText, hreport]
      exact hprinted

theorem printed_takeLine_emit (sh : Shell) (line : String) :
    ((takeLine ("emit " ++ line)).run sh).printed =
      match View.listing (trimmed line) with
      | .ok text => text ++ "\n"
      | .error f => sh.session.reporter.failureText f := by
  rw [takeLine, Command.ofLine_emit, ← printed_emit]
  exact Action.printed_bind_pure _ _ _

/-- There is no listing of a text with a comment. -/
theorem exists_listing_error (h : ¬ LogicalLine.CommentFree line.toList) :
    ∃ f, View.listing (trimmed line) = .error f := by
  have hmem : ';' ∈ line.toList := by
    have hcomment : [';', ';'] <:+: line.toList := not_not.mp h
    exact hcomment.subset List.mem_cons_self
  rw [View.listing]
  cases hparse : Expr.parse (trimmed line) with
  | error f => exact ⟨f, rfl⟩
  | ok e =>
      have hkept : ';' ∈ (trimmed line).toList := by
        rw [trimmed, String.toList_ofList]
        exact Text.mem_trim hmem (by decide)
      rcases Expr.mem_of_parse hparse hkept with hblank | hletter | hsymbol
      · exact absurd hblank (by decide)
      · exact absurd hletter (by decide)
      · exact absurd hsymbol (by decide)

/-- The command prints the listing of a line just if the line has no comment. -/
theorem printed_takeLine_emit_iff (h : View.listing (LogicalLine.clean line) = .ok p.display)
    (sh : Shell) :
    ((takeLine ("emit " ++ line)).run sh).printed = p.display ++ "\n" ↔
      LogicalLine.CommentFree line.toList := by
  rw [printed_takeLine_emit]
  constructor
  · intro hprinted
    by_contra hcomment
    obtain ⟨f, hf⟩ := exists_listing_error hcomment
    simp only [hf] at hprinted
    exact Reporter.failureText_ne_listing _ (View.usual_of_listing hf) p hprinted
  · intro hfree
    have hclean : LogicalLine.clean line = trimmed line := by
      rw [LogicalLine.clean, LogicalLine.cutComment_of_commentFree hfree, trimmed]
    rw [hclean] at h
    simp only [h]

/-! ### The command and the session -/

/-- A line that is taken as an expression is taken without the blanks at its ends. -/
theorem ofLine_of_isExpression (h : isExpression line = true) :
    Command.ofLine line = .expression (trimmed line) := by
  have hname : ∀ {name argument source text},
      Command.ofName name argument source = .expression text → text = source := by
    intro name argument source text hcommand
    unfold Command.ofName at hcommand
    split at hcommand <;> cases hcommand
    rfl
  obtain ⟨source, hsource⟩ : ∃ source, Command.ofLine line = .expression source := by
    unfold isExpression at h
    split at h
    · rename_i source hsource
      exact ⟨source, hsource⟩
    · cases h
  rw [hsource]
  unfold Command.ofLine at hsource
  split at hsource
  · cases hsource
  · cases hsource
  · exact congrArg Command.expression (hname hsource)

theorem printed_takeLine_of_isExpression {stack : Stack} (h : v.setting.Fits stack)
    (hline : isExpression line = true) :
    ((takeLine line).run (v.shell stack)).printed = (v.expression (trimmed line)).1 := by
  obtain ⟨t, -, hrun⟩ := View.run_takeLine h line
  rw [hrun, ofLine_of_isExpression hline]
  simp only [View.take]

/-- A shell that shows programs and waits for no text answers a line with a listing just if that is
the listing of the line without its comment. -/
theorem Reached.printed_eq_listing_iff (h : Reached coloured sh)
    (hemitting : sh.session.emitting = true) (hpending : sh.pending = "")
    (hline : isExpression line = true) :
    ((takeLine line).run sh).printed = p.display ++ "\n" ↔
      View.listing (LogicalLine.clean line) = .ok p.display := by
  obtain ⟨v, stack, -, hfits, rfl⟩ := h.exists_view
  have hemits : v.setting.emitting = true := hemitting
  have hwaits : v.pending = "" := hpending
  rw [printed_takeLine_of_isExpression hfits hline, ← View.text_of_not_pending hwaits line]
  exact View.expression_eq_listing_iff hemits

/-- Main result: if a shell that shows programs and waits for no text answers a line of an
expression with a listing, then the command that shows programs prints the same listing for that
line, in whatever shell, just if the line has no comment. -/
theorem emit_eq_listing_iff (h : Reached coloured sh) (hemitting : sh.session.emitting = true)
    (hpending : sh.pending = "") (hline : isExpression line = true)
    (hprinted : ((takeLine line).run sh).printed = p.display ++ "\n") (sh' : Shell) :
    ((takeLine ("emit " ++ line)).run sh').printed = p.display ++ "\n" ↔
      LogicalLine.CommentFree line.toList :=
  printed_takeLine_emit_iff ((h.printed_eq_listing_iff hemitting hpending hline).mp hprinted) sh'

/-- A shell that shows programs and was just started. -/
def emittingShell : Shell :=
  View.shell ⟨⟨false, .vm, none, true⟩, "", 0⟩ .growing

theorem reached_emittingShell : Reached false emittingShell := by
  have hstart : ((Session.start (fun _ => none)
      { path := Session.interactivePath, interactive := true, emitting := true }).run
        ⟨true, false, []⟩).result = .ok emittingShell.session := rfl
  exact .start rfl rfl rfl hstart

/-- The program that pushes one. -/
def pushOne : Program :=
  .ofInstrs [.push (Binary64.ofWord false 4607182418800017408)]

theorem display_pushOne : pushOne.display = "0  push 1" := by
  decide +kernel

theorem listing_one : View.listing "1" = .ok pushOne.display := by
  have htext : (Expr.literal (Binary64.ofWord false 4607182418800017408)).text = "1" := by
    decide +kernel
  have hparse : Expr.parse "1" =
      .ok (.literal (Binary64.ofWord false 4607182418800017408)) := by
    have hone : (Expr.literal (Binary64.ofWord false 4607182418800017408)).WellFormed := trivial
    rw [← htext]
    exact Expr.parseWithin_text hone (by decide)
  rw [View.listing, hparse]
  rfl

/-- A one with a comment is listed in a session that shows programs, but not by the command. -/
theorem comment_not_emitted :
    isExpression "1 ;; one" = true ∧
      ((takeLine "1 ;; one").run emittingShell).printed = "0  push 1\n" ∧
      ∀ sh, ((takeLine "emit 1 ;; one").run sh).printed ≠ "0  push 1\n" := by
  have hline : isExpression "1 ;; one" = true := by decide
  have hclean : LogicalLine.clean "1 ;; one" = "1" := by decide
  have hlisting : View.listing (LogicalLine.clean "1 ;; one") = .ok pushOne.display := by
    rw [hclean, listing_one]
  have hprinted := (reached_emittingShell.printed_eq_listing_iff rfl rfl hline).mpr hlisting
  have hcomment : ¬ LogicalLine.CommentFree "1 ;; one".toList :=
    not_not.mpr ⟨['1', ' '], " one".toList, rfl⟩
  rw [display_pushOne] at hprinted
  refine ⟨hline, hprinted, ?_⟩
  intro sh hemitted
  apply hcomment
  rw [← printed_takeLine_emit_iff hlisting sh, display_pushOne]
  exact hemitted

/-- Without a comment the command lists the one as well, whatever the shell. -/
theorem emit_eq_listing_iff_one :
    Reached false emittingShell ∧ emittingShell.session.emitting = true ∧
      emittingShell.pending = "" ∧ isExpression " 1" = true ∧
      ((takeLine " 1").run emittingShell).printed = "0  push 1\n" ∧
      ∀ sh, ((takeLine "emit  1").run sh).printed = "0  push 1\n" := by
  have hline : isExpression " 1" = true := by decide
  have hclean : LogicalLine.clean " 1" = "1" := by decide
  have hlisting : View.listing (LogicalLine.clean " 1") = .ok pushOne.display := by
    rw [hclean, listing_one]
  have hprinted := (reached_emittingShell.printed_eq_listing_iff rfl rfl hline).mpr hlisting
  have hfree : LogicalLine.CommentFree " 1".toList :=
    fun hcomment => absurd (hcomment.subset List.mem_cons_self) (by decide)
  have hemitted := fun sh =>
    (emit_eq_listing_iff reached_emittingShell rfl rfl hline hprinted sh).mpr hfree
  rw [display_pushOne] at hprinted
  simp only [display_pushOne] at hemitted
  exact ⟨reached_emittingShell, rfl, rfl, hline, hprinted, hemitted⟩

end Shell

end Calculator
