import Calculator.Proofs.Report.Drawing

/-!
Colour as decoration.  A coloured text is the plain one with control sequences in it; it is put
together from plain texts and from texts that are set between two control sequences, so leaving the
control sequences out gives the plain text, whatever stands around it.  What the reporter prints
with colour is what it prints without, and otherwise colour makes no difference to it.
-/
namespace Calculator

namespace Ink

/-- The characters that a terminal shows: control sequences, each of which goes from an escape
character to the next `m`, are left out.  `inside` says whether one has begun. -/
def visible (inside : Bool) : List Char → List Char
  | [] => []
  | c :: cs =>
    if inside then visible (c != 'm') cs
    else if c == '\x1b' then visible true cs
    else c :: visible false cs

/-- The text without its control sequences. -/
def erased (s : String) : String :=
  String.ofList (visible false s.toList)

/-- No control sequence begins in the text. -/
def Plain (s : String) : Prop :=
  '\x1b' ∉ s.toList

instance (s : String) : Decidable (Plain s) :=
  inferInstanceAs (Decidable ('\x1b' ∉ s.toList))

/-- Without its control sequences the first text is the second one, whatever follows it. -/
def Decorates (s t : String) : Prop :=
  ∀ rest, visible false (s.toList ++ rest) = t.toList ++ visible false rest

variable {s s' t t' : String}

theorem Decorates.erased_eq (h : Decorates s t) : erased s = t := by
  have hshown := h []
  simp only [visible, List.append_nil] at hshown
  rw [erased, hshown, String.ofList_toList]

theorem Decorates.append (h : Decorates s t) (h' : Decorates s' t') :
    Decorates (s ++ s') (t ++ t') := by
  intro rest
  simp only [String.toList_append, List.append_assoc, h (s'.toList ++ rest), h' rest]

theorem visible_append_of_notMem {cs : List Char} (h : '\x1b' ∉ cs) (rest : List Char) :
    visible false (cs ++ rest) = cs ++ visible false rest := by
  induction cs with
  | nil => rfl
  | cons c cs ih =>
      simp only [List.mem_cons, not_or] at h
      have hother : c ≠ '\x1b' := fun heq => h.1 heq.symm
      simp [visible, hother, ih h.2]

theorem Plain.decorates (h : Plain s) : Decorates s s :=
  visible_append_of_notMem h

theorem decorates_opening (ink : Ink) : Decorates ink.opening "" := by
  intro rest
  cases ink <;> rfl

theorem decorates_closing : Decorates closing "" := by
  intro rest
  rfl

/-- A plain text with emphasis is decorated, and so is one without. -/
theorem Plain.paint (h : Plain s) (coloured : Bool) (ink : Ink) :
    Decorates (ink.paint coloured s) s := by
  cases coloured with
  | false => exact h.decorates
  | true =>
      have hpainted := ((decorates_opening ink).append h.decorates).append decorates_closing
      rw [String.empty_append, String.append_empty] at hpainted
      exact hpainted

theorem Plain.append (h : Plain s) (h' : Plain s') : Plain (s ++ s') := by
  simpa [Plain] using ⟨h, h'⟩

theorem plain_join {ss : List String} (h : ∀ s ∈ ss, Plain s) : Plain (String.join ss) := by
  induction ss with
  | nil => simp [Plain]
  | cons s ss ih =>
      rw [String.join_cons]
      rw [List.forall_mem_cons] at h
      exact h.1.append (ih h.2)

theorem plain_ofList {cs : List Char} (h : '\x1b' ∉ cs) : Plain (String.ofList cs) := by
  simpa [Plain] using h

theorem plain_natText (n : Nat) : Plain (Layout.natText n) := by
  apply plain_ofList
  intro hmem
  have hdigit := Nat.isDigit_of_mem_toDigits (by decide) (by decide) hmem
  simp at hdigit

theorem plain_intText (n : Int) : Plain (Layout.intText n) := by
  have hminus : Plain "-" := by decide
  rw [Layout.intText]
  split
  · exact hminus.append (plain_natText _)
  · exact plain_natText _

end Ink

open Ink (Decorates)

/-! ### Templates -/

/-- No control sequence begins in the piece, if it is a text. -/
def Piece.Plain : Piece → Prop
  | .text s => Ink.Plain s
  | .snippet _ => True

instance : DecidablePred Piece.Plain
  | .text s => inferInstanceAs (Decidable (Ink.Plain s))
  | .snippet _ => isTrue trivial

namespace Template

variable {count : Nat} {c : Char} {cs : List Char} {s : String} {t : Template}

/-- No control sequence begins in a text of the template. -/
def Plain (t : Template) : Prop :=
  ∀ piece ∈ t, piece.Plain

instance (t : Template) : Decidable t.Plain :=
  inferInstanceAs (Decidable (∀ piece ∈ t, piece.Plain))

theorem plain_nil : Plain [] := by
  intro piece hpiece
  cases hpiece

theorem Plain.snippet (h : t.Plain) (index : Nat) : Plain (.snippet index :: t) :=
  List.forall_mem_cons.mpr ⟨trivial, h⟩

theorem Plain.text (h : t.Plain) (hs : Ink.Plain s) : Plain (.text s :: t) :=
  List.forall_mem_cons.mpr ⟨hs, h⟩

theorem Plain.consChar (h : t.Plain) (hc : c ≠ '\x1b') : Plain (consChar c t) := by
  have hsingle : Ink.Plain (String.singleton c) := by
    simpa [Ink.Plain] using hc.symm
  unfold Template.consChar
  split
  · rename_i s t
    obtain ⟨hs, hrest⟩ := List.forall_mem_cons.mp h
    exact Plain.text hrest (hsingle.append hs)
  · exact h.text hsingle

/-- A character that is read stands in front of the rest of the template. -/
theorem plain_of_bind {r : Except Defect Template} (hc : c ≠ '\x1b')
    (hrest : ∀ t, r = .ok t → t.Plain)
    (h : (do return Template.consChar c (← r)) = .ok t) : t.Plain := by
  obtain ⟨t', ht', heq⟩ := exists_of_bind_eq_ok h
  obtain rfl := Except.ok.inj heq
  exact (hrest t' ht').consChar hc

/-- All texts of a template are taken from the text that it is read from. -/
theorem plain_of_readFrom {numbering : Numbering} {gap? : Option (List Char)}
    (hcs : '\x1b' ∉ cs) (h : readFrom count numbering gap? cs = .ok t) : t.Plain := by
  fun_induction readFrom count numbering gap? cs generalizing t with
  | case1 =>
      obtain rfl := Except.ok.inj h
      exact plain_nil
  | case3 numbering c cs number hclosing ih =>
      simp only [List.mem_cons, not_or] at hcs
      obtain ⟨⟨index, numbering'⟩, hindex, hgap⟩ := exists_of_bind_eq_ok h
      obtain ⟨piece, hpiece, hrest⟩ := exists_of_bind_eq_ok hgap
      obtain ⟨t', ht', heq⟩ := exists_of_bind_eq_ok hrest
      obtain rfl := Except.ok.inj heq
      have hsnippet : piece = .snippet index := by
        rw [gap] at hpiece
        split at hpiece
        · exact (Except.ok.inj hpiece).symm
        · cases hpiece
      rw [hsnippet]
      exact (ih numbering' hcs.2 ht').snippet index
  | case5 numbering c cs number hclosing hopening ih =>
      simp only [List.mem_cons, not_or] at hcs
      exact ih hcs.2 h
  | case6 numbering cs ih =>
      simp only [List.mem_cons, not_or] at hcs
      exact plain_of_bind (by decide) (fun t => ih hcs.2.2) h
  | case7 numbering cs ih =>
      simp only [List.mem_cons, not_or] at hcs
      exact plain_of_bind (by decide) (fun t => ih hcs.2.2) h
  | case9 numbering cs _ _ ih =>
      simp only [List.mem_cons, not_or] at hcs
      exact ih hcs.2 h
  | case11 numbering c cs _ _ _ _ _ ih =>
      simp only [List.mem_cons, not_or] at hcs
      exact plain_of_bind (Ne.symm hcs.1) (fun t => ih hcs.2) h
  | case2 | case4 | case8 | case10 => cases h

end Template

/-! ### Reports -/

namespace Report

variable {report : Report} {text : String} {snippets : List String} {start stop : Int}
  {diagnosed internal : Bool}

/-- No control sequence begins in the texts of the report. -/
structure Plain (report : Report) : Prop where
  template : report.template.Plain
  snippets : ∀ s ∈ report.snippets, Ink.Plain s

/-- A report is plain if it is made of plain texts. -/
theorem plain_of_make (htext : Ink.Plain text) (hsnippets : ∀ s ∈ snippets, Ink.Plain s)
    (h : make text snippets start stop diagnosed internal = .ok report) : report.Plain := by
  unfold make at h
  split at h
  · cases h
  · cases h
  · rename_i template subject rest hread
    obtain rfl := Except.ok.inj h
    exact ⟨Template.plain_of_readFrom htext hread, hsnippets⟩

/-- The wording of a complaint is plain, unless a program that uses the library makes it up. -/
theorem plain_template_of_complaint {c : Complaint} (h : ∀ stated, c ≠ .stated stated) :
    c.report.template.Plain := by
  cases c with
  | stated report => exact absurd rfl (h report)
  -- What a complaint is about stands in its snippets, so its template is the same for all data.
  | _ =>
      simp [Complaint.report, Complaint.blaming, Complaint.quotedSnippet, unmarked, onWhole,
        Template.plain, Template.Plain, Piece.Plain, Ink.Plain]

theorem plain_template_of_failure {f : Failure} (h : ∀ stated, f ≠ .complaint (.stated stated))
    (hreport : f.report? = some report) : report.template.Plain := by
  cases f with
  | complaint c =>
      obtain rfl := Option.some.inj hreport
      apply plain_template_of_complaint
      rintro stated rfl
      exact h stated rfl
  | exit code => cases hreport
  | nestsTooDeeply | interrupted | internal i =>
      obtain rfl := Option.some.inj hreport
      exact of_decide_eq_true rfl

theorem Plain.subject (h : report.Plain) : Ink.Plain report.subject := by
  rw [Report.subject]
  cases hsnippets : report.snippets with
  | nil => simp [Ink.Plain]
  | cons s ss =>
      apply h.snippets
      rw [hsnippets]
      exact List.mem_cons_self

theorem Plain.undrawn (h : report.Plain) : report.undrawn.Plain :=
  ⟨h.template, h.snippets⟩

/-- The snippets of a message are set in bold, each in its gap. -/
theorem decorates_fill (t : Template) (coloured : Bool)
    (htexts : t.Plain) (hsnippets : ∀ s ∈ snippets, Ink.Plain s) :
    Decorates (t.fill (Ink.bold.paint coloured) snippets) (t.fill id snippets) := by
  induction t with
  | nil =>
      intro rest
      rfl
  | cons piece t ih =>
      obtain ⟨hplain, hrest⟩ := List.forall_mem_cons.mp htexts
      have hpiece : Decorates (piece.fill (Ink.bold.paint coloured) snippets)
          (piece.fill id snippets) := by
        cases piece with
        | text s => exact Ink.Plain.decorates hplain
        | snippet index =>
            simp only [Piece.fill]
            cases hsnippet : snippets[index]? with
            | none =>
                intro rest
                rfl
            | some s => exact (hsnippets s (List.mem_of_getElem? hsnippet)).paint coloured .bold
      simp only [Template.fill, List.map_cons, String.join_cons]
      exact hpiece.append (ih hrest)

theorem Plain.decorates_styled (h : report.Plain) (coloured : Bool) :
    Decorates (report.styled coloured) report.message :=
  decorates_fill report.template coloured h.template h.snippets

theorem plain_slice {cs : List Char} (h : '\x1b' ∉ cs) (i j : Int) :
    Ink.Plain (String.ofList (slice cs i j)) := by
  apply Ink.plain_ofList
  intro hmem
  exact h (List.mem_of_mem_take (List.mem_of_mem_drop hmem))

/-- The span and the marks below it are in colour, and nothing else. -/
theorem Plain.decorates_diagnosis (h : report.Plain) (coloured warning : Bool) :
    Decorates (report.diagnosis coloured warning) (report.diagnosis false warning) := by
  have hmargin : Ink.Plain "  " := by decide
  have hend : Ink.Plain "\n" := by decide
  have hblanks : Ink.Plain (String.ofList (List.replicate report.start.toNat ' ')) :=
    Ink.plain_ofList (by simp [List.mem_replicate])
  have hmarks : Ink.Plain (String.ofList
      ('^' :: List.replicate (report.markedStop - report.start - 1).toNat '~')) :=
    Ink.plain_ofList (by simp [List.mem_replicate])
  have hslice := plain_slice h.subject
  simp only [diagnosis, Ink.paint_false]
  exact ((((((hmargin.append (hslice _ _)).decorates.append ((hslice _ _).paint _ _)).append
    (hslice _ _).decorates).append hend.decorates).append hmargin.decorates).append
      hblanks.decorates).append (hmarks.paint _ _)

theorem Plain.erased_draw (h : report.Plain) (coloured warning : Bool) :
    (report.draw coloured warning).map Ink.erased = report.draw false warning := by
  rw [draw, draw]
  cases report.spanFault? with
  | some i => rfl
  | none => exact congrArg Except.ok (h.decorates_diagnosis coloured warning).erased_eq

end Report

/-! ### Tracebacks -/

namespace Traceback

variable {t : Traceback}

/-- No control sequence begins in a path or a line. -/
def Plain (t : Traceback) : Prop :=
  ∀ p ∈ t, Ink.Plain p.path ∧ ∀ line ∈ p.line, Ink.Plain line

instance (t : Traceback) : Decidable t.Plain :=
  inferInstanceAs (Decidable (∀ p ∈ t, Ink.Plain p.path ∧ ∀ line ∈ p.line, Ink.Plain line))

theorem plain_numberText (number : Option Int) : Ink.Plain (numberText number) := by
  cases number with
  | none => decide
  | some n => exact Ink.plain_intText n

theorem plain_placeText {p : Place} (hpath : Ink.Plain p.path)
    (hline : ∀ line ∈ p.line, Ink.Plain line) : Ink.Plain (placeText p) := by
  have hfile : Ink.Plain "  File '" := by decide
  have hnumber : Ink.Plain "', line " := by decide
  have hbreak : Ink.Plain ":\n    " := by decide
  have hend : Ink.Plain "\n" := by decide
  rw [placeText]
  split
  · rename_i line hshown
    split
    · decide
    · exact ((((((hfile.append hpath).append hnumber).append (plain_numberText _)).append
        hbreak).append (hline line hshown)).append hend)
  · decide

theorem Plain.text (h : t.Plain) : Ink.Plain t.text := by
  have hshown : Ink.Plain (String.join (t.map placeText)) := by
    apply Ink.plain_join
    intro s hs
    obtain ⟨p, hp, rfl⟩ := List.mem_map.mp hs
    exact plain_placeText (h p hp).1 (h p hp).2
  have hheading : Ink.Plain "Traceback:\n" := by decide
  rw [Traceback.text]
  split
  · decide
  · exact hheading.append hshown

theorem Plain.location (h : t.Plain) : Ink.Plain t.location := by
  have hcolon : Ink.Plain ":" := by decide
  have hend : Ink.Plain ": " := by decide
  rw [Traceback.location]
  split
  · rename_i p hfound
    have hp : p ∈ t := List.mem_reverse.mp (List.mem_of_find?_eq_some hfound)
    exact (((h p hp).1.append hcolon).append (plain_numberText _)).append hend
  · decide

end Traceback

/-! ### What the reporter prints -/

namespace Reporter

variable {r : Reporter} {report : Report}

/-- The reporter without colour. -/
def uncoloured (r : Reporter) : Reporter :=
  { r with coloured := false }

theorem decorates_diagnosisText (r : Reporter) (h : report.Plain) (warning : Bool) :
    Decorates (r.diagnosisText warning report) (r.uncoloured.diagnosisText warning report) := by
  have hend : Ink.Plain "\n" := by decide
  have hnothing : Ink.Plain "" := by decide
  rw [diagnosisText, diagnosisText]
  split
  · exact (h.decorates_diagnosis r.coloured warning).append hend.decorates
  · exact hnothing.decorates

theorem decorates_styled (r : Reporter) (h : report.Plain) :
    Decorates (report.styled r.coloured) (report.styled r.uncoloured.coloured) :=
  h.decorates_styled r.coloured

theorem decorates_warningText (h : r.traceback.Plain) (hreport : report.Plain) :
    Decorates (r.warningText report) (r.uncoloured.warningText report) := by
  have hlabel : Ink.Plain "warning: " := by decide
  have hend : Ink.Plain "\n" := by decide
  exact ((((h.location.paint r.coloured .bold).append (hlabel.paint r.coloured .warning)).append
    (r.decorates_styled hreport)).append hend.decorates).append
      (r.decorates_diagnosisText hreport true)

theorem decorates_errorText (h : r.traceback.Plain) (hreport : report.Plain) :
    Decorates (r.errorText report) (r.uncoloured.errorText report) := by
  have hinternal : Ink.Plain "[internal] " := by decide
  have hlabel : Ink.Plain "error: " := by decide
  have hend : Ink.Plain "\n" := by decide
  have hnothing : Ink.Plain "" := by decide
  have hmark : Decorates
      (if report.internal then Ink.error.paint r.coloured "[internal] " else "")
      (if report.internal then Ink.error.paint r.uncoloured.coloured "[internal] " else "") := by
    split
    · exact hinternal.paint r.coloured .error
    · exact hnothing.decorates
  exact ((((h.text.decorates.append hmark).append (hlabel.paint r.coloured .error)).append
    (r.decorates_styled hreport)).append hend.decorates).append
      (r.decorates_diagnosisText hreport false)

/-- The first outcome is the second one with control sequences in what was printed. -/
structure Decorated (o o' : Outcome Reporter Unit) : Prop where
  printed_eq : Ink.erased o.printed = o'.printed
  state_eq : o.state.uncoloured = o'.state
  result_eq : o.result = o'.result

theorem decorated_warn (h : r.traceback.Plain) (hreport : report.Plain) :
    Decorated ((warn report).run r) ((warn report).run r.uncoloured) := by
  cases hfault : report.drawingFault? with
  | some i =>
      rw [run_warn_of_fault hfault, run_warn_of_fault hfault]
      exact ⟨(decorates_warningText h hreport.undrawn).erased_eq, rfl, rfl⟩
  | none =>
      rw [run_warn hfault, run_warn hfault]
      exact ⟨(decorates_warningText h hreport).erased_eq, rfl, rfl⟩

theorem decorated_throw (h : r.traceback.Plain) (hreport : report.Plain) :
    Decorated ((throw report).run r) ((throw report).run r.uncoloured) := by
  cases hfault : report.drawingFault? with
  | some i =>
      rw [run_throw_of_fault hfault, run_throw_of_fault hfault]
      exact ⟨(decorates_errorText h hreport.undrawn).erased_eq, rfl, rfl⟩
  | none =>
      have hprinted := (decorates_errorText h hreport).erased_eq
      have hfatal : r.uncoloured.fatal = r.fatal := rfl
      rw [run_throw hfault, run_throw hfault, hfatal]
      split
      · exact ⟨hprinted, rfl, rfl⟩
      · exact ⟨hprinted, rfl, rfl⟩

end Reporter

namespace Report

open Reporter (Decorated)

/-- Colour makes no difference to what is shown of the report, but for control sequences. -/
structure ColourDecorates (r : Report) : Prop where
  message : ∀ coloured, Ink.erased (r.styled coloured) = r.message
  drawing : ∀ coloured warning, (r.draw coloured warning).map Ink.erased = r.draw false warning
  warning : ∀ reporter : Reporter, reporter.traceback.Plain →
    Decorated ((Reporter.warn r).run reporter) ((Reporter.warn r).run reporter.uncoloured)
  error : ∀ reporter : Reporter, reporter.traceback.Plain →
    Decorated ((Reporter.throw r).run reporter) ((Reporter.throw r).run reporter.uncoloured)

theorem Plain.colourDecorates {r : Report} (h : r.Plain) : r.ColourDecorates where
  message := fun coloured => (h.decorates_styled coloured).erased_eq
  drawing := h.erased_draw
  warning := fun _ htraceback => Reporter.decorated_warn htraceback h
  error := fun _ htraceback => Reporter.decorated_throw htraceback h

/-- Main result: a span that begins within or behind a subject of one line is drawn in two lines,
the subject and marks below the columns of the span, if there is room for the blanks and the marks;
and the marks below a rejected text are those below the part of it that is blamed.  If its texts are
plain then a report, be it made up or the calculator's own, is the same with colour as without, but
for control sequences: its message, its drawing and all that is printed of it. -/
theorem marks_span_and_colour_decorates :
    (∀ r : Report, 0 ≤ r.start → '\n' ∉ r.subject.toList → r.DrawsSpan) ∧
    (∀ source c, source ≠ "" → '\n' ∉ source.toList →
      (Expr.parse source = .error (.complaint c) →
        Expr.MarksPiece source c ∧ c.report.MarksJust source) ∧
      (Record.ofLine source = .error c →
        Record.MarksPiece source c ∧ c.report.MarksJust source)) ∧
    (∀ r : Report, r.Plain → r.ColourDecorates) ∧
    (∀ text snippets start stop diagnosed internal r,
      make text snippets start stop diagnosed internal = .ok r → Ink.Plain text →
        (∀ s ∈ snippets, Ink.Plain s) → r.Plain) ∧
    ∀ (f : Failure) r, f.report? = some r → (∀ stated, f ≠ .complaint (.stated stated)) →
      (∀ s ∈ r.snippets, Ink.Plain s) → r.Plain := by
  refine ⟨?_, ?_, ?_, ?_, ?_⟩
  · intro r hstart hsubject
    exact drawsSpan hstart hsubject
  · intro source c hne _
    constructor
    · intro h
      have hmarks := (Expr.rejected_of_parse_error h).marksPiece
      exact ⟨hmarks, hmarks.marksJust hne⟩
    · intro h
      have hmarks := Record.marksPiece_of_ofLine_error h
      exact ⟨hmarks, hmarks.marksJust hne⟩
  · intro r hr
    exact hr.colourDecorates
  · intro text snippets start stop diagnosed internal r h htext hsnippets
    exact plain_of_make htext hsnippets h
  · intro f r hreport hown hsnippets
    exact ⟨plain_template_of_failure hown hreport, hsnippets⟩

/-- A report on a sum without its second operand that blames a column far behind it. -/
def blamesFarColumn : Report where
  template := Complaint.quotedSnippet 0 ++ [.text " is odd"]
  snippets := ["1 +"]
  start := countLimit
  stop := 3

/-- So many blanks are no text: the span is not drawn. -/
theorem far_column_not_drawn :
    0 ≤ blamesFarColumn.start ∧ '\n' ∉ blamesFarColumn.subject.toList ∧
      ∀ warning, ¬ ∃ upper lower,
        blamesFarColumn.draw false warning = .ok (upper ++ "\n" ++ lower) := by
  have hfault : blamesFarColumn.spanFault? = some .capacityTooLarge := rfl
  refine ⟨by decide, by decide, ?_⟩
  rintro warning ⟨upper, lower, hdrawn⟩
  rw [draw, hfault] at hdrawn
  cases hdrawn

/-- The second operand of `1 +` is missing, and the mark stands below the sign.  A reporter that has
this line in work prints the report with colour as without, but for control sequences. -/
theorem marks_span_and_colour_decorates_missing_operand :
    Expr.parse "1 +" = .error (.complaint (.endsUnexpectedly "1 +")) ∧
      (Complaint.endsUnexpectedly "1 +").report.MarksJust "1 +" ∧
      (∃ upper lower, (Complaint.endsUnexpectedly "1 +").report.draw false false =
        .ok (upper ++ "\n" ++ lower) ∧
          (Complaint.endsUnexpectedly "1 +").report.Underlines upper lower) ∧
      Decorated ((Reporter.throw (Complaint.endsUnexpectedly "1 +").report).run
          ⟨true, true, [⟨"calc.ac", some "1 +", some 3⟩]⟩)
        ((Reporter.throw (Complaint.endsUnexpectedly "1 +").report).run
          ⟨true, false, [⟨"calc.ac", some "1 +", some 3⟩]⟩) := by
  have hscan : Token.scan "1 +" = .ok [⟨.number (.decimal [1] [] 0), ['1'], 0⟩,
      ⟨.operator .add, ['+'], 2⟩] := by
    cbv
  have hparse : Expr.parse "1 +" = .error (.complaint (.endsUnexpectedly "1 +")) := by
    rw [Expr.parse, Expr.parseWithin, hscan]
    rfl
  obtain ⟨hspans, hrejected, hcolour, -, hown⟩ := marks_span_and_colour_decorates
  have hplain : (Complaint.endsUnexpectedly "1 +").report.Plain := by
    apply hown (.complaint (.endsUnexpectedly "1 +")) _ rfl
    · intro stated heq
      cases heq
    · decide
  refine ⟨hparse, ((hrejected "1 +" _ (by decide) (by decide)).1 hparse).2, ?_, ?_⟩
  · exact (hspans _ (by decide) (by decide)).drawn (by decide) false
  · exact (hcolour _ hplain).error ⟨true, true, [⟨"calc.ac", some "1 +", some 3⟩]⟩ (by decide)

end Report

end Calculator
