import Calculator.Proofs.Expr.Spacing
import Calculator.Proofs.Session.Grouping
import Calculator.Proofs.Token.Characters

/-!
Layout of expressions.  An expression may be broken where blanks stand inside a parenthesis, with
comments behind its parts and blank lines around them.  The logical line that is read from such
lines has the words of the expression, and words are all that the parser sees.
-/
namespace Calculator

namespace Text

variable {as bs : List Char} {c : Char}

/-- Texts of the same words have the same characters but for blanks. -/
theorem count_eq_of_words (hwords : words as = words bs) (hc : isBlank c = false) :
    as.count c = bs.count c := by
  have hkept (cs : List Char) : (words cs).flatten.count c = cs.count c := by
    rw [flatten_words]
    exact List.count_filter (by simp [hc])
  rw [← hkept, hwords, hkept]

end Text

namespace LogicalLine

open Text

variable {before rest piece cs : List Char} {line : List Char} {lines : List (List Char)}
  {opened : Option LogicalLine} {number : Int} {text : String}

/-- Nothing, or a comment and what follows it. -/
def Comment (cs : List Char) : Prop :=
  cs = [] ∨ [';', ';'] <+: cs

/-- The line has the piece on it, between blanks and before a comment or none. -/
inductive Holds (piece : List Char) : List Char → Prop where
  | mk {lead trail comment : List Char} (hlead : Blanks lead) (htrail : Blanks trail)
      (hcomment : Comment comment) : Holds piece (lead ++ (piece ++ (trail ++ comment)))

/-- More parentheses open in the text than close. -/
def Open (cs : List Char) : Prop :=
  cs.count ')' < cs.count '('

instance : DecidablePred Open :=
  fun cs => inferInstanceAs (Decidable (cs.count ')' < cs.count '('))

/-- The lines are a layout of the rest of a text, of which `before` stands on earlier lines. -/
inductive LaidOut : List Char → List Char → List (List Char) → Prop where
  /-- A line may be blank or only a comment. -/
  | skip {before rest line : List Char} {lines : List (List Char)} (hline : Holds [] line)
      (hrest : LaidOut before rest lines) : LaidOut before rest (line :: lines)
  /-- The text is broken at blanks inside a parenthesis. -/
  | broken {before piece gap rest line : List Char} {lines : List (List Char)}
      (hopen : Open (before ++ piece)) (hgap : Blanks gap) (hne : gap ≠ [])
      (hline : Holds piece line) (hrest : LaidOut (before ++ piece ++ gap) rest lines) :
      LaidOut before (piece ++ gap ++ rest) (line :: lines)
  | last {before piece line : List Char} {lines : List (List Char)} (hline : Holds piece line)
      (hafter : ∀ l ∈ lines, Holds [] l) : LaidOut before piece (line :: lines)

/-! ### Words of lines -/

theorem cutComment_of_comment (h : Comment cs) : cutComment cs = [] := by
  rcases h with rfl | ⟨rest, rfl⟩
  · rfl
  · exact cutComment_comment ⟨rfl, rfl⟩

/-- A text without a semicolon stands before a comment. -/
theorem cutComment_append_comment (hpiece : ';' ∉ piece) (h : Comment cs) :
    cutComment (piece ++ cs) = piece := by
  induction piece with
  | nil => exact cutComment_of_comment h
  | cons c piece ih =>
      have hc : ¬ (c = ';' ∧ (piece ++ cs).head? = some ';') :=
        fun hcomment => hpiece (hcomment.1 ▸ List.mem_cons_self)
      rw [List.cons_append, cutComment_cons hc, ih fun hmem => hpiece (List.mem_cons_of_mem c hmem)]

theorem Holds.words_clean (h : Holds piece line) (hpiece : ';' ∉ piece) :
    words (clean (String.ofList line)).toList = words piece := by
  obtain ⟨hlead, htrail, hcomment⟩ := h
  rename_i lead trail comment
  have hfree : ';' ∉ piece ++ trail := by
    intro hmem
    rcases List.mem_append.mp hmem with hmem | hmem
    · exact hpiece hmem
    · exact not_comment_of_isBlank (htrail _ hmem) rfl
  rw [LogicalLine.words_clean, uncommented, String.toList_ofList, String.toList_ofList,
    cutComment_blanks_append hlead, ← List.append_assoc, cutComment_append_comment hfree hcomment,
    words_blanks_append hlead, words_append_of_endsWord _ htrail.endsWord, words_of_blanks htrail,
    List.append_nil]

/-- A line adds the words of its piece to the logical line. -/
theorem Holds.words_extended (h : Holds piece line) (hpiece : ';' ∉ piece) (number : Int)
    (opened : Option LogicalLine) :
    words (extended number opened (String.ofList line)).text.toList =
      words (keptText opened).toList ++ words piece := by
  have hclean := h.words_clean hpiece
  cases opened with
  | none => exact hclean
  | some l =>
      have hjoined : (joined l.text (clean (String.ofList line))).toList =
          trim (l.text.toList ++ ' ' :: (clean (String.ofList line)).toList) := by
        simp [joined, trimmed]
      have hspace : isBlank ' ' = true := rfl
      rw [extended, hjoined, words_trim, words_append_of_endsWord _ (endsWord_cons hspace _),
        words_cons_of_isBlank hspace, hclean]
      rfl

theorem isOpen_iff_of_words (hwords : words text.toList = words cs) :
    isOpen text = true ↔ Open cs := by
  rw [isOpen, decide_eq_true_iff, count_eq_of_words hwords (by decide),
    count_eq_of_words hwords (by decide), Open]

/-! ### Lines that are read -/

/-- Blank lines and comments are no logical lines. -/
theorem gather_skip (h : Holds [] line) (number : Int) (lines : List String) :
    gather number none (String.ofList line :: lines) = gather (number + 1) none lines := by
  have hwords := h.words_clean List.not_mem_nil
  have hempty : clean (String.ofList line) = "" :=
    (tidy_clean _).eq_empty_of_words (hwords.trans rfl)
  have htext : (extended number none (String.ofList line)).text = "" := hempty
  apply gather_blank
  · rw [htext]
    decide
  · rw [htext]
    rfl

theorem gather_eq_nil (h : ∀ l ∈ lines, Holds [] l) (number : Int) :
    gather number none (lines.map String.ofList) = [] := by
  induction lines generalizing number with
  | nil => rfl
  | cons line lines ih =>
      obtain ⟨hline, hlines⟩ := List.forall_mem_cons.mp h
      rw [List.map_cons, gather_skip hline, ih hlines]

/-- The words of the text and those of what follows it are apart. -/
def Apart (before : List Char) : Prop :=
  ∀ rest, words (before ++ rest) = words before ++ words rest

theorem apart_nil : Apart [] :=
  fun _ => rfl

theorem apart_of_gap {gap : List Char} (hgap : Blanks gap) (hne : gap ≠ []) (cs : List Char) :
    Apart (cs ++ gap) := by
  intro rest
  obtain ⟨b, bs, rfl⟩ := List.exists_cons_of_ne_nil hne
  obtain ⟨hb, -⟩ := List.forall_mem_cons.mp hgap
  rw [List.append_assoc, List.cons_append, words_append_of_endsWord cs (endsWord_cons hb _),
    ← List.cons_append, words_blanks_append hgap, words_append_of_endsWord cs (endsWord_cons hb _),
    words_of_blanks hgap, List.append_nil]

/-- A complete text that is laid out over lines is read as one logical line of its words. -/
theorem LaidOut.gather_eq (h : LaidOut before rest lines) (hfree : ';' ∉ rest)
    (hclosed : ¬ Open (before ++ rest)) (hne : words (before ++ rest) ≠ []) (hapart : Apart before)
    (hkept : Kept opened) (hopened : words (keptText opened).toList = words before)
    (number : Int) :
    ∃ l, gather number opened (lines.map String.ofList) = [l] ∧
      words l.text.toList = words (before ++ rest) := by
  induction h generalizing opened number with
  | @skip before rest line lines hline hrest ih =>
      cases opened with
      | none =>
          rw [List.map_cons, gather_skip hline]
          exact ih hfree hclosed hne hapart hkept hopened _
      | some l =>
          -- the logical line keeps its words, and so it stays open
          have hwords := hline.words_extended List.not_mem_nil number (some l)
          rw [show words [] = [] from rfl, List.append_nil] at hwords
          have hopen : isOpen (extended number (some l) (String.ofList line)).text = true :=
            (isOpen_iff_of_words hwords).mpr ((isOpen_iff_of_words rfl).mp (hkept l rfl).2)
          rw [List.map_cons, gather_open hopen]
          exact ih hfree hclosed hne hapart (kept_extended hkept hopen) (hwords.trans hopened) _
  | @broken before piece gap rest line lines hopen hgap hgap' hline hrest ih =>
      obtain ⟨hpiece, hlater⟩ : ';' ∉ piece ∧ ';' ∉ rest := by
        simp only [List.mem_append, not_or] at hfree
        exact ⟨hfree.1.1, hfree.2⟩
      have hwords := hline.words_extended hpiece number opened
      rw [hopened, ← hapart] at hwords
      have hstays := (isOpen_iff_of_words hwords).mpr hopen
      have hbefore : words (before ++ piece ++ gap) = words (before ++ piece) := by
        rw [words_append_of_endsWord _ hgap.endsWord, words_of_blanks hgap, List.append_nil]
      have hassoc : before ++ (piece ++ gap ++ rest) = before ++ piece ++ gap ++ rest := by
        simp only [List.append_assoc]
      rw [hassoc] at hclosed hne ⊢
      rw [List.map_cons, gather_open hstays]
      exact ih hlater hclosed hne (apart_of_gap hgap hgap' _) (kept_extended hkept hstays)
        (hwords.trans hbefore.symm) _
  | @last before piece line lines hline hafter =>
      have hwords := hline.words_extended hfree number opened
      rw [hopened, ← hapart] at hwords
      refine ⟨extended number opened (String.ofList line), ?_, hwords⟩
      rw [List.map_cons, gather_closed, gather_eq_nil hafter]
      · exact fun hopen => hclosed ((isOpen_iff_of_words hwords).mp hopen)
      · intro hempty
        rw [String.isEmpty_iff.mp hempty] at hwords
        exact hne hwords.symm

end LogicalLine

namespace Expr

open Text (words)

variable {text : String} {tree : Expr}

theorem words_ne_nil_of_parse (h : parse text = .ok tree) : words text.toList ≠ [] := by
  intro hnil
  obtain ⟨ts, hscan, hderives, -⟩ := parseWithin_eq_ok_iff.mp h
  rw [Token.scan, Token.scanFrom_blanks (Text.words_eq_nil_iff.mp hnil)] at hscan
  obtain rfl := Except.ok.inj hscan
  exact hderives.ne_nil rfl

/-- The logical line of an expression that is laid out has its tree. -/
theorem exists_gather_of_parse {lines : List (List Char)} (h : parse text = .ok tree)
    (hlaid : LogicalLine.LaidOut [] text.toList lines) (number : Int) :
    ∃ l, LogicalLine.gather number none (lines.map String.ofList) = [l] ∧
      parse l.text = .ok tree := by
  have hfree : ';' ∉ text.toList := by
    intro hmem
    rcases mem_of_parse h hmem with hblank | hletter | hsymbol
    · exact absurd hblank (by decide)
    · exact absurd hletter (by decide)
    · exact absurd hsymbol (by decide)
  have hclosed : ¬ LogicalLine.Open text.toList := by
    rw [← LogicalLine.isOpen_iff_of_words rfl, isOpen_of_parse h]
    decide
  obtain ⟨l, hgather, hwords⟩ := hlaid.gather_eq hfree hclosed (words_ne_nil_of_parse h)
    LogicalLine.apart_nil LogicalLine.kept_none rfl number
  exact ⟨l, hgather, parseWithin_of_words h hwords.symm⟩

end Expr

namespace Session

open LogicalLine (LaidOut Holds)

/-- Main result: however an expression is laid out over the lines of a file, a session of the file
queues it alone, and its tree is the one that the expression has on a single line. -/
theorem queues_laid_out_expression (files : Files) (options : SessionOptions) (r : Reporter)
    (stack : Stack) (text : String) (tree : Expr) (cs : List Char)
    (hlisted : options.strategy ∈ Strategy.listed)
    (hmake : Stack.make options.stackSize = .ok stack) (hpath : options.path ≠ interactivePath)
    (hassembly : options.assembly = false) (hread : readFile files options.path = .ok cs)
    (hlaid : LaidOut [] text.toList (Text.lines cs)) (hparse : Expr.parse text = .ok tree) :
    ∃ (r' : Reporter) (s : Session) (q : QueuedExpr),
      (start files options).run r = ⟨"", r', .ok s⟩ ∧ s.queue = [q] ∧ q.tree = tree := by
  obtain ⟨l, hgather, htree⟩ := Expr.exists_gather_of_parse hparse hlaid 1
  have hlines : readLogicalLines files options.path = .ok [l] := by
    rw [readLogicalLines_of_readFile hread, LogicalLine.ofText, hgather]
  obtain ⟨s, hload, hqueue, -⟩ :=
    run_load_of_parse (s := fresh options (reporterAtStart options r) stack) hassembly rfl hpath
      hlines (List.pairwise_singleton _ l) (List.forall_mem_singleton.mpr ⟨tree, htree⟩)
  obtain ⟨q, qs, hentry, hnil, hs⟩ := List.forall₂_cons_right_iff.mp hqueue
  obtain rfl := List.forall₂_nil_right_iff.mp hnil
  refine ⟨s.reporter, s, q, ?_, hs, ?_⟩
  · rw [run_start_of_make files options r hlisted hmake]
    exact run_conduct (s := fresh options (reporterAtStart options r) stack) hload
  · exact Except.ok.inj (hentry.2.2.symm.trans htree)

/-- A sum that is broken before its operator, with comments and a blank line. -/
def brokenSum : String :=
  ";; sum\n (1 ;; one\n\n\t+ 2);;\n"

theorem queues_laid_out_expression_sum :
    ∃ (tree : Expr) (r : Reporter) (s : Session) (q : QueuedExpr),
      Expr.parse "(1 + 2)" = .ok tree ∧
      (start (fun _ => some (brokenSum.toList.map fun c => c.toNat.toUInt8))
        { path := "calc.ac" }).run ⟨true, false, []⟩ = ⟨"", r, .ok s⟩ ∧
      s.queue = [q] ∧ q.tree = tree := by
  obtain ⟨tree, hparse⟩ : ∃ tree, Expr.parse "(1 + 2)" = .ok tree := by
    have htext : Expr.text (.binary .add (.literal (Binary64.ofWord false 4607182418800017408))
        (.literal (Binary64.ofWord false 4611686018427387904))) = "(1 + 2)" := by decide +kernel
    rw [← htext]
    exact ⟨_, Expr.parseWithin_text
      (show (Expr.binary .add (.literal _) (.literal _)).WellFormed from ⟨trivial, trivial⟩)
      (by decide)⟩
  have hlines : Text.lines brokenSum.toList =
      [";; sum".toList, " (1 ;; one".toList, [], "\t+ 2);;".toList] := by decide
  have hnone : Text.Blanks [] := List.forall_mem_nil _
  have hspace : Text.Blanks [' '] := List.forall_mem_singleton.mpr rfl
  have htab : Text.Blanks ['\t'] := List.forall_mem_singleton.mpr rfl
  have hfirst : Holds [] ";; sum".toList := @Holds.mk [] [] [] _ hnone hnone (.inr ⟨_, rfl⟩)
  have hsecond : Holds ['(', '1'] " (1 ;; one".toList :=
    @Holds.mk _ [' '] [' '] _ hspace hspace (.inr ⟨_, rfl⟩)
  have hthird : Holds [] [] := @Holds.mk [] [] [] [] hnone hnone (.inl rfl)
  have hfourth : Holds ['+', ' ', '2', ')'] "\t+ 2);;".toList :=
    @Holds.mk _ ['\t'] [] _ htab hnone (.inr ⟨_, rfl⟩)
  have hlaid : LaidOut [] "(1 + 2)".toList (Text.lines brokenSum.toList) := by
    rw [hlines]
    exact .skip hfirst (.broken (by decide) hspace (by decide) hsecond
      (.skip hthird (.last hfourth (List.forall_mem_nil _))))
  obtain ⟨r, s, q, hstart, hqueue, htree⟩ := queues_laid_out_expression
    (fun _ => some (brokenSum.toList.map fun c => c.toNat.toUInt8))
    { path := "calc.ac" } ⟨true, false, []⟩ .growing "(1 + 2)" tree brokenSum.toList (by decide) rfl
    (by decide) rfl rfl hlaid hparse
  exact ⟨tree, r, s, q, hparse, hstart, hqueue, htree⟩

end Session

end Calculator
