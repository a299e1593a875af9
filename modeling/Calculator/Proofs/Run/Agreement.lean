import Calculator.Proofs.Run.File
import Calculator.Proofs.Shell.Typed

/-!
Files and typed lines.  The lines of a file that runs without an error may as well be typed into
the shell: it gives the same results in the same order, with the same warnings.
-/
namespace Calculator.Run

open Shell (Command Reply takeLine)

variable {coloured : Bool} {files : Files} {arguments : List String} {settings : Settings}
  {path input : String} {cs : List Char} {stack : Stack}

/-- The shell of a command line starts with nothing but its setting. -/
theorem run_start_shell (h : RunsFile files arguments settings path cs)
    (hmake : Stack.make settings.stackSize = .ok stack) :
    (Session.start files settings.shellSession).run (reporter coloured) =
      ⟨"", (setting coloured settings).reporter none none,
        .ok ((setting coloured settings).session ((setting coloured settings).reporter none none)
          stack [] [])⟩ := by
  have hstart := Session.run_start_of_make files settings.shellSession (reporter coloured)
    h.strategy_mem hmake
  rw [hstart]
  rfl

/-- A run of a file that ends without an error has made a stack and answered all lines. -/
theorem answers_of_exit_eq_zero (h : RunsFile files arguments settings path cs)
    (hexit : (transcript coloured files arguments input).exit = 0) :
    ∃ stack as, Stack.make settings.stackSize = .ok stack ∧
      (setting coloured settings).Answers (LogicalLine.ofText cs) as := by
  cases hmake : Stack.make settings.stackSize with
  | error i =>
      rw [transcript_of_make_error h hmake] at hexit
      cases hexit
  | ok stack =>
      obtain ⟨as, has⟩ := (fileRun_of_make h hmake coloured input).exit_eq_zero_iff.mp hexit
      exact ⟨stack, as, rfl, has⟩

/-- Main result: if a file runs without an error, then its lines typed one by one into the shell
give the same answers: results in the same order, and warnings that differ in the place that they
name.  No line is taken for a command, a line that is blank but for a comment prints nothing, and
in the end no expression is left open. -/
theorem shell_agrees_with_file (h : RunsFile files arguments settings path cs) (coloured : Bool)
    (input : String) (hexit : (transcript coloured files arguments input).exit = 0) :
    ∃ (as : List Answer) (ls : List LogicalLine) (s : Session),
      (setting coloured settings).Answers (LogicalLine.ofText cs) as ∧
      transcript coloured files arguments input =
        ⟨(setting coloured settings).warnings path (LogicalLine.ofText cs) as ++
          String.join (as.map fun a => a.result ++ "\n"), "", 0⟩ ∧
      (Session.start files settings.shellSession).run (reporter coloured) =
        ⟨"", s.reporter, .ok s⟩ ∧
      ls.map LogicalLine.text = (LogicalLine.ofText cs).map LogicalLine.text ∧
      String.join ((Shell.ofSession s).printed ((Text.lines cs).map String.ofList)) =
        (setting coloured settings).conversation ls as ∧
      (∀ before line rest, (Text.lines cs).map String.ofList = before ++ line :: rest →
        (Command.ofLine line = .empty ∨
          Command.ofLine line = .expression (Text.trimmed line)) ∧
        (∃ reply, reply ≠ Reply.leave ∧
          ((takeLine line).run ((Shell.ofSession s).after before)).result = .ok reply) ∧
        (LogicalLine.clean line = "" →
          ((takeLine line).run ((Shell.ofSession s).after before)).printed = "")) ∧
      ((Shell.ofSession s).after ((Text.lines cs).map String.ofList)).pending = "" := by
  obtain ⟨stack, as, hmake, has⟩ := answers_of_exit_eq_zero h hexit
  have hfits : (setting coloured settings).Fits stack := Setting.fits_of_make hmake rfl
  have hharmless := Shell.harmless_of_answers has
  obtain ⟨ls, htexts, hprinted, hpending⟩ :=
    Shell.printed_of_answers hfits LogicalLine.kept_none hharmless 1 0 has
  refine ⟨as, ls, _, has, transcript_of_answers h hmake has input, run_start_shell h hmake, htexts,
    hprinted, ?_, hpending⟩
  intro before line rest hlines
  rw [hlines] at hharmless
  rcases List.forall_mem_append.mp hharmless with ⟨hbefore, hrest⟩
  have hline := hrest line List.mem_cons_self
  obtain ⟨t, opened, k, ht, hkept, hafter⟩ :=
    Shell.after_of_harmless hfits LogicalLine.kept_none hbefore 0
  obtain ⟨u, k', reply, -, hreply, hrun⟩ :=
    Shell.run_takeLine_of_harmless ht hkept hline 0 k
  refine ⟨hline.ofLine.imp_left And.right, ⟨reply, hreply, ?_⟩, ?_⟩
  · exact congrArg Outcome.result ((congrArg (takeLine line).run hafter).trans hrun)
  · intro hclean
    have hprints := congrArg Outcome.printed ((congrArg (takeLine line).run hafter).trans hrun)
    exact hprints.trans (Shell.typed_of_clean_eq_empty hkept hclean 0 k')

/-- An expression on three lines, with comments and a blank line: the file and the shell print its
result. -/
theorem shell_agrees_with_file_three_lines :
    ∃ settings : Settings,
      RunsFile (filled "(1 ;; one\n\n+ 2)\n;; end\n") ["--stack-size", "2", "calc.ac"] settings
        "calc.ac" "(1 ;; one\n\n+ 2)\n;; end\n".toList ∧
      transcript false (filled "(1 ;; one\n\n+ 2)\n;; end\n") ["--stack-size", "2", "calc.ac"] "" =
        ⟨"3\n", "", 0⟩ ∧
      ∃ s, (Session.start (filled "(1 ;; one\n\n+ 2)\n;; end\n") settings.shellSession).run
          (reporter false) = ⟨"", s.reporter, .ok s⟩ ∧
        String.join ((Shell.ofSession s).printed ["(1 ;; one", "", "+ 2)", ";; end"]) = "3\n" ∧
        ((Shell.ofSession s).after ["(1 ;; one", "", "+ 2)", ";; end"]).pending = "" := by
  let settings : Settings := ⟨some "calc.ac", .vm, some 2, false, false⟩
  have h : RunsFile (filled "(1 ;; one\n\n+ 2)\n;; end\n") ["--stack-size", "2", "calc.ac"] settings
      "calc.ac" "(1 ;; one\n\n+ 2)\n;; end\n".toList := ⟨rfl, rfl, rfl, by decide, rfl⟩
  let one : Float := Binary64.ofWord false 4607182418800017408
  let two : Float := Binary64.ofWord false 4611686018427387904
  let sum : Expr := .binary .add (.literal one) (.literal two)
  have hsum : sum.WellFormed := ⟨trivial, trivial⟩
  have htext : sum.text = "(1 + 2)" := by decide +kernel
  have hparse : Expr.parse "(1 + 2)" = .ok sum := by
    rw [← htext]
    exact Expr.parseWithin_text hsum (by decide)
  have hline : (setting false settings).lineAnswer "(1 + 2)" = .ok ⟨none, "3"⟩ := by
    have hvalue : (setting false settings).value sum = .ok (Operator.add.apply one two) := rfl
    have hfinite : Binary64.isFinite (Operator.add.apply one two) = true := by decide +kernel
    have hthree : Number.text (Operator.add.apply one two) = "3" := by decide +kernel
    rw [Setting.lineAnswer_of_parse hparse, Setting.answerOf, hvalue]
    simp only [Except.map, hfinite, hthree, ↓reduceIte]
    rfl
  have hanswers : (setting false settings).Answers
      (LogicalLine.ofText "(1 ;; one\n\n+ 2)\n;; end\n".toList) [⟨none, "3"⟩] := .cons hline .nil
  have hmake : Stack.make settings.stackSize = .ok (.fixed 2) := rfl
  have hprints := transcript_of_answers h hmake hanswers ""
  have hexit := (fileRun_of_make h hmake false "").exit_eq_zero_iff.mpr ⟨_, hanswers⟩
  obtain ⟨as, ls, s, has, -, hstart, htexts, hprinted, -, hpending⟩ :=
    shell_agrees_with_file h false "" hexit
  obtain rfl := Setting.answers_unique hanswers has
  obtain ⟨l, rfl, -⟩ := List.map_eq_singleton_iff.mp htexts
  exact ⟨settings, h, hprints, s, hstart, hprinted, hpending⟩

end Calculator.Run
