import Calculator.Proofs.Session.Batch
import Calculator.Proofs.Shell.History
import Calculator.Proofs.Token.Characters

/-!
Lines of a file that are typed into the shell.  A line that belongs to an expression is never taken
for a command, and the shell keeps of an expression that is not complete what the file's reader
keeps of it.  So the shell answers the logical lines of the file, each as soon as it is complete.
-/
namespace Calculator

namespace Shell

open Numeral (Letter)
open Text (isBlank)

variable {line : String} {c : Char}

/-- The line has only characters of expressions, up to its comment. -/
def Harmless (line : String) : Prop :=
  ∀ c ∈ (LogicalLine.clean line).toList, isBlank c = true ∨ Letter c ∨ c ∈ Token.symbols

theorem Harmless.not_mem (h : Harmless line) (hblank : isBlank c = false) (hletter : ¬ Letter c)
    (hsymbol : c ∉ Token.symbols) :
    c ∉ LogicalLine.cutComment (Text.trim line.toList) := by
  intro hc
  have hclean : c ∈ (LogicalLine.clean line).toList := by
    rw [LogicalLine.clean, String.toList_ofList, ← LogicalLine.trim_cutComment_trim]
    exact Text.mem_trim hc hblank
  rcases h c hclean with hb | hl | hs
  · rw [hblank] at hb
    cases hb
  · exact hletter hl
  · exact hsymbol hs

/-- The names of commands. -/
def commandNames : List String :=
  ["emit", "strategy", "help", "EOF", "exit"]

theorem ofName_of_not_mem {name argument : String} (h : name ∉ commandNames) :
    Command.ofName name argument line = .expression line := by
  unfold Command.ofName
  split
  · exact absurd (by decide) h
  · exact absurd (by decide) h
  · exact absurd (by decide) h
  · exact absurd (by decide) h
  · exact absurd (by decide) h
  · rfl

/-- A line of an expression begins with no name of a command: each has a letter that no expression
has. -/
theorem Harmless.name_not_mem (h : Harmless line) :
    String.ofList ((Text.trim line.toList).takeWhile isNameChar) ∉ commandNames := by
  have hletters : ∀ name ∈ commandNames, ∃ c ∈ name.toList, isBlank c = false ∧ ¬ Letter c ∧
      c ∉ Token.symbols := by
    intro name hname
    fin_cases hname
    · exact ⟨'m', by decide, by decide, by decide, by decide⟩
    · exact ⟨'s', by decide, by decide, by decide, by decide⟩
    · exact ⟨'h', by decide, by decide, by decide, by decide⟩
    · exact ⟨'O', by decide, by decide, by decide, by decide⟩
    · exact ⟨'x', by decide, by decide, by decide, by decide⟩
  intro hname
  obtain ⟨c, hc, hblank, hletter, hsymbol⟩ := hletters _ hname
  rw [String.toList_ofList] at hc
  have hfront := LogicalLine.takeWhile_prefix_cutComment (p := isNameChar) (by decide)
    (Text.trim line.toList)
  exact h.not_mem hblank hletter hsymbol (hfront.subset hc)

/-- A line of an expression is taken as such, or it is empty. -/
theorem Harmless.ofLine (h : Harmless line) :
    (Text.trim line.toList = [] ∧ Command.ofLine line = .empty) ∨
      Command.ofLine line = .expression (Text.trimmed line) := by
  unfold Command.ofLine
  split
  · rename_i hnil
    exact .inl ⟨hnil, rfl⟩
  · rename_i cs hquestion
    have hnot := h.not_mem (c := '?') (by decide) (by decide) (by decide)
    rw [hquestion, LogicalLine.cutComment_cons (by simp)] at hnot
    exact absurd List.mem_cons_self hnot
  · exact .inr (ofName_of_not_mem h.name_not_mem)

/-- What is printed of lines, line by line. -/
def printed (sh : Shell) : List String → List String
  | [] => []
  | line :: lines =>
    ((takeLine line).run sh).printed :: printed ((takeLine line).run sh).state lines

end Shell

namespace LogicalLine

variable {opened : Option LogicalLine} {line : String} {number : Int}

/-- The logical line that is open after a line. -/
def leftOpen (number : Int) (opened : Option LogicalLine) (line : String) : Option LogicalLine :=
  if isOpen (extended number opened line).text then some (extended number opened line) else none

theorem kept_leftOpen (h : Kept opened) (number : Int) (line : String) :
    Kept (leftOpen number opened line) := by
  rw [leftOpen]
  by_cases hopen : isOpen (extended number opened line).text = true
  · rw [if_pos hopen]
    exact kept_extended h hopen
  · rw [if_neg hopen]
    exact kept_none

/-- A line without characters of its own leaves a logical line as it is. -/
theorem extended_of_clean_eq_empty (h : Kept opened) (hline : clean line = "") :
    extended number opened line = opened.getD ⟨"", number⟩ := by
  cases opened with
  | none =>
      rw [extended, hline]
      rfl
  | some l =>
      obtain ⟨htidy, hopen⟩ := h l rfl
      have hblank : Text.Blanks [' '] := List.forall_mem_singleton.mpr rfl
      have hjoined : joined l.text "" = l.text := by
        have hspace : (l.text ++ " " ++ "").toList = l.text.toList ++ [' '] := by simp
        rw [joined, Text.trimmed, hspace, Text.trim_append_right hblank, htidy.trimmed,
          String.ofList_toList]
      rw [extended, hline, hjoined]
      rfl

end LogicalLine

namespace Setting

variable {g : Setting} {text : String} {a : Answer}

/-- What is printed of a logical line that is complete, unless it is blank, and of one that is left
open. -/
def typed (g : Setting) (text : String) (number : Nat) : String :=
  if LogicalLine.isOpen text then "" else if text.isEmpty then "" else g.answer text number

/-- What is printed of lines that are answered one by one. -/
def conversation (g : Setting) (ls : List LogicalLine) (as : List Answer) : String :=
  String.join (List.zipWith (fun l a =>
    a.warningAt g.coloured (LogicalLine.place Session.interactivePath l.number) l.text ++
      (a.result ++ "\n")) ls as)

/-- A line that is answered prints its warning and its result. -/
theorem answer_of_lineAnswer (h : g.lineAnswer text = .ok a) (number : Nat) :
    g.answer text number =
      a.warningAt g.coloured (LogicalLine.place Session.interactivePath number) text ++
        (a.result ++ "\n") := by
  obtain ⟨e, hparse⟩ := parse_of_lineAnswer h
  have hanswer : g.answerOf e = .ok a := by
    rw [← lineAnswer_of_parse hparse]
    exact h
  have hlocation : (g.reporter (some text) (some number)).traceback.location =
      LogicalLine.place Session.interactivePath number := by
    simp [reporter, Traceback.location, Traceback.numberText, LogicalLine.place]
  have hresult : g.lineResult text number =
      (a.warningAt g.coloured (LogicalLine.place Session.interactivePath number) text ++
        (a.result ++ "\n"), .ok ()) := by
    rw [lineResult, hparse]
    simp only [shown_eq, hanswer, Answer.warning_eq, hlocation]
    rfl
  rw [answer, hresult]

end Setting

namespace Shell

open Text (isBlank)

variable {g : Setting} {stack : Stack} {opened : Option LogicalLine} {line : String}

theorem clean_of_trim_eq_nil (h : Text.trim line.toList = []) : LogicalLine.clean line = "" := by
  rw [LogicalLine.clean, ← LogicalLine.trim_cutComment_trim, h]
  rfl

/-- A line of an expression goes to the logical line that is open: the shell keeps its text, or
answers it once it is complete. -/
theorem run_takeLine_of_harmless (hfits : g.Fits stack) (hkept : LogicalLine.Kept opened)
    (h : Harmless line) (number : Int) (k : Nat) :
    ∃ t k' reply, g.Fits t ∧ reply ≠ Reply.leave ∧
      (takeLine line).run ((View.mk g (LogicalLine.keptText opened) k).shell stack) =
        ⟨g.typed (LogicalLine.extended number opened line).text k',
          (View.mk g (LogicalLine.keptText (LogicalLine.leftOpen number opened line)) k').shell t,
          .ok reply⟩ := by
  obtain ⟨t, ht, hrun⟩ :=
    View.run_takeLine (v := ⟨g, LogicalLine.keptText opened, k⟩) hfits line
  rw [hrun, LogicalLine.leftOpen]
  rcases h.ofLine with ⟨hnil, hempty⟩ | hexpression
  · refine ⟨t, k, .empty, ht, by decide, ?_⟩
    rw [Setting.typed, hempty,
      LogicalLine.extended_of_clean_eq_empty hkept (clean_of_trim_eq_nil hnil)]
    cases opened with
    | none => rfl
    | some l =>
        obtain ⟨-, hopen⟩ := hkept l rfl
        simp only [Option.getD_some, if_pos hopen]
        rfl
  · refine ⟨t, k + 1, .next, ht, by decide, ?_⟩
    have htext : (View.mk g (LogicalLine.keptText opened) k).text (Text.trimmed line) =
        (LogicalLine.extended number opened line).text :=
      (LogicalLine.text_extended hkept number line).symm
    rw [Setting.typed, hexpression]
    simp only [View.take, View.expression, htext]
    by_cases hopen : LogicalLine.isOpen (LogicalLine.extended number opened line).text = true
    · simp only [if_pos hopen]
      rfl
    · simp only [if_neg hopen]
      rfl

/-- Lines of expressions leave a shell that is ready for the next one. -/
theorem after_of_harmless {lines : List String} (hfits : g.Fits stack)
    (hkept : LogicalLine.Kept opened) (h : ∀ line ∈ lines, Harmless line) (k : Nat) :
    ∃ t opened' k', g.Fits t ∧ LogicalLine.Kept opened' ∧
      ((View.mk g (LogicalLine.keptText opened) k).shell stack).after lines =
        (View.mk g (LogicalLine.keptText opened') k').shell t := by
  induction lines generalizing stack opened k with
  | nil => exact ⟨stack, opened, k, hfits, hkept, rfl⟩
  | cons line lines ih =>
      rcases List.forall_mem_cons.mp h with ⟨hline, hlines⟩
      obtain ⟨t, k', reply, ht, -, hrun⟩ := run_takeLine_of_harmless hfits hkept hline 0 k
      rw [after, hrun]
      exact ih ht (LogicalLine.kept_leftOpen hkept 0 line) hlines k'

/-- An answered line is complete, so at the end none is left open. -/
theorem nothing_open_of_answers {as : List Answer} (hkept : LogicalLine.Kept opened)
    (h : g.Answers opened.toList as) : opened = none ∧ as = [] := by
  cases opened with
  | none =>
      cases h
      exact ⟨rfl, rfl⟩
  | some l =>
      obtain ⟨e, hparse⟩ := Setting.parsed_of_answers h l List.mem_cons_self
      obtain ⟨-, hopen⟩ := hkept l rfl
      rw [Expr.isOpen_of_parse hparse] at hopen
      cases hopen

/-- Lines whose logical lines are all answered print the answers one by one, and none is left open.
The induction is on the lines, for whatever logical line is open before them. -/
theorem printed_of_answers {lines : List String} {as : List Answer} (hfits : g.Fits stack)
    (hkept : LogicalLine.Kept opened) (h : ∀ line ∈ lines, Harmless line) (number : Int) (k : Nat)
    (hanswers : g.Answers (LogicalLine.gather number opened lines) as) :
    ∃ ls, ls.map LogicalLine.text =
        (LogicalLine.gather number opened lines).map LogicalLine.text ∧
      String.join (((View.mk g (LogicalLine.keptText opened) k).shell stack).printed lines) =
        g.conversation ls as ∧
      (((View.mk g (LogicalLine.keptText opened) k).shell stack).after lines).pending = "" := by
  induction lines generalizing stack opened number k as with
  | nil =>
      obtain ⟨rfl, rfl⟩ := nothing_open_of_answers hkept hanswers
      exact ⟨[], rfl, rfl, rfl⟩
  | cons line lines ih =>
      rcases List.forall_mem_cons.mp h with ⟨hline, hlines⟩
      obtain ⟨t, k', reply, ht, -, hrun⟩ := run_takeLine_of_harmless hfits hkept hline number k
      have hnext := LogicalLine.kept_leftOpen hkept number line
      rw [printed, after, hrun, String.join_cons, Setting.typed]
      rw [LogicalLine.leftOpen] at hnext ⊢
      by_cases hopen : LogicalLine.isOpen (LogicalLine.extended number opened line).text = true
      · rw [LogicalLine.gather_open hopen] at hanswers ⊢
        simp only [if_pos hopen, String.empty_append] at hnext ⊢
        exact ih ht hnext hlines (number + 1) k' hanswers
      · simp only [if_neg hopen] at hnext ⊢
        by_cases hempty : (LogicalLine.extended number opened line).text.isEmpty = true
        · rw [LogicalLine.gather_blank hopen hempty] at hanswers ⊢
          simp only [if_pos hempty, String.empty_append]
          exact ih ht hnext hlines (number + 1) k' hanswers
        · rw [LogicalLine.gather_closed hopen hempty] at hanswers ⊢
          cases hanswers with
          | @cons l a ls as ha has =>
              obtain ⟨ls, htexts, hprinted, hpending⟩ :=
                ih ht hnext hlines (number + 1) k' has
              refine ⟨⟨(LogicalLine.extended number opened line).text, k'⟩ :: ls, ?_, ?_, hpending⟩
              · simp only [List.map_cons, htexts]
              · rw [hprinted, if_neg hempty, Setting.answer_of_lineAnswer ha]
                simp only [Setting.conversation, List.zipWith_cons_cons, String.join_cons]

/-- A line without characters of its own prints nothing, also within an expression. -/
theorem typed_of_clean_eq_empty (hkept : LogicalLine.Kept opened)
    (hline : LogicalLine.clean line = "") (number : Int) (k : Nat) :
    g.typed (LogicalLine.extended number opened line).text k = "" := by
  rw [LogicalLine.extended_of_clean_eq_empty hkept hline, Setting.typed]
  cases opened with
  | none => rfl
  | some l =>
      obtain ⟨-, hopen⟩ := hkept l rfl
      exact if_pos hopen

/-- Lines whose logical lines are all answered have only characters of expressions. -/
theorem harmless_of_answers {lines : List String} {as : List Answer} {number : Int}
    (h : g.Answers (LogicalLine.gather number opened lines) as) :
    ∀ line ∈ lines, Harmless line := by
  intro line hline c hc
  cases hblank : isBlank c with
  | true => exact .inl rfl
  | false =>
      have hlogical : ∃ m ∈ LogicalLine.gather number opened lines, c ∈ m.text.toList :=
        LogicalLine.exists_mem_gather hblank (.inr ⟨line, hline, hc⟩)
      obtain ⟨m, hm, hmem⟩ := hlogical
      obtain ⟨e, hparse⟩ := Setting.parsed_of_answers h m hm
      have hcharacter := Expr.mem_of_parse hparse hmem
      rwa [hblank] at hcharacter

end Shell

end Calculator
