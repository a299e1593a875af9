import Calculator.Proofs.Session.Idle

/-!
The shell as its user sees it.  Between two lines a shell is a view and a stack: the view has the
setting, the text that is still to be completed and the number of lines.  What a line prints and
the view after it are functions of the line and the view; the stack only has to fit, and what was
left in its slots never shows.
-/
namespace Calculator

open Shell (Command Reply)

/-- All that decides how a shell goes on. -/
structure View where
  setting : Setting
  pending : String
  lineNumber : Nat

namespace View

/-- The prompt says whether a text is to be completed. -/
def prompt (v : View) : String :=
  if v.pending.isEmpty then Shell.primaryPrompt else Shell.secondaryPrompt

/-- The shell of a view and a stack. -/
def shell (v : View) (stack : Stack) : Shell :=
  ⟨v.setting.session (v.setting.reporter none none) stack [] [], v.pending, v.prompt,
    v.lineNumber⟩

/-- What is printed for a failure of a command, which is no line of an expression. -/
def failureText (v : View) (f : Failure) : String :=
  (v.setting.reporter none none).failureText f

/-- The listing of an expression. -/
def listing (source : String) : Except Failure String :=
  match Expr.parse source with
  | .error f => .error f
  | .ok e => e.compile.map Program.display

/-- What the command that shows programs prints. -/
def emit (v : View) (source : String) : String :=
  match listing source with
  | .ok text => text ++ "\n"
  | .error f => v.failureText f

/-- What the command about strategies prints, and the view after it. -/
def strategy (v : View) (name : String) : String × View :=
  if name.isEmpty then (v.setting.strategy.name ++ "\n", v)
  else
    match Strategy.ofName (Text.trimmed name) with
    | .unlisted name => (v.failureText (.complaint (.unknownStrategy name)), v)
    | strategy => ("", { v with setting := { v.setting with strategy } })

/-- The text that a line completes or continues. -/
def text (v : View) (line : String) : String :=
  LogicalLine.clean (v.pending ++ " " ++ line)

/-- What a line of an expression prints, and the view after it. -/
def expression (v : View) (line : String) : String × View :=
  if LogicalLine.isOpen (v.text line) then
    ("", { v with pending := v.text line, lineNumber := v.lineNumber + 1 })
  else
    (if (v.text line).isEmpty then "" else v.setting.answer (v.text line) (v.lineNumber + 1),
      { v with pending := "", lineNumber := v.lineNumber + 1 })

/-- What a line prints, the view after it, and what it means to the loop. -/
def take (v : View) : Command → String × View × Reply
  | .empty => ("", v, .empty)
  | .emit source => (v.emit source, v, .next)
  | .strategy name => ((v.strategy name).1, (v.strategy name).2, .next)
  | .help => (Shell.helpText ++ "\n", v, .next)
  | .endOfInput => ("\n", v, .leave)
  | .exit => ("", v, .leave)
  | .expression line => ((v.expression line).1, (v.expression line).2, .next)

variable {v : View} {stack : Stack} {printed pending prompt : String} {lineNumber : Nat}
  {f : Failure}

/-- An open text is to be completed, so it is not empty. -/
theorem isEmpty_of_isOpen {text : String} (h : LogicalLine.isOpen text = true) :
    text.isEmpty = false := by
  cases hempty : text.isEmpty with
  | false => rfl
  | true =>
      obtain rfl := String.isEmpty_iff.mp hempty
      cases h

/-- A usual failure is reported, and then no line is in work. -/
theorem run_guarded_of_error {a : Action Shell Unit} {sh : Shell} {g : Setting}
    {line : Option String} {number : Option Int}
    (h : a.run sh =
      ⟨printed, ⟨g.session (g.reporter line number) stack [] [], pending, prompt, lineNumber⟩,
        .error f⟩)
    (hf : f.Usual) :
    (Shell.guarded a).run sh =
      ⟨printed ++ (g.reporter line number).failureText f,
        ⟨g.session (g.reporter none none) stack [] [], pending, prompt, lineNumber⟩, .ok ()⟩ := by
  have hsettle : (Session.reporting (Reporter.settle f)).run
      (g.session (g.reporter line number) stack [] []) =
      ⟨(g.reporter line number).failureText f, g.session (g.reporter none none) stack [] [],
        .ok ()⟩ := Setting.run_reporting (Setting.run_settle hf line number)
  have hshell : (Shell.inSession (Session.reporting (Reporter.settle f))).run
      ⟨g.session (g.reporter line number) stack [] [], pending, prompt, lineNumber⟩ =
      ⟨(g.reporter line number).failureText f,
        ⟨g.session (g.reporter none none) stack [] [], pending, prompt, lineNumber⟩, .ok ()⟩ :=
    Action.run_onPart hsettle
  rw [Shell.guarded, Action.run_settling_of_error h, hshell]

/-- There is no listing of a text that cannot be parsed, or of a tree that cannot be compiled. -/
theorem listing_eq_error {source : String} (h : listing source = .error f) :
    Expr.parse source = .error f ∨ ∃ e, Expr.parse source = .ok e ∧ e.compile = .error f := by
  rw [listing] at h
  cases hparse : Expr.parse source with
  | error f' =>
      rw [hparse] at h
      exact .inl (congrArg Except.error (Except.error.inj h))
  | ok e =>
      rw [hparse] at h
      cases hcompile : e.compile with
      | error f' =>
          simp only [hcompile] at h
          exact .inr ⟨e, rfl, hcompile.trans (congrArg Except.error (Except.error.inj h))⟩
      | ok p =>
          simp only [hcompile] at h
          cases h

theorem usual_of_listing {source : String} (h : listing source = .error f) : f.Usual := by
  rcases listing_eq_error h with hparse | ⟨e, -, hcompile⟩
  · exact Expr.usual_of_parse hparse
  · exact Expr.usual_of_compile hcompile

theorem run_printProgram (source : String) (sh : Shell) :
    (Shell.printProgram source).run sh =
      match listing source with
      | .ok text => ⟨text ++ "\n", sh, .ok ()⟩
      | .error f => ⟨"", sh, .error f⟩ := by
  rw [Shell.printProgram, listing]
  cases Expr.parse source with
  | error f => rfl
  | ok e =>
      rw [Action.run_bind_of_silent (Action.run_ofExcept (.ok e) _)]
      cases hcompile : e.compile with
      | error f =>
          simp only [hcompile]
          rfl
      | ok p =>
          rw [Action.run_bind_of_silent (Action.run_ofExcept (.ok p) _)]
          simp only [hcompile]
          rfl

/-- A listing is printed, or the failure of making it is reported. -/
theorem run_emit (v : View) (stack : Stack) (source : String) :
    (Shell.emit source).run (v.shell stack) = ⟨v.emit source, v.shell stack, .ok ()⟩ := by
  have hprogram := run_printProgram source (v.shell stack)
  rw [emit]
  cases hlisting : listing source with
  | ok text =>
      rw [hlisting] at hprogram
      exact Action.run_settling_of_ok hprogram
  | error f =>
      rw [hlisting] at hprogram
      have h := run_guarded_of_error hprogram (usual_of_listing hlisting)
      rwa [String.empty_append] at h

/-- A strategy is shown or selected, or it is not known; then nothing changes. -/
theorem run_selectStrategy (v : View) (stack : Stack) (name : String) :
    (∃ f : Failure, f.Usual ∧ (Shell.selectStrategy name).run (v.shell stack) =
        ⟨"", v.shell stack, .error f⟩ ∧ v.strategy name = (v.failureText f, v)) ∨
      (Shell.selectStrategy name).run (v.shell stack) =
        ⟨(v.strategy name).1, (v.strategy name).2.shell stack, .ok ()⟩ := by
  rw [Shell.selectStrategy, strategy]
  by_cases hname : name.isEmpty = true
  · rw [if_pos hname, if_pos hname, Action.run_bind_of_silent (Action.run_get _)]
    exact .inr rfl
  · rw [if_neg hname, if_neg hname]
    cases Strategy.ofName (Text.trimmed name) with
    | tree => exact .inr rfl
    | vm => exact .inr rfl
    | both => exact .inr rfl
    | unlisted name =>
        have husual : (Failure.complaint (.unknownStrategy name)).Usual :=
          .complaint (Report.drawingFault?_unmarked _ _)
        exact .inl ⟨_, husual, rfl, rfl⟩

/-- A strategy is shown or selected; one that is not known is reported. -/
theorem run_strategy (v : View) (stack : Stack) (name : String) :
    (Shell.strategy name).run (v.shell stack) =
      ⟨(v.strategy name).1, (v.strategy name).2.shell stack, .ok ()⟩ := by
  rw [Shell.strategy]
  rcases run_selectStrategy v stack name with ⟨f, husual, hselect, hstrategy⟩ | hselect
  · have h := run_guarded_of_error hselect husual
    rw [String.empty_append] at h
    rw [hstrategy]
    exact h
  · exact Action.run_settling_of_ok hselect

theorem run_inSession {α : Type} {a : Action Session α} {s : Session} {o : Outcome Session α}
    (h : a.run s = o) (pending prompt : String) (lineNumber : Nat) :
    (Shell.inSession a).run ⟨s, pending, prompt, lineNumber⟩ =
      ⟨o.printed, ⟨o.state, pending, prompt, lineNumber⟩, o.result⟩ := by
  obtain ⟨printed, s', answer⟩ := o
  exact Action.run_onPart h

/-- The shell when the line is counted and nothing else was done. -/
def counted (v : View) (stack : Stack) : Shell :=
  { v.shell stack with lineNumber := v.lineNumber + 1 }

/-- `Shell.readExpression` with the text of the line by its name. -/
theorem run_readExpression (v : View) (stack : Stack) (line : String) :
    (Shell.readExpression line).run (v.shell stack) =
      (if LogicalLine.isOpen (v.text line) then
        Action.modify fun sh =>
          { sh with pending := v.text line, prompt := Shell.secondaryPrompt }
      else do
        Action.modify fun sh => { sh with pending := "", prompt := Shell.primaryPrompt }
        if !(v.text line).isEmpty then
          Shell.inSession (Shell.runLine (v.text line) (v.lineNumber + 1)) :
        Action Shell Unit).run (v.counted stack) := by
  rw [Shell.readExpression, Action.run_bind_of_silent (Action.run_modify _ _),
    Action.run_bind_of_silent (Action.run_get _)]
  rfl

/-- What reading a line of an expression does, before a failure is reported. -/
theorem run_readExpression_open (stack : Stack) {line : String}
    (hopen : LogicalLine.isOpen (v.text line) = true) :
    (Shell.readExpression line).run (v.shell stack) =
      ⟨"", View.shell { v with pending := v.text line, lineNumber := v.lineNumber + 1 } stack,
        .ok ()⟩ := by
  rw [run_readExpression, if_pos hopen, Action.run_modify, counted, shell, shell, prompt, prompt,
    isEmpty_of_isOpen hopen]
  rfl

theorem run_readExpression_empty (stack : Stack) {line : String}
    (hopen : ¬ LogicalLine.isOpen (v.text line) = true)
    (hempty : (v.text line).isEmpty = true) :
    (Shell.readExpression line).run (v.shell stack) =
      ⟨"", View.shell { v with pending := "", lineNumber := v.lineNumber + 1 } stack,
        .ok ()⟩ := by
  rw [run_readExpression, if_neg hopen, Action.run_bind_of_silent (Action.run_modify _ _), hempty]
  rfl

theorem run_readExpression_closed (h : v.setting.Fits stack) {line : String}
    (hopen : ¬ LogicalLine.isOpen (v.text line) = true)
    (hempty : ¬ (v.text line).isEmpty = true) :
    ∃ t, v.setting.Fits t ∧ (Shell.readExpression line).run (v.shell stack) =
      match v.setting.lineResult (v.text line) (v.lineNumber + 1) with
      | (printed, .ok ()) =>
        ⟨printed, View.shell { v with pending := "", lineNumber := v.lineNumber + 1 } t, .ok ()⟩
      | (printed, .error f) =>
        ⟨printed,
          ⟨v.setting.session
              (v.setting.reporter (some (v.text line)) (some (v.lineNumber + 1 : Nat))) t [] [],
            "", Shell.primaryPrompt, v.lineNumber + 1⟩, .error f⟩ := by
  obtain ⟨t, ht, hrun⟩ := Setting.run_runLine h (v.text line) (v.lineNumber + 1)
  refine ⟨t, ht, ?_⟩
  have hshell := run_inSession hrun "" Shell.primaryPrompt (v.lineNumber + 1)
  rw [run_readExpression, if_neg hopen, Action.run_bind_of_silent (Action.run_modify _ _),
    Bool.eq_false_iff.mpr hempty]
  refine Eq.trans hshell ?_
  cases hresult : v.setting.lineResult (v.text line) (v.lineNumber + 1) with
  | mk printed answer =>
      cases answer with
      | ok done => rfl
      | error f => rfl

/-- A line completes an expression, and that is answered, or it leaves the expression open. -/
theorem run_takeExpression (h : v.setting.Fits stack) (line : String) :
    ∃ t, v.setting.Fits t ∧ (Shell.takeExpression line).run (v.shell stack) =
      ⟨(v.expression line).1, (v.expression line).2.shell t, .ok ()⟩ := by
  rw [Shell.takeExpression, expression]
  by_cases hopen : LogicalLine.isOpen (v.text line) = true
  · rw [if_pos hopen]
    exact ⟨stack, h, Action.run_settling_of_ok (run_readExpression_open stack hopen)⟩
  · rw [if_neg hopen]
    by_cases hempty : (v.text line).isEmpty = true
    · rw [if_pos hempty]
      exact ⟨stack, h, Action.run_settling_of_ok (run_readExpression_empty stack hopen hempty)⟩
    · rw [if_neg hempty, Setting.answer]
      obtain ⟨t, ht, hread⟩ := run_readExpression_closed h hopen hempty
      refine ⟨t, ht, ?_⟩
      cases hresult : v.setting.lineResult (v.text line) (v.lineNumber + 1) with
      | mk printed answer =>
          rw [hresult] at hread
          cases answer with
          | ok done => exact Action.run_settling_of_ok hread
          | error f =>
              have hf : f.Usual := Setting.usual_of_lineResult (congrArg Prod.snd hresult)
              exact run_guarded_of_error hread hf

/-- A line does what the view says. -/
theorem run_takeLine (h : v.setting.Fits stack) (line : String) :
    ∃ t, v.setting.Fits t ∧ (Shell.takeLine line).run (v.shell stack) =
      ⟨(v.take (Command.ofLine line)).1, (v.take (Command.ofLine line)).2.1.shell t,
        .ok (v.take (Command.ofLine line)).2.2⟩ := by
  rw [Shell.takeLine]
  cases Command.ofLine line with
  | empty => exact ⟨stack, h, rfl⟩
  | emit source =>
      refine ⟨stack, h, ?_⟩
      exact Action.run_bind_pure (run_emit v stack source) Reply.next
  | strategy name =>
      refine ⟨stack, h, ?_⟩
      exact Action.run_bind_pure (run_strategy v stack name) Reply.next
  | help =>
      have hhelp := Action.run_printLine Shell.helpText (v.shell stack)
      refine ⟨stack, h, ?_⟩
      simp only [take]
      exact Action.run_bind_pure hhelp Reply.next
  | endOfInput =>
      have hend := Action.run_printLine "" (v.shell stack)
      refine ⟨stack, h, ?_⟩
      exact Action.run_bind_pure hend Reply.leave
  | exit => exact ⟨stack, h, rfl⟩
  | expression line =>
      obtain ⟨t, ht, hrun⟩ := run_takeExpression h line
      refine ⟨t, ht, ?_⟩
      simp only [take]
      exact Action.run_bind_pure hrun Reply.next

end View

end Calculator
