import Calculator.Proofs.Report.Numbered
import Calculator.Proofs.Session.Starting
import Calculator.Proofs.Shell.View

/-!
Two shells with different histories.  Every shell that lines can lead to is a view and a stack, and
the view decides all that is printed; so nothing of the history shows that is not in the view.  A
line that fails changes nothing in the view but the number of lines, and two views that differ only
there print the same texts under different numbers.
-/
namespace Calculator

open Shell (Command Reply)

namespace View

variable {v v' : View} {stack : Stack}

/-- Views that differ in the number of lines at most. -/
structure Alike (v v' : View) : Prop where
  setting_eq : v.setting = v'.setting
  pending_eq : v.pending = v'.pending

theorem Alike.text_eq (h : v.Alike v') (line : String) : v.text line = v'.text line := by
  rw [text, text, h.pending_eq]

theorem Alike.emit_eq (h : v.Alike v') (source : String) : v.emit source = v'.emit source := by
  simp only [emit, failureText, h.setting_eq]

theorem Alike.strategy (h : v.Alike v') (name : String) :
    (v.strategy name).1 = (v'.strategy name).1 ∧
      (v.strategy name).2.Alike (v'.strategy name).2 ∧
      (v.lineNumber = v'.lineNumber →
        (v.strategy name).2.lineNumber = (v'.strategy name).2.lineNumber) := by
  obtain ⟨g, pending, number⟩ := v
  obtain ⟨g', pending', number'⟩ := v'
  obtain ⟨rfl, rfl⟩ : g = g' ∧ pending = pending' := ⟨h.setting_eq, h.pending_eq⟩
  rw [View.strategy, View.strategy]
  by_cases hname : name.isEmpty = true
  · rw [if_pos hname, if_pos hname]
    exact ⟨rfl, ⟨rfl, rfl⟩, id⟩
  · rw [if_neg hname, if_neg hname]
    cases Strategy.ofName (Text.trimmed name) with
    | tree => exact ⟨rfl, ⟨rfl, rfl⟩, id⟩
    | vm => exact ⟨rfl, ⟨rfl, rfl⟩, id⟩
    | both => exact ⟨rfl, ⟨rfl, rfl⟩, id⟩
    | unlisted name => exact ⟨rfl, ⟨rfl, rfl⟩, id⟩

theorem Alike.expression (h : v.Alike v') (line : String) :
    SameButNumber (v.lineNumber + 1) (v'.lineNumber + 1) (v.expression line).1
        (v'.expression line).1 ∧
      (v.expression line).2.Alike (v'.expression line).2 ∧
      (v.lineNumber = v'.lineNumber →
        (v.expression line).2.lineNumber = (v'.expression line).2.lineNumber) := by
  rw [View.expression, View.expression, ← h.text_eq line, ← h.setting_eq]
  by_cases hopen : LogicalLine.isOpen (v.text line) = true
  · rw [if_pos hopen, if_pos hopen]
    exact ⟨.refl _ _ "", ⟨rfl, rfl⟩, congrArg (· + 1)⟩
  · rw [if_neg hopen, if_neg hopen]
    refine ⟨?_, ⟨rfl, rfl⟩, congrArg (· + 1)⟩
    by_cases hempty : (v.text line).isEmpty = true
    · simp only [if_pos hempty]
      exact .refl _ _ ""
    · simp only [if_neg hempty]
      exact (v.setting.showsNumber_answer (v.text line)).same _ _

/-- A line does the same to alike views, under the number of each. -/
theorem Alike.take (h : v.Alike v') (c : Command) :
    SameButNumber (v.lineNumber + 1) (v'.lineNumber + 1) (v.take c).1 (v'.take c).1 ∧
      (v.take c).2.2 = (v'.take c).2.2 ∧
      (v.take c).2.1.Alike (v'.take c).2.1 ∧
      (v.lineNumber = v'.lineNumber →
        (v.take c).2.1.lineNumber = (v'.take c).2.1.lineNumber) := by
  cases c with
  | empty => exact ⟨.refl _ _ "", rfl, h, id⟩
  | emit source =>
      have hprinted : SameButNumber (v.lineNumber + 1) (v'.lineNumber + 1) (v.emit source)
          (v'.emit source) := by
        rw [← h.emit_eq source]
        exact .refl _ _ _
      exact ⟨hprinted, rfl, h, id⟩
  | strategy name =>
      obtain ⟨hprinted, hafter, hnumber⟩ := h.strategy name
      have hsame : SameButNumber (v.lineNumber + 1) (v'.lineNumber + 1) (v.strategy name).1
          (v'.strategy name).1 := by
        rw [← hprinted]
        exact .refl _ _ _
      exact ⟨hsame, rfl, hafter, hnumber⟩
  | help =>
      simp only [View.take, true_and]
      exact ⟨.refl _ _ _, h, id⟩
  | endOfInput => exact ⟨.refl _ _ "\n", rfl, h, id⟩
  | exit => exact ⟨.refl _ _ "", rfl, h, id⟩
  | expression line =>
      simp only [View.take, true_and]
      exact h.expression line

/-- Commands change the strategy and nothing else of the setting. -/
theorem take_setting (v : View) (c : Command) :
    (v.take c).2.1.setting = { v.setting with strategy := (v.take c).2.1.setting.strategy } := by
  cases c with
  | empty => rfl
  | emit source => rfl
  | strategy name =>
      simp only [take, strategy]
      split
      · rfl
      · split
        · rfl
        · rfl
  | help => rfl
  | endOfInput => rfl
  | exit => rfl
  | expression line =>
      simp only [take, expression]
      split
      · rfl
      · rfl

/-- A stack that fits goes on fitting. -/
theorem fits_take (h : v.setting.Fits stack) (c : Command) :
    (v.take c).2.1.setting.Fits stack := by
  rw [take_setting]
  exact h

end View

namespace Shell

variable {coloured : Bool} {sh sh' : Shell}

/-- Shells that lines can lead to: one over a session of typed input that has just been started,
and whatever a line makes of such a shell. -/
inductive Reached (coloured : Bool) : Shell → Prop where
  | start {files : Files} {options : SessionOptions} {fatal : Bool} {s : Session}
      (hpath : options.path = Session.interactivePath) (hinteractive : options.interactive = true)
      (hassembly : options.assembly = false)
      (hstart : ((Session.start files options).run ⟨fatal, coloured, []⟩).result = .ok s) :
      Reached coloured (ofSession s)
  | line {sh : Shell} (hreached : Reached coloured sh) (line : String) :
      Reached coloured ((takeLine line).run sh).state

/-- A session of typed input starts with nothing but its setting. -/
theorem session_of_start {files : Files} {options : SessionOptions} {fatal : Bool} {s : Session}
    (hpath : options.path = Session.interactivePath) (hinteractive : options.interactive = true)
    (hassembly : options.assembly = false)
    (hstart : ((Session.start files options).run ⟨fatal, coloured, []⟩).result = .ok s) :
    ∃ (g : Setting) (stack : Stack), g.coloured = coloured ∧ g.Fits stack ∧
      s = g.session (g.reporter none none) stack [] [] := by
  obtain ⟨path, strategy, size, interactive, assembly, emitting⟩ := options
  obtain rfl : path = Session.interactivePath := hpath
  obtain rfl : interactive = true := hinteractive
  obtain rfl : assembly = false := hassembly
  unfold Session.start at hstart
  split at hstart
  · cases hstart
  · cases hmake : Stack.make size with
    | error i =>
        rw [hmake] at hstart
        cases hstart
    | ok stack =>
        rw [hmake] at hstart
        obtain rfl := Except.ok.inj hstart
        have hfits : Setting.Fits ⟨coloured, strategy, size.map Int.toNat, emitting⟩ stack :=
          Setting.fits_of_make hmake rfl
        exact ⟨_, stack, rfl, hfits, rfl⟩

/-- Every shell that is reached is a view and a stack. -/
theorem Reached.exists_view (h : Reached coloured sh) :
    ∃ (v : View) (stack : Stack), v.setting.coloured = coloured ∧ v.setting.Fits stack ∧
      sh = v.shell stack := by
  induction h with
  | start hpath hinteractive hassembly hstart =>
      obtain ⟨g, stack, hcoloured, hfits, rfl⟩ :=
        session_of_start hpath hinteractive hassembly hstart
      exact ⟨⟨g, "", 0⟩, stack, hcoloured, hfits, rfl⟩
  | line hreached line ih =>
      obtain ⟨v, stack, hcoloured, hfits, rfl⟩ := ih
      obtain ⟨t, ht, hrun⟩ := View.run_takeLine hfits line
      rw [hrun]
      refine ⟨(v.take (Command.ofLine line)).2.1, t, ?_, View.fits_take ht _, rfl⟩
      rw [View.take_setting]
      exact hcoloured

/-- What of a line can fail; a failure of it is reported. -/
def Command.work : Command → Action Shell Unit
  | .emit source => printProgram source
  | .strategy name => selectStrategy name
  | .expression line => readExpression line
  | .empty | .help | .endOfInput | .exit => pure ()

/-- The line fails. -/
def Fails (sh : Shell) (line : String) : Prop :=
  ∃ e, ((Command.ofLine line).work.run sh).result = .error e

/-- The shell after lines. -/
def after (sh : Shell) : List String → Shell
  | [] => sh
  | line :: lines => after ((takeLine line).run sh).state lines

/-- The shells agree on all that may show, the number of lines apart. -/
structure Agree (sh sh' : Shell) : Prop where
  strategy_eq : sh.session.strategy = sh'.session.strategy
  capacity_eq : sh.session.stack.capacity = sh'.session.stack.capacity
  emitting_eq : sh.session.emitting = sh'.session.emitting
  pending_eq : sh.pending = sh'.pending

theorem agree_shell_iff {v v' : View} {stack stack' : Stack} (h : v.setting.Fits stack)
    (h' : v'.setting.Fits stack') (hcoloured : v.setting.coloured = v'.setting.coloured) :
    Agree (v.shell stack) (v'.shell stack') ↔ v.Alike v' := by
  obtain ⟨⟨coloured, strategy, capacity, emitting⟩, pending, number⟩ := v
  obtain ⟨⟨coloured', strategy', capacity', emitting'⟩, pending', number'⟩ := v'
  obtain rfl : stack.capacity = capacity := h.2
  obtain rfl : stack'.capacity = capacity' := h'.2
  obtain rfl : coloured = coloured' := hcoloured
  constructor
  · rintro ⟨hstrategy, hcapacity, hemitting, hpending⟩
    refine ⟨?_, hpending⟩
    simp only [View.shell, Setting.session] at hstrategy hcapacity hemitting
    rw [hstrategy, hcapacity, hemitting]
  · rintro ⟨hsetting, hpending⟩
    obtain ⟨-, rfl, hcapacity, rfl⟩ := Setting.mk.inj hsetting
    exact ⟨rfl, hcapacity, rfl, hpending⟩

/-- A line does the same to two shells that agree, under the number of each. -/
theorem Agree.line (hagree : Agree sh sh') (h : Reached coloured sh) (h' : Reached coloured sh')
    (line : String) :
    SameButNumber (sh.lineNumber + 1) (sh'.lineNumber + 1) ((takeLine line).run sh).printed
        ((takeLine line).run sh').printed ∧
      (∃ reply, ((takeLine line).run sh).result = .ok reply ∧
        ((takeLine line).run sh').result = .ok reply) ∧
      Agree (sh.after [line]) (sh'.after [line]) ∧
      (sh.after [line]).prompt = (sh'.after [line]).prompt ∧
      (sh.lineNumber = sh'.lineNumber →
        (sh.after [line]).lineNumber = (sh'.after [line]).lineNumber) := by
  obtain ⟨v, stack, hcoloured, hfits, rfl⟩ := h.exists_view
  obtain ⟨v', stack', hcoloured', hfits', rfl⟩ := h'.exists_view
  have halike := (agree_shell_iff hfits hfits' (hcoloured.trans hcoloured'.symm)).mp hagree
  obtain ⟨hprinted, hreply, hafter, hnumber⟩ := halike.take (Command.ofLine line)
  obtain ⟨t, ht, hrun⟩ := View.run_takeLine hfits line
  obtain ⟨t', ht', hrun'⟩ := View.run_takeLine hfits' line
  have hfit := View.fits_take ht (Command.ofLine line)
  have hfit' := View.fits_take ht' (Command.ofLine line)
  simp only [after, hrun, hrun']
  refine ⟨hprinted, ⟨_, rfl, by rw [hreply]⟩, ?_, ?_, hnumber⟩
  · exact (agree_shell_iff hfit hfit' (by rw [hafter.setting_eq])).mpr hafter
  · simp only [View.shell, View.prompt, hafter.pending_eq]

theorem Reached.after (h : Reached coloured sh) (lines : List String) :
    Reached coloured (sh.after lines) := by
  induction lines generalizing sh with
  | nil => exact h
  | cons line lines ih => exact ih (h.line line)

/-- Shells that agree go on agreeing. -/
theorem Agree.after (hagree : Agree sh sh') (h : Reached coloured sh)
    (h' : Reached coloured sh') (lines : List String) :
    Agree (sh.after lines) (sh'.after lines) := by
  induction lines generalizing sh sh' with
  | nil => exact hagree
  | cons line lines ih =>
      obtain ⟨-, -, hnext, -⟩ := hagree.line h h' line
      exact ih hnext (h.line line) (h'.line line)

/-- What fails selects no strategy, and leaves no text open that was not open before. -/
theorem take_of_work_fails {v : View} {stack : Stack} {c : Command} {e : Failure}
    (hfails : (c.work.run (v.shell stack)).result = .error e) :
    (v.take c).2.1.setting = v.setting ∧
      ((v.take c).2.1.pending = "" ∨ (v.take c).2.1.pending = v.pending) := by
  cases c with
  | empty => cases hfails
  | emit source => exact ⟨rfl, .inr rfl⟩
  | strategy name =>
      rcases v.run_selectStrategy stack name with ⟨f, -, -, hstrategy⟩ | hselect
      · rw [View.take, hstrategy]
        exact ⟨rfl, .inr rfl⟩
      · rw [Command.work, hselect] at hfails
        cases hfails
  | help => cases hfails
  | endOfInput => cases hfails
  | exit => cases hfails
  | expression line =>
      simp only [View.take, View.expression]
      by_cases hopen : LogicalLine.isOpen (v.text line) = true
      · rw [Command.work, View.run_readExpression_open stack hopen] at hfails
        cases hfails
      · rw [if_neg hopen]
        exact ⟨rfl, .inl rfl⟩

/-- A line that fails selects no strategy, and leaves no text open that was not open before. -/
theorem after_of_fails (h : Reached coloured sh) {line : String} (hfails : sh.Fails line) :
    (sh.after [line]).session.strategy = sh.session.strategy ∧
      (sh.after [line]).session.stack.capacity = sh.session.stack.capacity ∧
      (sh.after [line]).session.emitting = sh.session.emitting ∧
      ((sh.after [line]).pending = "" ∨ (sh.after [line]).pending = sh.pending) := by
  obtain ⟨v, stack, -, hfits, rfl⟩ := h.exists_view
  rcases hfails with ⟨e, hwork⟩
  obtain ⟨hsetting, hpending⟩ := take_of_work_fails hwork
  obtain ⟨t, ht, hrun⟩ := View.run_takeLine hfits line
  simp only [after, hrun]
  refine ⟨congrArg Setting.strategy hsetting, ?_, congrArg Setting.emitting hsetting, hpending⟩
  exact ht.2.trans hfits.2.symm

/-- Main result: two shells that agree on the strategy, the capacity of the stack, whether programs
are shown, the text still open and the number of lines answer every line alike, whatever came
before.  And a line that fails changes nothing for the lines after it but their numbers. -/
theorem history_never_leaks (coloured : Bool) :
    (∀ sh sh' : Shell, Reached coloured sh → Reached coloured sh' → Agree sh sh' →
      sh.lineNumber = sh'.lineNumber → ∀ line,
        ((takeLine line).run sh).printed = ((takeLine line).run sh').printed ∧
        (∃ reply, ((takeLine line).run sh).result = .ok reply ∧
          ((takeLine line).run sh').result = .ok reply) ∧
        Agree (sh.after [line]) (sh'.after [line]) ∧
        (sh.after [line]).prompt = (sh'.after [line]).prompt ∧
        (sh.after [line]).lineNumber = (sh'.after [line]).lineNumber) ∧
    (∀ (sh : Shell) (line : String), Reached coloured sh → sh.Fails line → sh.pending = "" →
      ∀ lines next,
        SameButNumber (((sh.after [line]).after lines).lineNumber + 1)
          ((sh.after lines).lineNumber + 1)
          ((takeLine next).run ((sh.after [line]).after lines)).printed
          ((takeLine next).run (sh.after lines)).printed ∧
        ∃ reply, ((takeLine next).run ((sh.after [line]).after lines)).result = .ok reply ∧
          ((takeLine next).run (sh.after lines)).result = .ok reply) := by
  constructor
  · intro sh sh' h h' hagree hnumber line
    obtain ⟨hprinted, hreply, hnext, hprompt, hcount⟩ := hagree.line h h' line
    rw [hnumber] at hprinted
    exact ⟨hprinted.eq, hreply, hnext, hprompt, hcount hnumber⟩
  · intro sh line h hfails hpending lines next
    obtain ⟨hstrategy, hcapacity, hemitting, hopen⟩ := after_of_fails h hfails
    -- no text was open, so it is all one whether the line that fails has closed it
    have hagree : Agree (sh.after [line]) sh := by
      refine ⟨hstrategy, hcapacity, hemitting, ?_⟩
      rcases hopen with hopen | hopen
      · rw [hopen, hpending]
      · exact hopen
    have hlater := hagree.after (h.after [line]) h lines
    obtain ⟨hprinted, hreply, -⟩ :=
      hlater.line ((h.after [line]).after lines) (h.after lines) next
    exact ⟨hprinted, hreply⟩

theorem fails_of_parse {v : View} {stack : Stack} {line source : String} {f : Failure}
    (hfits : v.setting.Fits stack) (hline : Command.ofLine line = .expression source)
    (hopen : ¬ LogicalLine.isOpen (v.text source) = true)
    (hempty : ¬ (v.text source).isEmpty = true)
    (hparse : Expr.parse (v.text source) = .error f) : Fails (v.shell stack) line := by
  have hresult : v.setting.lineResult (v.text source) (v.lineNumber + 1) = ("", .error f) := by
    rw [Setting.lineResult, hparse]
  obtain ⟨t, -, hread⟩ := View.run_readExpression_closed hfits hopen hempty
  rw [hresult] at hread
  refine ⟨f, ?_⟩
  rw [hline]
  exact congrArg Outcome.result hread

/-- The view of a shell that was just started, with nothing chosen. -/
def firstView : View :=
  ⟨⟨false, .vm, none, false⟩, "", 0⟩

/-- A lone star fails in a new shell, and leaves no trace there but its number. -/
theorem history_never_leaks_lone_star :
    Reached false (firstView.shell .growing) ∧ Fails (firstView.shell .growing) "*" ∧
      ∀ next, SameButNumber 2 1
        ((takeLine next).run ((firstView.shell .growing).after ["*"])).printed
        ((takeLine next).run (firstView.shell .growing)).printed := by
  have hstart : ((Session.start (fun _ => none)
      { path := Session.interactivePath, interactive := true }).run ⟨true, false, []⟩).result =
      .ok (firstView.setting.session (firstView.setting.reporter none none) .growing [] []) := rfl
  have hreached : Reached false (firstView.shell .growing) := .start rfl rfl rfl hstart
  have hfits : firstView.setting.Fits .growing := ⟨Stack.holds_growing.valid, rfl⟩
  have hparse : Expr.parse (firstView.text "*") =
      .error (.complaint (.unexpectedToken "*" "*" 0)) := by
    cbv
  have hfails : Fails (firstView.shell .growing) "*" :=
    fails_of_parse hfits (by decide) (by decide) (by decide) hparse
  refine ⟨hreached, hfails, ?_⟩
  intro next
  have hnumber : ((firstView.shell .growing).after ["*"]).lineNumber = 1 := by
    obtain ⟨t, -, hrun⟩ := View.run_takeLine hfits "*"
    simp only [after, hrun]
    change (firstView.take (Command.ofLine "*")).2.1.lineNumber = 1
    decide
  obtain ⟨hprinted, -⟩ := (history_never_leaks false).2 _ "*" hreached hfails rfl [] next
  rw [after, hnumber] at hprinted
  exact hprinted

end Shell

end Calculator
