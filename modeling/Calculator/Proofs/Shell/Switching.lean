import Calculator.Proofs.Session.Strategies
import Calculator.Proofs.Shell.History

/-!
Strategies switched between lines.  A line that selects a strategy prints nothing and changes
nothing else, and where it does not matter for any line the strategy does not show in what the
others print.  So such lines may be put in and left out as one likes.
-/
namespace Calculator

open Shell (Command Reply takeLine)

namespace Shell

/-- Whether a line selects one of the strategies that there are. -/
def isSwitch (line : String) : Bool :=
  match Command.ofLine line with
  | .strategy name => Strategy.ofName (Text.trimmed name) ∈ Strategy.listed
  | _ => false

/-- What is printed of the lines that select no strategy, line by line. -/
def replies (sh : Shell) : List String → List String
  | [] => []
  | line :: lines =>
    let o := (takeLine line).run sh
    if isSwitch line then replies o.state lines else o.printed :: replies o.state lines

/-- The texts that lines complete, after a text that is still open. -/
def completed (pending : String) : List String → List String
  | [] => []
  | line :: lines =>
    match Command.ofLine line with
    | .expression part =>
      let text := LogicalLine.clean (pending ++ " " ++ part)
      if LogicalLine.isOpen text then completed text lines else text :: completed "" lines
    | _ => completed pending lines

variable {line pending : String} {lines : List String}

theorem exists_of_isSwitch (h : isSwitch line = true) :
    ∃ name, Command.ofLine line = .strategy name ∧
      Strategy.ofName (Text.trimmed name) ∈ Strategy.listed := by
  rw [isSwitch] at h
  split at h
  · rename_i name hcommand
    exact ⟨name, hcommand, of_decide_eq_true h⟩
  · cases h

theorem replies_of_isSwitch {sh : Shell} (h : isSwitch line = true) :
    sh.replies (line :: lines) = ((takeLine line).run sh).state.replies lines := by
  rw [replies, if_pos h]

theorem replies_of_not_isSwitch {sh : Shell} (h : isSwitch line = false) :
    sh.replies (line :: lines) =
      ((takeLine line).run sh).printed :: ((takeLine line).run sh).state.replies lines := by
  rw [replies, h]
  rfl

theorem completed_expression {part : String} (h : Command.ofLine line = .expression part) :
    completed pending (line :: lines) =
      if LogicalLine.isOpen (LogicalLine.clean (pending ++ " " ++ part)) then
        completed (LogicalLine.clean (pending ++ " " ++ part)) lines
      else LogicalLine.clean (pending ++ " " ++ part) :: completed "" lines := by
  rw [completed, h]

/-- Lines that select a strategy complete no text. -/
theorem completed_filter (pending : String) (lines : List String) :
    completed pending (lines.filter (!isSwitch ·)) = completed pending lines := by
  induction lines generalizing pending with
  | nil => rfl
  | cons line lines ih =>
      cases hswitch : isSwitch line with
      | true =>
          obtain ⟨name, hcommand, -⟩ := exists_of_isSwitch hswitch
          rw [List.filter_cons_of_neg (by simp [hswitch]), ih, completed, hcommand]
      | false =>
          rw [List.filter_cons_of_pos (by simp [hswitch]), completed, completed]
          simp only [ih]

end Shell

namespace View

open Shell (isSwitch completed)

variable {v : View} {stack stack' : Stack} {line : String} {lines : List String}

/-- The view under another strategy. -/
def withStrategy (v : View) (strategy : Strategy) : View :=
  { v with setting := v.setting.withStrategy strategy }

@[simp] theorem setting_withStrategy (v : View) (strategy : Strategy) :
    (v.withStrategy strategy).setting = v.setting.withStrategy strategy :=
  rfl

@[simp] theorem lineNumber_withStrategy (v : View) (strategy : Strategy) :
    (v.withStrategy strategy).lineNumber = v.lineNumber :=
  rfl

theorem eq_withStrategy {v' : View} (hcoloured : v'.setting.coloured = v.setting.coloured)
    (hcapacity : v'.setting.capacity = v.setting.capacity)
    (hemitting : v'.setting.emitting = v.setting.emitting) (hpending : v'.pending = v.pending)
    (hnumber : v'.lineNumber = v.lineNumber) : v' = v.withStrategy v'.setting.strategy := by
  obtain ⟨⟨coloured, strategy, capacity, emitting⟩, pending, number⟩ := v
  obtain ⟨⟨coloured', strategy', capacity', emitting'⟩, pending', number'⟩ := v'
  simp only at hcoloured hcapacity hemitting hpending hnumber
  rw [hcoloured, hcapacity, hemitting, hpending, hnumber]
  rfl

/-- A line that selects a strategy prints nothing and does nothing else. -/
theorem take_of_isSwitch (h : isSwitch line = true) :
    ∃ strategy, ∀ v : View,
      v.take (Command.ofLine line) = ("", v.withStrategy strategy, Reply.next) := by
  obtain ⟨name, hcommand, hlisted⟩ := Shell.exists_of_isSwitch h
  have hname : ¬ name.isEmpty = true := by
    intro hempty
    rw [String.isEmpty_iff.mp hempty] at hlisted
    revert hlisted
    decide
  refine ⟨Strategy.ofName (Text.trimmed name), ?_⟩
  intro v
  rw [hcommand, take, strategy, if_neg hname]
  cases hstrategy : Strategy.ofName (Text.trimmed name) with
  | tree | vm | both => rfl
  | unlisted name =>
      rw [hstrategy] at hlisted
      simp [Strategy.listed] at hlisted

/-- A line that selects no strategy and does not ask for it does the same under all of them. -/
theorem strategy_withStrategy (v : View) {name : String} (hname : name ≠ "")
    (hlisted : Strategy.ofName (Text.trimmed name) ∉ Strategy.listed) (strategy : Strategy) :
    (v.withStrategy strategy).strategy name =
      ((v.strategy name).1, (v.strategy name).2.withStrategy strategy) := by
  have hnonempty : ¬ name.isEmpty = true := fun hempty => hname (String.isEmpty_iff.mp hempty)
  rw [View.strategy, View.strategy, if_neg hnonempty, if_neg hnonempty]
  cases hstrategy : Strategy.ofName (Text.trimmed name) with
  | tree | vm | both =>
      rw [hstrategy] at hlisted
      simp [Strategy.listed] at hlisted
  | unlisted name => rfl

/-- So does a line of an expression, if the strategy does not matter for the text that it
completes. -/
theorem expression_withStrategy (v : View) (part : String)
    (hneutral : ¬ LogicalLine.isOpen (v.text part) = true →
      v.setting.NeutralLine (v.text part)) (strategy : Strategy) :
    (v.withStrategy strategy).expression part =
      ((v.expression part).1, (v.expression part).2.withStrategy strategy) := by
  have htext : (v.withStrategy strategy).text part = v.text part := rfl
  simp only [expression, htext, setting_withStrategy, lineNumber_withStrategy]
  by_cases hopen : LogicalLine.isOpen (v.text part) = true
  · simp only [if_pos hopen]
    rfl
  · simp only [if_neg hopen, Setting.answer_withStrategy (hneutral hopen)]
    rfl

/-- A line does the same under all strategies, unless it selects one or asks for it. -/
theorem take_withStrategy (hswitch : isSwitch line = false)
    (hasks : Command.ofLine line ≠ .strategy "")
    (hneutral : ∀ text ∈ completed v.pending [line], v.setting.NeutralLine text)
    (strategy : Strategy) :
    (v.withStrategy strategy).take (Command.ofLine line) =
      ((v.take (Command.ofLine line)).1, (v.take (Command.ofLine line)).2.1.withStrategy strategy,
        (v.take (Command.ofLine line)).2.2) := by
  rw [isSwitch] at hswitch
  cases hcommand : Command.ofLine line with
  | empty | emit source | help | endOfInput | exit => rfl
  | strategy name =>
      rw [hcommand] at hswitch hasks
      have hname : name ≠ "" := fun hempty => hasks (congrArg Command.strategy hempty)
      simp only [take, strategy_withStrategy v hname (of_decide_eq_false hswitch)]
  | expression part =>
      rw [Shell.completed_expression hcommand] at hneutral
      have hcomplete : ¬ LogicalLine.isOpen (v.text part) = true →
          v.setting.NeutralLine (v.text part) := by
        intro hopen
        rw [text] at hopen
        rw [if_neg hopen] at hneutral
        exact hneutral _ List.mem_cons_self
      simp only [take, expression_withStrategy v part hcomplete]

/-- What later lines complete depends on the text that a line leaves open. -/
theorem completed_cons (v : View) (line : String) (lines : List String) :
    completed v.pending (line :: lines) =
      completed v.pending [line] ++ completed (v.take (Command.ofLine line)).2.1.pending lines := by
  cases hcommand : Command.ofLine line with
  | empty | emit source | help | endOfInput | exit =>
      rw [completed, completed, hcommand]
      rfl
  | strategy name =>
      have hpending : (v.strategy name).2.pending = v.pending := by
        rw [strategy]
        split
        · rfl
        · split <;> rfl
      rw [completed, completed, hcommand, take, hpending]
      rfl
  | expression part =>
      rw [Shell.completed_expression hcommand, Shell.completed_expression hcommand, take,
        expression, text]
      by_cases hopen : LogicalLine.isOpen (LogicalLine.clean (v.pending ++ " " ++ part)) = true
      · rw [if_pos hopen, if_pos hopen, if_pos hopen]
        rfl
      · rw [if_neg hopen, if_neg hopen, if_neg hopen]
        rfl

/-- Lines that select a strategy may be left out, and the others are answered as under any other
strategy.  The induction is on the lines; both shells go on under the views that these leave. -/
theorem replies_withStrategy (hfits : v.setting.Fits stack) (hfits' : v.setting.Fits stack')
    (hasks : ∀ line ∈ lines, Command.ofLine line ≠ .strategy "")
    (hneutral : ∀ text ∈ completed v.pending lines, v.setting.NeutralLine text)
    (strategy : Strategy) :
    ((v.withStrategy strategy).shell stack).replies lines =
      (v.shell stack').replies (lines.filter (!isSwitch ·)) := by
  induction lines generalizing v stack stack' strategy with
  | nil => rfl
  | cons line lines ih =>
      obtain ⟨hline, hlines⟩ := List.forall_mem_cons.mp hasks
      have hstrategy : (v.withStrategy strategy).setting.Fits stack := hfits
      obtain ⟨t, ht, hrun⟩ := run_takeLine hstrategy line
      rw [completed_cons] at hneutral
      obtain ⟨hnow, hlater⟩ := List.forall_mem_append.mp hneutral
      cases hswitch : isSwitch line with
      | true =>
          obtain ⟨strategy', htake⟩ := take_of_isSwitch hswitch
          rw [htake] at hrun hlater
          rw [List.filter_cons_of_neg (by simp [hswitch]), Shell.replies_of_isSwitch hswitch, hrun]
          exact ih (v := v) ht hfits' hlines hlater strategy'
      | false =>
          obtain ⟨t', ht', hrun'⟩ := run_takeLine hfits' line
          rw [take_withStrategy hswitch hline hnow] at hrun
          have hneutral : ∀ text ∈ completed (v.take (Command.ofLine line)).2.1.pending lines,
              (v.take (Command.ofLine line)).2.1.setting.NeutralLine text := by
            intro text htext
            rw [take_setting]
            exact hlater text htext
          have hfits : v.setting.Fits t := ht
          have hrest := ih (fits_take hfits (Command.ofLine line))
            (fits_take ht' (Command.ofLine line)) hlines hneutral strategy
          rw [List.filter_cons_of_pos (by simp [hswitch]), Shell.replies_of_not_isSwitch hswitch,
            Shell.replies_of_not_isSwitch hswitch, hrun, hrun', hrest]

end View

namespace Shell

variable {coloured : Bool} {sh sh' : Shell} {line : String} {lines lines' : List String}

/-- Selecting a strategy prints nothing. -/
theorem printed_of_isSwitch (h : Reached coloured sh) (hswitch : isSwitch line = true) :
    ((takeLine line).run sh).printed = "" := by
  obtain ⟨v, stack, -, hfits, rfl⟩ := h.exists_view
  obtain ⟨t, -, hrun⟩ := View.run_takeLine hfits line
  obtain ⟨strategy, htake⟩ := View.take_of_isSwitch hswitch
  rw [hrun, htake]

/-- A line that asks for the strategy does not select one, so it is not left out. -/
theorem asks_of_filter_eq (hlines : lines.filter (!isSwitch ·) = lines'.filter (!isSwitch ·))
    (hasks : ∀ line ∈ lines, Command.ofLine line ≠ .strategy "") :
    ∀ line ∈ lines', Command.ofLine line ≠ .strategy "" := by
  intro line hline hask
  have hswitch : isSwitch line = false := by
    rw [isSwitch, hask]
    decide
  have hkept : line ∈ lines'.filter (!isSwitch ·) :=
    List.mem_filter.mpr ⟨hline, by simp [hswitch]⟩
  rw [← hlines] at hkept
  exact hasks line (List.mem_filter.mp hkept).1 hask

/-- Shells that differ in the strategy and in what came before only. -/
structure SameButStrategy (sh sh' : Shell) : Prop where
  capacity_eq : sh.session.stack.capacity = sh'.session.stack.capacity
  emitting_eq : sh.session.emitting = sh'.session.emitting
  pending_eq : sh.pending = sh'.pending
  lineNumber_eq : sh.lineNumber = sh'.lineNumber

/-- For which lines the strategy matters is decided by the view of a shell. -/
theorem neutralLine_of_view {v : View} {stack : Stack} {text : String}
    (hfits : v.setting.Fits stack)
    (h : (Setting.ofSession (v.shell stack).session).NeutralLine text) :
    v.setting.NeutralLine text := by
  have hcapacity : (Setting.ofSession (v.shell stack).session).capacity = v.setting.capacity :=
    hfits.2
  intro e he
  have hneutral := h e he
  rwa [Setting.Neutral, hcapacity] at hneutral

/-- Such shells print the same of lines that differ in switches only. -/
theorem SameButStrategy.replies_eq (hsame : SameButStrategy sh sh') (h : Reached coloured sh)
    (h' : Reached coloured sh') (hlines : lines.filter (!isSwitch ·) = lines'.filter (!isSwitch ·))
    (hasks : ∀ line ∈ lines, Command.ofLine line ≠ .strategy "")
    (hneutral : ∀ text ∈ completed sh.pending lines,
      (Setting.ofSession sh.session).NeutralLine text) :
    sh.replies lines = sh'.replies lines' := by
  have hasks' := asks_of_filter_eq hlines hasks
  have hcompleted : ∀ pending, completed pending lines' = completed pending lines := by
    intro pending
    rw [← completed_filter, ← hlines, completed_filter]
  obtain ⟨v, stack, hcoloured, hfits, rfl⟩ := h.exists_view
  obtain ⟨v', stack', hcoloured', hfits', rfl⟩ := h'.exists_view
  have hcapacity : v'.setting.capacity = v.setting.capacity :=
    hfits'.2.symm.trans (hsame.capacity_eq.symm.trans hfits.2)
  have hview := View.eq_withStrategy (hcoloured'.trans hcoloured.symm) hcapacity
    hsame.emitting_eq.symm hsame.pending_eq.symm hsame.lineNumber_eq.symm
  have hstack : v.setting.Fits stack' := ⟨hfits'.1, hfits'.2.trans hcapacity⟩
  have hneutrals : ∀ text ∈ completed v.pending lines, v.setting.NeutralLine text :=
    fun text htext => neutralLine_of_view hfits (hneutral text htext)
  have hneutrals' : ∀ text ∈ completed v.pending lines', v.setting.NeutralLine text := by
    rw [hcompleted]
    exact hneutrals
  have hleft := View.replies_withStrategy hfits hstack hasks hneutrals v.setting.strategy
  have hright := View.replies_withStrategy (v := v) hstack hstack hasks' hneutrals'
    v'.setting.strategy
  rw [← hview, ← hlines] at hright
  exact hleft.trans hright.symm

end Shell

end Calculator
