import Calculator.Proofs.Session.LogicalLines
import Calculator.Proofs.Session.Resting
import Calculator.Proofs.Shell.History

/-!
Shells at rest.  Between two lines the prompt tells whether a text is still open, and the session
is at rest.  Every line leaves the shell at rest again, whether it fails or not, and only the two
commands that are meant to do so leave it for good.
-/
namespace Calculator.Shell

open Session (Fallen)

variable {s : Session} {sh : Shell} {n : Nat}

/-- A text is open exactly under the second prompt, and `n` lines were taken as expressions. -/
structure Ready (sh : Shell) (n : Nat) : Prop where
  prompt_eq : sh.prompt = if sh.pending = "" then primaryPrompt else secondaryPrompt
  kept : sh.pending ≠ "" →
    LogicalLine.Tidy sh.pending ∧ LogicalLine.isOpen sh.pending = true
  lineNumber_eq : sh.lineNumber = n

/-- The shell between two lines, after `n` lines that were taken as expressions. -/
structure AtRest (sh : Shell) (n : Nat) : Prop extends sh.Ready n where
  session : sh.session.AtRest

/-- A complete line leaves the session at rest, or fails in a usual way. -/
theorem ends_runLine (h : s.AtRest) (line : String) (number : Nat) :
    (runLine line number).Ends s (fun _ => Session.AtRest) Fallen := by
  have hsteps : runLine line number =
      ((Session.add line number >>= fun _ => Session.run) >>= fun _ => do
        let s ← Action.get
        if !s.results.isEmpty then
          let result ← Session.popResult
          Action.printLine result) := by
    rw [bind_assoc]
    rfl
  rw [hsteps, Action.ends_bind]
  refine (h.ends_add_run line number).mono ?_ fun _ _ hs' => hs'
  rintro - s' ⟨hunlined, result, hs'⟩
  have hlast : s'.results.getLast? = some result := by
    rw [hs'.results_eq]
    rfl
  have hpopped : ({ s' with results := s'.results.dropLast } : Session).AtWork [] [] := by
    refine { hs' with results_eq := ?_ }
    rw [hs'.results_eq]
    rfl
  have hfull : (!s'.results.isEmpty) = true := by
    rw [hs'.results_eq]
    rfl
  simp only [Action.ends_bind, Action.ends_get, if_pos hfull, Session.popResult, hlast,
    Action.ends_modify, Action.ends_pure, Action.ends_printLine]
  exact ⟨hpopped, hunlined⟩

/-- Once its failure is reported, a line that has failed has left the shell at rest. -/
theorem ends_guarded {a : Action Shell Unit}
    (h : a.Ends sh (fun _ sh' => sh'.AtRest n) fun f sh' => sh'.Ready n ∧ Fallen f sh'.session) :
    (guarded a).Ends sh (fun _ sh' => sh'.AtRest n) fun _ _ => False := by
  rw [guarded, Action.ends_settling]
  refine h.mono (fun _ _ hrest => hrest) ?_
  rintro f sh' ⟨hready, husual, hwork⟩
  rw [inSession, Session.reporting, Action.ends_onPart, Action.ends_onPart,
    Reporter.ends_settle_of_usual hwork.fatal_eq husual]
  have hcleared := Traceback.cleared_of_path hwork.paths_eq
  refine { hready with session := { hwork with paths_eq := ?_, unlined := hcleared } }
  rw [hcleared]
  rfl

theorem AtRest.ends_printProgram (h : sh.AtRest n) (source : String) :
    (printProgram source).Ends sh (fun _ sh' => sh'.AtRest n)
      fun f sh' => sh'.Ready n ∧ Fallen f sh'.session := by
  simp only [printProgram, Action.ends_bind, Action.ends_ofExcept, Action.ends_printLine]
  refine ⟨?_, ?_⟩
  · intro e _
    refine ⟨fun _ _ => h, ?_⟩
    intro f hf
    exact ⟨h.toReady, Expr.usual_of_compile hf, h.session.toAtWork⟩
  · intro f hf
    exact ⟨h.toReady, Expr.usual_of_parse hf, h.session.toAtWork⟩

theorem AtRest.ends_selectStrategy (h : sh.AtRest n) (name : String) :
    (selectStrategy name).Ends sh (fun _ sh' => sh'.AtRest n)
      fun f sh' => sh'.Ready n ∧ Fallen f sh'.session := by
  unfold selectStrategy
  split
  · simp only [Action.ends_bind, Action.ends_get, Action.ends_printLine]
    exact h
  · split
    · rw [Action.ends_complain]
      exact ⟨h.toReady, .complaint (Report.drawingFault?_unmarked _ _), h.session.toAtWork⟩
    · rename_i strategy hlisted
      rw [Action.ends_modify]
      have hmem : Strategy.ofName (Text.trimmed name) ∈ Strategy.listed := by
        cases hname : Strategy.ofName (Text.trimmed name) with
        | tree => simp [Strategy.listed]
        | vm => simp [Strategy.listed]
        | both => simp [Strategy.listed]
        | unlisted name => exact absurd hname (hlisted name)
      exact { h.toReady with session := { h.session with listed := hmem } }

/-- What `Shell.readExpression` does once the line is counted and the text of it is known. -/
def takeText (text : String) (number : Nat) : Action Shell Unit :=
  if LogicalLine.isOpen text then
    Action.modify fun sh => { sh with pending := text, prompt := secondaryPrompt }
  else do
    Action.modify fun sh => { sh with pending := "", prompt := primaryPrompt }
    if !text.isEmpty then inSession (runLine text number)

theorem run_readExpression (sh : Shell) (line : String) :
    (readExpression line).run sh =
      (takeText (LogicalLine.clean (sh.pending ++ " " ++ line)) (sh.lineNumber + 1)).run
        { sh with lineNumber := sh.lineNumber + 1 } := by
  rw [readExpression, Action.run_bind_of_silent (Action.run_modify _ _),
    Action.run_bind_of_silent (Action.run_get _)]
  rfl

/-- A text is kept while it is open, and otherwise run. -/
theorem ends_takeText (hnumber : sh.lineNumber = n) (hrest : sh.session.AtRest) {text : String}
    (htidy : LogicalLine.Tidy text) (number : Nat) :
    (takeText text number).Ends sh (fun _ sh' => sh'.AtRest n)
      fun f sh' => sh'.Ready n ∧ Fallen f sh'.session := by
  unfold takeText
  by_cases hopen : LogicalLine.isOpen text = true
  · have hfull : text ≠ "" := by
      rintro rfl
      cases hopen
    rw [if_pos hopen, Action.ends_modify]
    exact ⟨⟨(if_neg hfull).symm, fun _ => ⟨htidy, hopen⟩, hnumber⟩, hrest⟩
  · have hready : ∀ s : Session, Ready ⟨s, "", primaryPrompt, sh.lineNumber⟩ n :=
      fun s => ⟨rfl, fun hne => absurd rfl hne, hnumber⟩
    rw [if_neg hopen, Action.ends_bind, Action.ends_modify]
    split
    · rw [inSession, Action.ends_onPart]
      refine (ends_runLine hrest text number).mono ?_ ?_
      · intro _ s hs
        exact ⟨hready s, hs⟩
      · intro f s hs
        exact ⟨hready s, hs⟩
    · rw [Action.ends_pure]
      exact ⟨hready _, hrest⟩

theorem AtRest.ends_readExpression (h : sh.AtRest n) (line : String) :
    (readExpression line).Ends sh (fun _ sh' => sh'.AtRest (n + 1))
      fun f sh' => sh'.Ready (n + 1) ∧ Fallen f sh'.session := by
  have hnumber : ({ sh with lineNumber := sh.lineNumber + 1 } : Shell).lineNumber = n + 1 :=
    congrArg (· + 1) h.lineNumber_eq
  rw [Action.ends_congr (run_readExpression sh line)]
  exact ends_takeText hnumber h.session (LogicalLine.tidy_clean _) _

/-- The line is taken as an expression, or as a part of one. -/
def isExpression (line : String) : Bool :=
  match Command.ofLine line with
  | .expression _ => true
  | _ => false

/-- The line asks to leave the shell. -/
def Leaves (line : String) : Prop :=
  Command.ofLine line = .exit ∨ Command.ofLine line = .endOfInput

/-- Every line leaves the shell at rest and is answered, and it leaves the shell for good exactly
if it asks for that. -/
theorem AtRest.ends_takeLine (h : sh.AtRest n) (line : String) :
    (takeLine line).Ends sh
      (fun reply sh' => (reply = .leave ↔ Leaves line) ∧
        sh'.AtRest (n + if isExpression line then 1 else 0))
      fun _ _ => False := by
  unfold takeLine Leaves isExpression
  cases Command.ofLine line with
  | empty =>
      rw [Action.ends_pure]
      exact ⟨by simp, h⟩
  | emit source =>
      rw [Action.ends_bind]
      refine (ends_guarded (h.ends_printProgram source)).mono ?_ fun _ _ hnever => hnever
      intro _ sh' hsh'
      rw [Action.ends_pure]
      exact ⟨by simp, hsh'⟩
  | strategy name =>
      rw [Action.ends_bind]
      refine (ends_guarded (h.ends_selectStrategy name)).mono ?_ fun _ _ hnever => hnever
      intro _ sh' hsh'
      rw [Action.ends_pure]
      exact ⟨by simp, hsh'⟩
  | help =>
      rw [Action.ends_bind, Action.ends_printLine, Action.ends_pure]
      exact ⟨by simp, h⟩
  | endOfInput =>
      rw [Action.ends_bind, Action.ends_printLine, Action.ends_pure]
      exact ⟨by simp, h⟩
  | exit =>
      rw [Action.ends_pure]
      exact ⟨by simp, h⟩
  | expression line =>
      rw [Action.ends_bind]
      refine (ends_guarded (h.ends_readExpression line)).mono ?_ fun _ _ hnever => hnever
      intro _ sh' hsh'
      rw [Action.ends_pure]
      exact ⟨by simp, hsh'⟩

/-- A line is always answered, and leaves the shell at rest. -/
theorem AtRest.takeLine (h : sh.AtRest n) (line : String) :
    (∃ reply, ((takeLine line).run sh).result = .ok reply ∧ (reply = .leave ↔ Leaves line)) ∧
      ((takeLine line).run sh).state.AtRest (n + if isExpression line then 1 else 0) := by
  obtain ⟨hok, hfailed⟩ := Action.ends_iff.mp (h.ends_takeLine line)
  cases hresult : ((Shell.takeLine line).run sh).result with
  | ok reply =>
      obtain ⟨hleave, hrest⟩ := hok reply hresult
      exact ⟨⟨reply, rfl, hleave⟩, hrest⟩
  | error e => exact (hfailed e hresult).elim

/-- Any number of lines leaves the shell at rest. -/
theorem AtRest.after (h : sh.AtRest n) (lines : List String) :
    (sh.after lines).AtRest (n + lines.countP isExpression) := by
  induction lines generalizing sh n with
  | nil => exact h
  | cons line lines ih =>
      have hnext := ih (h.takeLine line).2
      rw [List.countP_cons, ← Nat.add_assoc, Nat.add_right_comm]
      exact hnext

/-- A shell begins at rest, over a session of typed input that has just been started. -/
theorem atRest_of_start {files : Files} {options : SessionOptions} {fatal coloured : Bool}
    (hpath : options.path = Session.interactivePath) (hinteractive : options.interactive = true)
    (hstart : ((Session.start files options).run ⟨fatal, coloured, []⟩).result = .ok s) :
    (ofSession s).AtRest 0 := by
  obtain ⟨path, strategy, size, interactive, assembly, emitting⟩ := options
  obtain rfl : path = Session.interactivePath := hpath
  obtain rfl : interactive = true := hinteractive
  have hlisted : strategy ∈ Strategy.listed := by
    cases strategy with
    | unlisted name => cases hstart
    | tree | vm | both => simp [Strategy.listed]
  cases hmake : Stack.make size with
  | error i =>
      rw [Session.run_start_of_make_error _ _ _ hlisted hmake] at hstart
      cases hstart
  | ok stack =>
      rw [Session.run_start_of_make _ _ _ hlisted hmake] at hstart
      obtain rfl := Except.ok.inj hstart
      have hvalid : stack.Valid := by
        rw [Stack.eq_unused_of_make hmake]
        exact (Stack.holds_unused _).valid
      exact
        { prompt_eq := rfl
          kept := fun hne => absurd rfl hne
          lineNumber_eq := rfl
          session :=
            { path_eq := rfl, interactive_eq := rfl, listed := hlisted, fatal_eq := rfl
              paths_eq := rfl, valid := hvalid, queue_eq := rfl, results_eq := rfl
              unlined := rfl } }

/-- Main result: whatever lines are typed, the shell is at rest after each of them.  The prompt
tells whether a text is open, and this text is trimmed, holds no comment and has more opening than
closing parentheses; nothing is queued, no result is kept, no line is in work, errors do not end
the calculator and the strategy is one of the three; and the lines that were taken as expressions
are counted.  Every line is answered, and only a command to leave leaves the shell. -/
theorem always_atRest {files : Files} {options : SessionOptions} {fatal coloured : Bool}
    (hpath : options.path = Session.interactivePath) (hinteractive : options.interactive = true)
    (hstart : ((Session.start files options).run ⟨fatal, coloured, []⟩).result = .ok s)
    (lines : List String) :
    ((ofSession s).after lines).AtRest (lines.countP isExpression) ∧
      ∀ line, ∃ reply, ((takeLine line).run ((ofSession s).after lines)).result = .ok reply ∧
        (reply = .leave ↔ Leaves line) := by
  have hrest := (atRest_of_start hpath hinteractive hstart).after lines
  rw [Nat.zero_add] at hrest
  exact ⟨hrest, fun line => (hrest.takeLine line).1⟩

/-- A text that is open, a strategy that is refused and a product that overflows. -/
theorem always_atRest_open_text :
    ∃ s, ((Session.start (fun _ => none)
        { path := Session.interactivePath, interactive := true, strategy := .both }).run
          ⟨true, false, []⟩).result = .ok s ∧
      ((ofSession s).after ["1 * (", "strategy fast", "1e999 * 2) ;; huge", "3 + ("]).AtRest 3 := by
  have hstart : ((Session.start (fun _ => none)
      { path := Session.interactivePath, interactive := true, strategy := .both }).run
        ⟨true, false, []⟩).result = .ok (Session.fresh
          { path := Session.interactivePath, interactive := true, strategy := .both }
          ⟨false, false, [⟨Session.interactivePath, none, none⟩]⟩ .growing) := rfl
  have hcount :
      ["1 * (", "strategy fast", "1e999 * 2) ;; huge", "3 + ("].countP isExpression = 3 := by
    decide
  have hrest := (always_atRest rfl rfl hstart
    ["1 * (", "strategy fast", "1e999 * 2) ;; huge", "3 + ("]).1
  rw [hcount] at hrest
  exact ⟨_, hstart, hrest⟩

end Calculator.Shell
