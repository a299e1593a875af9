import Calculator.Session

/-!
The interactive shell. A line is a command or an expression; an expression with an open
parenthesis is continued on the next lines, under another prompt.
-/
namespace Calculator

/-- State of the shell. -/
structure Shell where
  session : Session
  /-- The lines of an expression that is not complete yet. -/
  pending : String
  prompt : String
  /-- Number of lines taken as expressions. -/
  lineNumber : Nat

namespace Shell

/-- What a line does to the loop that reads lines. -/
inductive Reply where
  /-- The next line is read. -/
  | next
  /-- The line was empty, and the next one is read. -/
  | empty
  /-- The shell is left. -/
  | leave
  deriving DecidableEq, Repr

def primaryPrompt : String := "> "

/-- The prompt of a line that continues an expression. -/
def secondaryPrompt : String := ". "

def intro : String :=
  "Arithmetic interpreter :: tree walker + stack machine\n" ++
    "Type '?' or 'help' for more information."

def helpText : String :=
  "Welcome to the acalc interpreter!\n\n" ++
    "Type an arithmetic expression such as '6 + (4 + 3)' to evaluate it. Expressions \n" ++
    "support + - * / over decimal numbers, with the usual precedence.\n\n" ++
    "'strategy tree' walks the expression tree, 'strategy vm' compiles it and runs it \n" ++
    "on the stack machine, and 'strategy both' checks that the two agree. 'emit EXPR' \n" ++
    "shows the compiled program."

def ofSession (session : Session) : Shell :=
  ⟨session, "", primaryPrompt, 0⟩

/-- Does an action of the session. -/
def inSession {α : Type} (a : Action Session α) : Action Shell α :=
  a.onPart Shell.session fun sh s => { sh with session := s }

def guarded (a : Action Shell Unit) : Action Shell Unit :=
  a.settling fun e => inSession (Session.reporting (Reporter.settle e))

/-- Runs a complete expression and prints its result. -/
def runLine (line : String) (number : Nat) : Action Session Unit := do
  Session.add line number
  Session.run
  let s ← Action.get
  if !s.results.isEmpty then
    let result ← Session.popResult
    Action.printLine result

/-- Continues or completes an expression. -/
def readExpression (line : String) : Action Shell Unit := do
  Action.modify fun sh => { sh with lineNumber := sh.lineNumber + 1 }
  let sh ← Action.get
  let text := LogicalLine.clean (sh.pending ++ " " ++ line)
  if LogicalLine.isOpen text then
    Action.modify fun sh => { sh with pending := text, prompt := secondaryPrompt }
  else
    Action.modify fun sh => { sh with pending := "", prompt := primaryPrompt }
    if !text.isEmpty then inSession (runLine text sh.lineNumber)

/-- Takes a line that is no command. -/
def takeExpression (line : String) : Action Shell Unit :=
  guarded (readExpression line)

def printProgram (source : String) : Action Shell Unit := do
  let e ← Action.ofExcept (Expr.parse source)
  let p ← Action.ofExcept e.compile
  Action.printLine p.display

def emit (source : String) : Action Shell Unit :=
  guarded (printProgram source)

def selectStrategy (name : String) : Action Shell Unit := do
  if name.isEmpty then
    let sh ← Action.get
    Action.printLine sh.session.strategy.name
  else
    match Strategy.ofName (Text.trimmed name) with
    | .unlisted name => Action.complain (.unknownStrategy name)
    | strategy =>
      Action.modify fun sh => { sh with session := { sh.session with strategy } }

def strategy (name : String) : Action Shell Unit :=
  guarded (selectStrategy name)

/-- Whether a character may stand in the name of a command. -/
def isNameChar (c : Char) : Bool :=
  ('a' ≤ c && c ≤ 'z') || ('A' ≤ c && c ≤ 'Z') || ('0' ≤ c && c ≤ '9') || c == '_'

/-- What a line asks for. -/
inductive Command where
  | empty
  | emit (source : String)
  | strategy (name : String)
  | help
  | endOfInput
  | exit
  /-- An expression, or a part of one. -/
  | expression (line : String)
  deriving DecidableEq, Repr

/-- The command of a name with its argument; a line with another name is an expression. -/
def Command.ofName (name argument line : String) : Command :=
  match name with
  | "emit" => .emit argument
  | "strategy" => .strategy argument
  | "help" => .help
  | "EOF" => .endOfInput
  | "exit" => .exit
  | _ => .expression line

/-- What a line asks for. A question mark asks for help; otherwise the word that the line begins
with names the command. -/
def Command.ofLine (line : String) : Command :=
  match Text.trim line.toList with
  | [] => .empty
  | '?' :: _ => .help
  | cs =>
    .ofName (String.ofList (cs.takeWhile isNameChar))
      (String.ofList (Text.trim (cs.dropWhile isNameChar))) (String.ofList cs)

def takeLine (line : String) : Action Shell Reply := do
  match Command.ofLine line with
  | .empty => return .empty
  | .emit source => emit source; return .next
  | .strategy name => strategy name; return .next
  | .help => Action.printLine helpText; return .next
  | .endOfInput => Action.printLine ""; return .leave
  | .exit => return .leave
  | .expression line => takeExpression line; return .next

/-- The line that stands for the end of the input. -/
def endOfInput : String := "EOF"

/-- Prompts for a line and takes it. -/
def prompted (line : String) : Action Shell Reply := do
  let sh ← Action.get
  Action.print sh.prompt
  takeLine line

/-- Takes lines until one leaves the shell; the end of the input leaves it too. -/
def loop : List String → Action Shell Unit
  | [] => do let _ ← prompted endOfInput
  | line :: lines => do
    match ← prompted line with
    | .leave => pure ()
    | _ => loop lines

end Shell

end Calculator
