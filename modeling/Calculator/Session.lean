import Calculator.LogicalLine
import Calculator.Machine
import Calculator.Expr.Parser
import Calculator.Program.Compile
import Calculator.Program.Listing
import Calculator.Report.Reporter
import Calculator.Text.Line

/-!
Sessions. A session reads expressions, queues them and runs them with a strategy: walking the
tree, or compiling it for the stack machine. It may instead read an assembly listing, and it may
show programs instead of results.
-/
namespace Calculator

/-- How expressions are run. -/
inductive Strategy where
  | tree
  | vm
  | both
  /-- A name that stands for no strategy; a session that is given one later runs the machine. -/
  | unlisted (name : String)
  deriving DecidableEq, Repr

namespace Strategy

/-- The strategies that a session can be started with. -/
def listed : List Strategy := [tree, vm, both]

def name : Strategy → String
  | tree => "tree"
  | vm => "vm"
  | both => "both"
  | unlisted name => name

def ofName (s : String) : Strategy :=
  (listed.find? (·.name == s)).getD (unlisted s)

end Strategy

/-- Files by their paths: the octets of those that can be read. -/
abbrev Files := String → Option (List UInt8)

/-- An expression that waits to be run. -/
structure QueuedExpr where
  number : Int
  text : String
  tree : Expr

/-- State of a session. -/
structure Session where
  reporter : Reporter
  path : String
  strategy : Strategy
  /-- Whether expressions are typed in, so that each leaves the queue once it was run. -/
  interactive : Bool
  /-- Whether lines are instructions instead of expressions. -/
  assembly : Bool
  /-- Whether programs are shown instead of results. -/
  emitting : Bool
  stack : Stack
  queue : List QueuedExpr
  records : List Record
  results : List String

/-- How a session is to be started. -/
structure SessionOptions where
  path : String
  strategy : Strategy := .vm
  stackSize : Option Int := none
  interactive : Bool := false
  assembly : Bool := false
  emitting : Bool := false

namespace Session

/-- Path that stands for the interactive input. -/
def interactivePath : String := "<in>"

/-- Does an action of the reporter. -/
def reporting {α : Type} (a : Action Reporter α) : Action Session α :=
  a.onPart Session.reporter fun s r => { s with reporter := r }

def guarded (a : Action Session Unit) : Action Session Unit :=
  a.settling fun e => reporting (Reporter.settle e)

def registerLine (text : String) (number : Int) : Action Session Unit :=
  Action.modify fun s => { s with reporter := s.reporter.registerLine s.path text number }

def removeLine : Action Session Unit :=
  Action.modify fun s => { s with reporter := s.reporter.removeLine s.path }

/-- Queues an expression in the place of the one with the same number, or at the end. -/
def enqueue (q : QueuedExpr) : List QueuedExpr → List QueuedExpr
  | [] => [q]
  | q' :: qs => if q'.number == q.number then q :: qs else q' :: enqueue q qs

/-- What a line adds to the session: a record that is one of an instruction, or an expression. The
record of a line can be shown, so its complaint never fails to be written. -/
def accept (text : String) (number : Int) (s : Session) : Except Failure Session :=
  if s.assembly then
    match Record.ofLine text with
    | .error c => .error (.complaint c)
    | .ok r =>
      match Record.instr r.toDatum with
      | .error c => .error (.complaint c)
      | .ok _ => .ok { s with records := s.records ++ [r] }
  else (Expr.parse text).map fun tree => { s with queue := enqueue ⟨number, text, tree⟩ s.queue }

/-- Adds a line. The line is registered for as long as it is being read. -/
def add (text : String) (number : Int) : Action Session Unit := do
  registerLine text number
  let s ← Action.get
  let s ← Action.ofExcept (s.accept text number)
  Action.modify fun _ => s
  removeLine

def runProgram (p : Program) : Action Session Float := fun s =>
  let (stack, result) := s.stack.run p
  ⟨"", { s with stack }, result.mapError .complaint⟩

/-- The complaint that the strategies give different values for a tree. -/
def disagreement (d : Datum) (tree machine : Float) : Failure :=
  .complaint (.strategiesDisagree d.plain (Number.text tree) (Number.text machine))

/-- Value of a tree by the session's strategy. -/
def execute (d : Datum) : Action Session Float := do
  let s ← Action.get
  match s.strategy with
  | .tree => Action.ofExcept d.evaluate
  | strategy =>
    let p ← Action.ofExcept d.compile
    let machine ← runProgram p
    if strategy == .both then
      let tree ← Action.ofExcept d.evaluate
      if Binary64.identical tree machine then return machine
      else Action.fail (disagreement d tree machine)
    else return machine

def addResult (result : String) : Action Session Unit :=
  Action.modify fun s => { s with results := s.results ++ [result] }

/-- The warning about a value that is not finite. -/
def notFinite (text : String) (x : Float) : Report :=
  .unmarked (Complaint.quotedSnippet 0 ++ [.text " evaluates to ", .snippet 1])
    [text, Number.text x]

/-- Adds a value as the result of `text`, with a warning if it is not finite. -/
def record (text : String) (x : Float) : Action Session Unit := do
  if !Binary64.isFinite x then reporting (Reporter.warn (notFinite text x))
  addResult (Number.text x)

/-- Runs a queued expression, or shows its program. -/
def runTree (text : String) (tree : Expr) : Action Session Unit := do
  let s ← Action.get
  if s.emitting then
    let p ← Action.ofExcept tree.compile
    addResult p.display
  else
    let x ← execute (.expr tree)
    record text x

/-- Takes the expression of a number off the queue. -/
def dequeue (number : Int) (s : Session) : Session :=
  { s with queue := s.queue.filter (·.number != number) }

/-- Runs one queued expression, which is registered for as long as it runs. In an interactive
session it leaves the queue, whether it fails or not. -/
def runQueued (q : QueuedExpr) : Action Session Unit := do
  registerLine q.text q.number
  let s ← Action.get
  (runTree q.text q.tree).lastly fun s' =>
    if s.interactive then s'.dequeue q.number else s'
  removeLine

/-- Runs queued expressions in order until one fails. -/
def runAll : List QueuedExpr → Action Session Unit
  | [] => pure ()
  | q :: qs => do
    runQueued q
    runAll qs

/-- What a listing's value is reported for. -/
def listingName (path : String) (p : Program) : String :=
  path ++ " (" ++ Layout.natText p.size ++ " instructions)"

/-- Runs the program of which the session has the records. All of them are records of lines, which
can be shown. -/
def runListing : Action Session Unit := do
  let s ← Action.get
  let p ← Action.ofExcept
    ((Program.ofRecords (s.records.map Record.toDatum)).mapError .complaint)
  if s.emitting then addResult p.display
  else
    let x ← runProgram p
    record (listingName s.path p) x

def run : Action Session Unit := do
  let s ← Action.get
  if s.assembly then runListing else runAll s.queue

def popResult : Action Session String := do
  let s ← Action.get
  match s.results.getLast? with
  | some result =>
    Action.modify fun s => { s with results := s.results.dropLast }
    return result
  | none => Action.fail (.internal .emptyList)

/-- The text of a file, decoded, or why there is none. -/
def readFile (files : Files) (path : String) : Except Failure (List Char) :=
  if path.toList.contains '\x00' then .error (.internal .nulInPath)
  else
    match files path with
    | none => .error (.complaint (.unreadableFile path))
    | some bytes => (Text.Utf8.decode bytes).mapError fun m => .internal (.malformedText m)

/-- The logical lines of a file. -/
def readLogicalLines (files : Files) (path : String) : Except Failure (List LogicalLine) :=
  match readFile files path with
  | .error e => .error e
  | .ok cs => (LogicalLine.assemble ((Text.lines cs).map String.ofList)).mapError .internal

/-- Adds logical lines in order until one fails. -/
def addAll : List LogicalLine → Action Session Unit
  | [] => pure ()
  | l :: ls => do
    add l.text l.number
    addAll ls

/-- Reads the session's input, unless it is typed in. -/
def load (files : Files) : Action Session Unit := do
  let s ← Action.get
  if s.path != interactivePath then
    let ls ← Action.ofExcept (readLogicalLines files s.path)
    addAll ls
  else if !s.interactive then Action.complain .reservedName

/-- A session that has read nothing yet. -/
def fresh (options : SessionOptions) (reporter : Reporter) (stack : Stack) : Session :=
  { reporter, path := options.path, strategy := options.strategy,
    interactive := options.interactive, assembly := options.assembly,
    emitting := options.emitting, stack, queue := [], records := [], results := [] }

/-- Does an action of a session for its reporter alone, and answers the session. -/
def conduct (s : Session) (a : Action Session Unit) : Action Reporter Session := fun r =>
  let o := a { s with reporter := r }
  ⟨o.printed, o.state.reporter, o.result.map fun _ => o.state⟩

/-- Starts a session: checks the strategy, registers the input, makes the stack and reads the
input. An error in an interactive session does not end the calculator. -/
def start (files : Files) (options : SessionOptions) : Action Reporter Session := do
  match options.strategy with
  | .unlisted name => Action.complain (.unknownStrategy name)
  | _ =>
    Action.modify (·.registerFile options.path)
    let stack ← Action.ofExcept ((Stack.make options.stackSize).mapError .internal)
    if options.interactive then Action.modify fun r => { r with fatal := false }
    let r ← Action.get
    conduct (fresh options r stack) (load files)

end Session

end Calculator
