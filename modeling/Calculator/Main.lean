import Calculator.Run

/-!
The program. It reads the arguments, the file or the typed lines, and prints what the calculator
answers.
-/
namespace Calculator.Main

def isSet (name : String) : IO Bool := do
  return ((← IO.getEnv name).getD "") != ""

/-- Whether output is coloured: as the environment says, or else if it goes to a terminal. -/
def wantsColour : IO Bool := do
  if ← isSet "ANSI_COLORS_DISABLED" then return false
  if ← isSet "NO_COLOR" then return false
  if ← isSet "FORCE_COLOR" then return true
  if (← IO.getEnv "TERM") == some "dumb" then return false
  (← IO.getStdout).isTty

/-- The one file that a run reads, if it can be read. -/
def load (path : String) : IO Files := do
  let content ← try
      pure (some (← IO.FS.readBinFile path).toList)
    catch _ => pure none
  return fun p => if p == path then content else none

/-- Prints what an action printed at once, and answers its state and result. -/
def perform {σ α : Type} (a : Action σ α) (s : σ) : IO (σ × Except Failure α) := do
  let o := a.run s
  IO.print o.printed
  (← IO.getStdout).flush
  return (o.state, o.result)

/-- The lines typed next: one, unless carriage returns part it. At the end of the input there is
none. -/
def readLines : IO (List String) := do
  return Run.typedLines (← (← IO.getStdin).getLine)

/-- Takes lines until one leaves the shell. -/
def takeLines : List String → Shell → IO (Shell × Except Failure Shell.Reply)
  | [], sh => return (sh, .ok .next)
  | line :: lines, sh => do
    let (sh, result) ← perform (Shell.takeLine line) sh
    match lines, result with
    | _ :: _, .ok .next | _ :: _, .ok .empty =>
      IO.print sh.prompt
      takeLines lines sh
    | _, result => return (sh, result)

/-- Prompts for lines and takes them until one leaves the shell, and answers the exit code. -/
partial def converse (sh : Shell) : IO Int := do
  IO.print sh.prompt
  (← IO.getStdout).flush
  let lines ← readLines
  let lines := if lines.isEmpty then [Shell.endOfInput] else lines
  match ← takeLines lines sh with
  | (_, .ok .leave) => return 0
  | (sh, .ok _) => converse sh
  | (sh, .error e) =>
    let (_, result) ← perform (Reporter.settle e) sh.session.reporter
    return Run.exitCode result

/-- Does an action of the reporter, guarded, and answers its exit code. -/
def conclude (coloured : Bool) (a : Action Reporter Unit) : IO Int := do
  let (_, result) ← perform (Reporter.guarded a) (Run.reporter coloured)
  return Run.exitCode result

/-- Runs the calculator with settings, and answers its exit code. -/
def start (settings : Settings) : IO Int := do
  let coloured ← wantsColour
  match settings.file with
  | some path => conclude coloured (Run.interpret (← load path) settings path)
  | none =>
    match ← perform (Run.greet (fun _ => none) settings) (Run.reporter coloured) with
    | (_, .ok shell) => converse shell
    | (r, .error e) =>
      let (_, result) ← perform (Reporter.settle e) r
      return Run.exitCode result

end Calculator.Main

def main (arguments : List String) : IO UInt32 := do
  match Calculator.Settings.ofArguments arguments with
  | .ok settings => return (← Calculator.Main.start settings).toNat.toUInt32
  | .error refusal =>
    let t := Calculator.Run.refused refusal
    IO.print t.out
    IO.eprint t.err
    return t.exit.toNat.toUInt32
