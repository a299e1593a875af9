import Calculator.CommandLine
import Calculator.Shell

/-!
Runs of the calculator. A run has a command line, files and typed input; it leaves what it printed
and an exit code.
-/
namespace Calculator

/-- What a run leaves: what it printed as output and as errors, and its exit code. -/
structure Transcript where
  out : String
  err : String
  exit : Int
  deriving DecidableEq, Repr

namespace Settings

/-- How the session of a file is started. -/
def fileSession (settings : Settings) (path : String) : SessionOptions :=
  { path, strategy := settings.strategy, stackSize := settings.stackSize,
    assembly := settings.assembly, emitting := settings.emitting }

/-- How the session of the shell is started. -/
def shellSession (settings : Settings) : SessionOptions :=
  { path := Session.interactivePath, strategy := settings.strategy,
    stackSize := settings.stackSize, interactive := true, emitting := settings.emitting }

end Settings

namespace Run

/-- The reporter with which a run begins. -/
def reporter (coloured : Bool) : Reporter := ⟨true, coloured, []⟩

/-- Exit code of a run that ended with `result`. -/
def exitCode {α : Type} : Except Failure α → Int
  | .ok _ => 0
  | .error (.exit code) => code
  | .error _ => Reporter.errorExit

/-- Runs a file, and prints its results if none of it failed. -/
def interpret (files : Files) (settings : Settings) (path : String) : Action Reporter Unit := do
  let s ← Session.start files (settings.fileSession path)
  let s ← s.conduct Session.run
  Action.print (String.join (s.results.map (· ++ "\n")))

/-- Does an action of a shell for its session's reporter alone. -/
def conduct {α : Type} (shell : Shell) (a : Action Shell α) : Action Reporter α := fun r =>
  let o := a { shell with session := { shell.session with reporter := r } }
  ⟨o.printed, o.state.session.reporter, o.result⟩

def greet (files : Files) (settings : Settings) : Action Reporter Shell := do
  let s ← Session.start files settings.shellSession
  Action.printLine Shell.intro
  return Shell.ofSession s

def converse (files : Files) (settings : Settings) (lines : List String) :
    Action Reporter Unit := do
  let shell ← greet files settings
  conduct shell (Shell.loop lines)

/-- Text of the lines that are typed, of which the last may lack its end. -/
def typedLines (input : String) : List String :=
  (Text.lines input.toList).map String.ofList

/-- What a refused command line leaves. -/
def refused : Refusal → Transcript
  | .help => ⟨Refusal.helpText, "", 0⟩
  | .usage message => ⟨"", Refusal.errorText message, Refusal.usageExit⟩

/-- What a run with the given settings does. -/
def action (files : Files) (settings : Settings) (input : String) : Action Reporter Unit :=
  match settings.file with
  | some path => interpret files settings path
  | none => converse files settings (typedLines input)

/-- A whole run. -/
def transcript (coloured : Bool) (files : Files) (arguments : List String) (input : String) :
    Transcript :=
  match Settings.ofArguments arguments with
  | .error refusal => refused refusal
  | .ok settings =>
    let o := (Reporter.guarded (action files settings input)).run (reporter coloured)
    ⟨o.printed, "", exitCode o.result⟩

end Run

end Calculator
