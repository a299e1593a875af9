import Calculator.Action
import Calculator.Report.Traceback

/-!
The reporter tells the user about errors and warnings. It knows the traceback, and after an error
it either ends the calculator or goes on with a clear traceback.
-/
namespace Calculator

/-- State of the reporter. -/
structure Reporter where
  /-- Whether an error ends the calculator. -/
  fatal : Bool
  /-- Whether output is coloured. -/
  coloured : Bool
  traceback : Traceback

namespace Reporter

/-- Registers an input, without a line. -/
def registerFile (path : String) (r : Reporter) : Reporter :=
  { r with traceback := r.traceback.put ⟨path, none, none⟩ }

/-- Registers the line of an input that is to be worked on. -/
def registerLine (path : String) (line : Option String) (number : Option Int) (r : Reporter) :
    Reporter :=
  { r with traceback := r.traceback.put ⟨path, line, number⟩ }

/-- Forgets the line of an input. -/
def removeLine (path : String) (r : Reporter) : Reporter :=
  r.registerFile path

/-- Text of the span to blame, as a line, if it is to be shown. -/
def diagnosisText (r : Reporter) (warning : Bool) (report : Report) : String :=
  if report.showsDiagnosis then report.diagnosis r.coloured warning ++ "\n" else ""

/-- Text of a warning: the place, a label and the message. -/
def warningText (r : Reporter) (report : Report) : String :=
  Ink.bold.paint r.coloured r.traceback.location ++
    Ink.warning.paint r.coloured "warning: " ++ report.styled r.coloured ++ "\n" ++
    r.diagnosisText true report

/-- Text of an error: the traceback, the labels and the message. -/
def errorText (r : Reporter) (report : Report) : String :=
  r.traceback.text ++
    (if report.internal then Ink.error.paint r.coloured "[internal] " else "") ++
    Ink.error.paint r.coloured "error: " ++ report.styled r.coloured ++ "\n" ++
    r.diagnosisText false report

/-- Prints a warning, up to its span if this cannot be drawn. -/
def warn (report : Report) : Action Reporter Unit := do
  let r ← Action.get
  match report.drawingFault? with
  | some i => do
    Action.print (r.warningText report.undrawn)
    Action.fail (.internal i)
  | none => Action.print (r.warningText report)

/-- Exit code after an error. -/
def errorExit : Int := 1

/-- Prints an error. Then the calculator ends, or the traceback is cleared. If the span cannot be
drawn then all this stops before it. -/
def throw (report : Report) : Action Reporter Unit := do
  let r ← Action.get
  match report.drawingFault? with
  | some i => do
    Action.print (r.errorText report.undrawn)
    Action.fail (.internal i)
  | none => do
    Action.print (r.errorText report)
    if r.fatal then Action.fail (.exit errorExit)
    else Action.modify fun r => { r with traceback := r.traceback.cleared }

/-- Deals with a failure: reports it, and goes on unless it is an exit or internal. -/
def settle (e : Failure) : Action Reporter Unit :=
  match e.report? with
  | none => Action.fail e
  | some report => do
    throw report
    match e with
    | .internal _ => Action.fail e
    | _ => pure ()

def guarded (a : Action Reporter Unit) : Action Reporter Unit :=
  a.settling settle

end Reporter

end Calculator
