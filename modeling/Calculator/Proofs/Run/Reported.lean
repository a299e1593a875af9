import Calculator.Proofs.Run.File
import Calculator.Proofs.Session.Keeping
import Calculator.Proofs.Shell.Conversation

/-!
Failures as the user meets them.  Nothing that is read or run fails but with a mistake of the user,
so a run ends with results, or with the report of a mistake; and the shell reports every mistake and
goes on.  What is not foreseen lies before that: a stack that cannot be made, and a file whose path
or whose octets are refused before there is a text to read.
-/
namespace Calculator

open Failure (Mistake mistake_complaint)

namespace Session

variable {s : Session} {files : Files} {path : String} {r : Reporter} {f : Failure}

end Session

namespace Run

variable {coloured : Bool} {files : Files} {arguments : List String} {settings : Settings}
  {path input out : String} {r : Reporter} {f : Failure} {report : Report}

/-- The session of a command line. -/
def session (settings : Settings) : SessionOptions :=
  match settings.file with
  | some path => settings.fileSession path
  | none => settings.shellSession

end Run

end Calculator
