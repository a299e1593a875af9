import Calculator.Proofs.Report.Settling
import Calculator.Proofs.Session.Mistakes
import Calculator.Proofs.Shell.History

/-!
Conversations.  The shell prompts and takes a line, again and again, until a line leaves it or there
are no more.  Every line is answered; and if what it asks for fails, then the failure is a mistake
of the user, which is reported, and the next line is taken.
-/
namespace Calculator

/-- An answer of one's own prints nothing. -/
theorem Action.printed_bind_pure {σ α β : Type} (a : Action σ α) (y : β) (s : σ) :
    (run (a >>= fun _ => pure y) s).printed = (run a s).printed := by
  rcases h : run a s with ⟨out, t, answer⟩
  cases answer with
  | ok x => rw [run_bind_pure h]
  | error f => rw [run_bind_of_error h]

namespace Shell

variable {coloured : Bool} {sh sh' : Shell} {line out rest : String} {lines : List String}
  {reply : Reply} {f : Failure} {report : Report} {c : Command} {v : View} {stack : Stack}

open Failure (Mistake mistake_complaint)

/-- A guarded action that fails prints the report of the failure after what it printed before. -/
theorem printed_guarded {a : Action Shell Unit} (hfails : (a.run sh).result = .error f)
    (hreport : f.report? = some report) (hdrawn : report.drawingFault? = none) :
    ((guarded a).run sh).printed =
      (a.run sh).printed ++ (a.run sh).state.session.reporter.errorText report := by
  rcases hrun : a.run sh with ⟨printed, sh', answer⟩
  rw [hrun] at hfails
  obtain rfl := hfails
  rw [guarded, Action.run_settling_of_error hrun]
  exact congrArg (printed ++ ·) (Reporter.printed_settle hreport hdrawn sh'.session.reporter)

end Shell

end Calculator
