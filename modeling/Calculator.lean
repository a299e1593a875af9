import Calculator.Main
import Calculator.Proofs.Expr.Blame
import Calculator.Proofs.Expr.Code
import Calculator.Proofs.Expr.Drawing
import Calculator.Proofs.Expr.Foreign
import Calculator.Proofs.Expr.Mismatch
import Calculator.Proofs.Expr.Nesting
import Calculator.Proofs.Machine.Depth
import Calculator.Proofs.Machine.Reassembly
import Calculator.Proofs.Program.Listing
import Calculator.Proofs.Program.Validation
import Calculator.Proofs.Report.Containment
import Calculator.Proofs.Report.Decoration
import Calculator.Proofs.Run.Agreement
import Calculator.Proofs.Run.Reported
import Calculator.Proofs.Run.Strategies
import Calculator.Proofs.Session.Adding
import Calculator.Proofs.Session.Assembly
import Calculator.Proofs.Session.Grouping
import Calculator.Proofs.Session.Layout
import Calculator.Proofs.Shell.Listings
import Calculator.Proofs.Shell.Resting
import Calculator.Proofs.Token.Columns
