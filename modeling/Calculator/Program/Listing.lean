import Calculator.Decimal.Numeral
import Calculator.Program.Record
import Calculator.Text.Blank
import Calculator.Text.Case

/-!
Assembly listings. Each line of a listing holds a mnemonic, in any case, and one operand: a number
for a push, an operator for an application. Blank lines are skipped.
-/
namespace Calculator

namespace Record

/-- A number with an optional minus sign, as a listing writes it. -/
def signedValue? : List Char → Option Float
  | '-' :: cs => (Numeral.ofText? cs).map (·.value true)
  | cs => (Numeral.ofText? cs).map (·.value false)

/-- The record that a line of a listing states. Only the operand of a push is looked at here; any
other mnemonic is passed on with its operand as a text. The operand is the last word of the line, so
its column is the last one at which it occurs. -/
def ofLine (line : String) : Except Complaint Record :=
  match Text.words line.toList with
  | [mnemonic, operand] =>
    let tag := String.ofList (Text.lower mnemonic)
    if tag == Instr.pushTag then
      match signedValue? operand with
      | some x => .ok ⟨.text tag, .float x⟩
      | none =>
        .error (.pushOperand line (String.ofList operand)
          ((Text.trimRight line.toList).length - operand.length))
    else .ok ⟨.text tag, .text (String.ofList operand)⟩
  | _ => .error (.instructionForm line)

end Record

namespace Instr

/-- The instruction that a line of a listing states. -/
def ofLine (line : String) : Except Complaint Instr := do
  let r ← Record.ofLine line
  Record.instr r.toDatum

end Instr

namespace Program

def isBlankLine (line : String) : Bool :=
  line.toList.all Text.isBlank

/-- The program that a listing states, read and checked line by line. -/
def ofListing (lines : List String) : Except Complaint Program :=
  ((lines.filter (!isBlankLine ·)).mapM Instr.ofLine).map ofInstrs

end Program

end Calculator
