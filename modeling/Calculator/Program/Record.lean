import Calculator.Datum.Written
import Calculator.Expr.Build
import Calculator.Program.Basic

/-!
Records. A program is flattened to records of a tag and an operand, and rebuilt from them. Any
data may be offered as records: the first one that is not a known tag with a fitting operand is
refused, and shown as far as it can be written.
-/
namespace Calculator

/-- A tag and an operand. -/
structure Record where
  tag : Datum
  operand : Datum

namespace Record

def toDatum (r : Record) : Datum :=
  .tuple [r.tag, r.operand]

/-- The record of an item. Only instructions have one. -/
def ofItem : Datum → Except Internal Record
  | .instr i => do
    let operand ← i.operand
    return ⟨i.tag, operand⟩
  | _ => .error .lacking

/-- The two elements of a datum that has just two; the elements of a text are its characters. -/
def pair? : Datum → Option (Datum × Datum)
  | .list [tag, operand] | .tuple [tag, operand] => some (tag, operand)
  | .text s =>
    match s.toList with
    | [c, d] => some (.text (String.singleton c), .text (String.singleton d))
    | _ => none
  | _ => none

/-- The instruction that a datum is the record of. A datum that is refused stands in the complaint,
be it written or not. -/
def instr (d : Datum) : Except Complaint Instr :=
  match pair? d with
  | some (.text tag, operand) =>
    if tag == Instr.pushTag then Instr.pushOf operand
    else if tag == Instr.applyTag then
      match operand.operator? with
      | some op => .ok (.apply op)
      | none => .error (.unknownInstruction d.shown)
    else .error (.unknownInstruction d.shown)
  | _ => .error (.unknownInstruction d.shown)

/-- Why a datum cannot be shown when it is refused, if it cannot. Of a push the operand is shown, as
the value of the instruction. -/
def shownFault? (d : Datum) : Option Failure :=
  match pair? d with
  | some (.text tag, operand) =>
    if tag == Instr.pushTag then operand.shownFault? (Datum.shownLimit - Datum.fieldCalls)
    else d.shownFault? Datum.shownLimit
  | _ => d.shownFault? Datum.shownLimit

/-- The instruction that a datum is the record of. Where a datum that is refused cannot be shown,
there is this failure instead of the complaint. -/
def read (d : Datum) : Except Failure Instr :=
  match instr d with
  | .ok i => .ok i
  | .error c => .error ((shownFault? d).getD (.complaint c))

end Record

namespace Program

/-- The records of the program's items, in order. -/
def records (p : Program) : Except Internal (List Record) :=
  p.items.mapM Record.ofItem

/-- The program of which the data are the records, the complaint being about a datum that may be
written or not. -/
def ofRecords (ds : List Datum) : Except Complaint Program :=
  (ds.mapM Record.instr).map ofInstrs

/-- Rebuilds the program of which the data are the records. -/
def rebuild (ds : List Datum) : Except Failure Program :=
  (ds.mapM Record.read).map ofInstrs

end Program

end Calculator
