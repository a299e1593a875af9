import Calculator.Datum.Basic

/-!
Instructions of the stack machine: their tags and operands, how they are shown, and what they do to
the height of the stack.
-/
namespace Calculator

namespace Instr

def pushTag : String := "push"

def applyTag : String := "apply"

/-- Mnemonic of the instruction in listings and records. -/
def tag : Instr → Datum
  | push _ => .text pushTag
  | apply _ => .text applyTag
  | derivedPush _ tag _ _ | derivedApply _ tag _ _ | foreign _ tag _ => tag

/-- Operand of the instruction in its record. -/
def operand : Instr → Except Internal Datum
  | push x => .ok (.float x)
  | apply op => .ok (.text op.text)
  | derivedPush _ _ operand _ | derivedApply _ _ operand _ | foreign _ _ operand => operand

/-- A refined push that has the tag and the operand of the plain one. -/
def keptPush (kind : String) (x : Float) : Instr :=
  .derivedPush kind (push x).tag (push x).operand x

/-- Kind of a plain push in a value shown in full. -/
def pushKind : String := "PushConstant"

/-- A push of some kind shown in full, with what stands for its value. -/
def shownPush (kind value : String) : String :=
  kind ++ "(value=" ++ value ++ ")"

/-- Kind of a plain application in a value shown in full. -/
def applyKind : String := "Apply"

/-- An application of some kind shown in full, with what stands for its operator. -/
def shownApply (kind operator : String) : String :=
  kind ++ "(operator=" ++ operator ++ ")"

/-- The instruction as a value shown in full. -/
def shown : Instr → String
  | push x => shownPush pushKind (Number.fullText x)
  | derivedPush kind _ _ x => shownPush kind (Number.fullText x)
  | apply op => shownApply applyKind op.shown
  | derivedApply kind _ _ op => shownApply kind op.shown
  | foreign shown _ _ => shown

/-- How the instruction changes the number of values on the stack, where that is declared. -/
def effect? : Instr → Option Int
  | push _ => some 1
  | apply _ => some (-1)
  | derivedPush _ _ _ _ | derivedApply _ _ _ _ | foreign _ _ _ => none

/-- Whether two instructions are of the same kind with equal contents. A refined one never equals
a plain one; foreign instructions are not compared. -/
def sameAs : Instr → Instr → Bool
  | push x, push y => x == y
  | derivedPush kind _ _ x, derivedPush kind' _ _ y => kind == kind' && x == y
  | apply op, apply op' => op == op'
  | derivedApply kind _ _ op, derivedApply kind' _ _ op' => kind == kind' && op == op'
  | _, _ => false

end Instr

end Calculator
