import Calculator.Datum
import Calculator.Failure

/-!
Programs of the stack machine: straight lines of instructions. A program may hold data that are no
instructions; the machine refuses them when it comes to them, and so do the operations here that
need to know what an item does.
-/
namespace Calculator

/-- A program. -/
structure Program where
  items : List Datum

namespace Program

def ofInstrs (is : List Instr) : Program :=
  ⟨is.map .instr⟩

def size (p : Program) : Nat :=
  p.items.length

/-- How an item changes the number of values on the stack. -/
def effect : Datum → Except Complaint Int
  | .instr i =>
    match i.effect? with
    | some n => .ok n
    | none => .error (.unknownInstruction i.shown)
  | d => .error (.unknownInstruction d.shown)

/-- The greatest of `deepest` and the heights of the stack after each of the items, when it has
the given height before them. -/
def depthFrom (height deepest : Int) : List Datum → Except Complaint Int
  | [] => .ok deepest
  | d :: ds => do
    let n ← effect d
    depthFrom (height + n) (max deepest (height + n)) ds

/-- Greatest number of values on the stack while the program runs. -/
def depth (p : Program) : Except Complaint Nat :=
  (depthFrom 0 0 p.items).map Int.toNat

/-- Number of characters of the greatest index of `count` items. -/
def indexWidth (count : Nat) : Nat :=
  (Layout.natText (count - 1)).length

/-- A numbered line: the number is filled up to `width` with blanks before it. -/
def numberedLine (width index : Nat) (d : Datum) : String :=
  let number := Layout.natText index
  String.ofList (List.replicate (width - number.length) ' ') ++ number ++ "  " ++ d.plain

/-- The numbered lines of the items, the first one having the number `index`. -/
def numberedLines (width : Nat) : (index : Nat) → List Datum → List String
  | _, [] => []
  | index, d :: ds => numberedLine width index d :: numberedLines width (index + 1) ds

/-- Listing of the program, one numbered line for each item. -/
def display (p : Program) : String :=
  String.intercalate "\n" (numberedLines (indexWidth p.size) 0 p.items)

/-- The item at an index; negative indices count from the end. -/
def item (p : Program) (index : Int) : Except Internal Datum :=
  let place := if index < 0 then index + p.size else index
  match place with
  | .ofNat n =>
    match p.items[n]? with
    | some d => .ok d
    | none => .error .noSuchIndex
  | .negSucc _ => .error .noSuchIndex

/-- Whether two programs have equal items in the same order. -/
def sameAs (p q : Program) : Bool :=
  Datum.sameAll p.items q.items

end Program

end Calculator
