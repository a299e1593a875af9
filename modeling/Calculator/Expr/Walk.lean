import Calculator.Datum
import Calculator.Failure

/-!
Walks over trees. A walk goes down the tree by recursion, the left subtree before the right one,
and refuses the first foreign node that it meets. Each walk has a limit of its own to the height of
a tree, since a step of one walk takes more calls within each other than a step of another. The
limits are those of a walk within the run of a file; within further calls they are a little lower.
-/
namespace Calculator

/-- The complaint about something that is no node of a known kind. -/
def Complaint.unknownNode (shown : String) : Complaint :=
  .malformed shown .unknownNode

namespace Expr

/-- Greatest height of a tree that is evaluated. -/
def evaluateLimit : Nat := 994

/-- Greatest height of a tree that is compiled. It is below `evaluateLimit`, since every instruction
is checked while the walk is at its node. -/
def compileLimit : Nat := 987

/-- Greatest height of a tree whose literals are counted. -/
def leavesLimit : Nat := 996

/-- Greatest height of a tree that is drawn. -/
def drawLimit : Nat := 992

/-- Greatest height of a tree that is written out as a text. -/
def textLimit : Nat := 330

/-- The answer `a` of a walk over `e`, unless `e` is higher than `limit`. -/
def within {α : Type} (limit : Nat) (e : Expr) (a : Except Failure α) : Except Failure α :=
  if e.height ≤ limit then a else .error .nestsTooDeeply

/-- Value of a tree of any height. -/
def value : Expr → Except Complaint Float
  | literal x => .ok x
  | binary op left right => do
    let x ← left.value
    let y ← right.value
    return op.apply x y
  | foreign shown => .error (.unknownNode shown)

/-- Number of literals in a tree of any height. -/
def leafCount : Expr → Except Complaint Nat
  | literal _ => .ok 1
  | binary _ left right => do
    let m ← left.leafCount
    let n ← right.leafCount
    return m + n
  | foreign shown => .error (.unknownNode shown)

def evaluate (e : Expr) : Except Failure Float :=
  e.within evaluateLimit (e.value.mapError .complaint)

def leaves (e : Expr) : Except Failure Nat :=
  e.within leavesLimit (e.leafCount.mapError .complaint)

def write (e : Expr) : Except Failure String :=
  e.within textLimit (.ok e.text)

/-- Writes a tree as a value shown in full. -/
def writeShown (e : Expr) : Except Failure String :=
  e.within textLimit (.ok e.shown)

open Report (countLimit lengthLimit)

/-- Why the root cannot be indented `n` times, if it cannot. A foreign node is not indented. -/
def indentFault? (n : Int) : Expr → Option Internal
  | foreign _ => none
  | _ =>
    if n < -countLimit || countLimit ≤ n then some .capacityTooLarge
    else if countLimit ≤ 4 * n then some .textTooLong
    else if lengthLimit ≤ 4 * n then some .outOfMemory
    else none

/-- Draws a tree, indented `n` times at its root. The blanks before the root are the first thing
that may fail, and the whole drawing has to find room in the end. -/
def draw (n : Int) (e : Expr) : Except Failure String :=
  match e.indentFault? n with
  | some i => .error (.internal i)
  | none =>
    e.within drawLimit
      (match e.drawing? n with
      | some s => if s.length < lengthLimit then .ok s else .error (.internal .outOfMemory)
      | none => .error (.internal .notImplemented))

@[simp] theorem within_of_le {α : Type} {limit : Nat} {e : Expr} (h : e.height ≤ limit)
    (a : Except Failure α) : e.within limit a = a :=
  if_pos h

end Expr

namespace Datum

/-- The tree that a datum is. -/
def tree : Datum → Except Failure Expr
  | expr e => .ok e
  | d => .error (.complaint (.unknownNode d.shown))

def evaluate (d : Datum) : Except Failure Float :=
  d.tree >>= Expr.evaluate

def leaves (d : Datum) : Except Failure Nat :=
  d.tree >>= Expr.leaves

end Datum

end Calculator
