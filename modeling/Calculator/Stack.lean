import Calculator.Failure

/-!
Stacks of doubles. A stack grows as needed, or it has a fixed number of slots, all of which it
keeps: slots above the topmost value hold whatever was last put there.
-/
namespace Calculator

/-- A stack. -/
structure Stack where
  /-- Number of slots of a fixed stack. -/
  capacity : Option Nat
  /-- All slots, the lowest first. -/
  slots : Array Float
  /-- Number of slots, from the lowest, that hold values. -/
  count : Nat

namespace Stack

/-- The values on the stack, the lowest first. -/
def values (s : Stack) : List Float :=
  s.slots.toList.take s.count

/-- Every value has a slot; a growable stack has no other slots, and a fixed one has as many as
its capacity says. -/
def Valid (s : Stack) : Prop :=
  match s.capacity with
  | none => s.slots.size = s.count
  | some n => s.slots.size = n ∧ s.count ≤ n

/-- An empty stack that grows as needed. -/
def growing : Stack := ⟨none, #[], 0⟩

/-- An empty stack of `n` slots. -/
def fixed (n : Nat) : Stack := ⟨some n, Array.replicate n 0, 0⟩

/-- Capacities from here on do not fit a machine word. -/
def wordLimit : Nat := Nat.pow 2 63

/-- Capacities from here on exceed every address space. -/
def memoryLimit : Nat := Nat.pow 2 44

/-- An empty stack of the given capacity, or one that grows. -/
def make : Option Int → Except Internal Stack
  | none => .ok growing
  | some n =>
    if n < 0 then .error .negativeCapacity
    else if wordLimit ≤ n.toNat then .error .capacityTooLarge
    else if memoryLimit ≤ n.toNat then .error .outOfMemory
    else .ok (fixed n.toNat)

/-- Forgets all values. A fixed stack keeps its slots as they are. -/
def clear (s : Stack) : Stack :=
  match s.capacity with
  | none => { s with slots := #[], count := 0 }
  | some _ => { s with count := 0 }

/-- Puts `x` on top, if there is room. -/
def push (s : Stack) (x : Float) : Except Complaint Stack :=
  match s.capacity with
  | none => .ok { s with slots := s.slots.push x, count := s.count + 1 }
  | some n =>
    if n ≤ s.count then .error (.stackOverflow n)
    else .ok { s with slots := s.slots.setIfInBounds s.count x, count := s.count + 1 }

/-- Takes the topmost value off, if there is one. -/
def pop? (s : Stack) : Option (Float × Stack) :=
  match s.count with
  | 0 => none
  | count + 1 =>
    let x := s.slots[count]?.getD 0
    match s.capacity with
    | none => some (x, { s with slots := s.slots.pop, count })
    | some _ => some (x, { s with count })

/-- The stack as a value shown in full. -/
def shown (s : Stack) : String :=
  let capacity := match s.capacity with
    | none => "None"
    | some n => Layout.natText n
  "Stack(capacity=" ++ capacity ++ ", values=[" ++
    String.intercalate ", " (s.values.map Number.fullText) ++ "])"

end Stack

end Calculator
