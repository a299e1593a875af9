/-!
Sets of characters written as ranges of code points, the form in which the tables of this library
state a Unicode property.
-/
namespace Calculator.Text

/-- The code points from the first component to the second, both included. -/
abbrev CodeRange := Nat × Nat

namespace CodeRange

def contains (r : CodeRange) (n : Nat) : Bool :=
  r.1 ≤ n && n ≤ r.2

def covers (rs : List CodeRange) (c : Char) : Bool :=
  rs.any (·.contains c.toNat)

theorem covers_eq_true_iff {rs : List CodeRange} {c : Char} :
    covers rs c = true ↔ ∃ r ∈ rs, r.1 ≤ c.toNat ∧ c.toNat ≤ r.2 := by
  simp [covers, contains]

end CodeRange

end Calculator.Text
