import Calculator.Proofs.Machine.Reassembly

/-!
What the code of a tree holds.  Code is put together like the tree: no value at a leaf and no
operator is lost, repeated or moved.  The pushes come with the leaves from left to right, and the
applications with the operators in post-order.  On the way there is always a value on the stack:
however far the code has run, it has pushed more often than it has applied.
-/
namespace Calculator

namespace Instr

/-- The constant of a plain push. -/
def pushed? : Instr → Option Float
  | push x => some x
  | _ => none

/-- The operator of a plain application. -/
def applied? : Instr → Option Operator
  | apply op => some op
  | _ => none

/-- The constants that instructions push, in order. -/
def pushes (is : List Instr) : List Float :=
  is.filterMap pushed?

/-- The operators that instructions apply, in order. -/
def applications (is : List Instr) : List Operator :=
  is.filterMap applied?

@[simp] theorem pushes_append (is js : List Instr) : pushes (is ++ js) = pushes is ++ pushes js :=
  List.filterMap_append

@[simp] theorem applications_append (is js : List Instr) :
    applications (is ++ js) = applications is ++ applications js :=
  List.filterMap_append

@[simp] theorem pushes_push (x : Float) : pushes [push x] = [x] := rfl

@[simp] theorem applications_push (x : Float) : applications [push x] = [] := rfl

@[simp] theorem pushes_apply (op : Operator) : pushes [apply op] = [] := rfl

@[simp] theorem applications_apply (op : Operator) : applications [apply op] = [op] := rfl

/-- However far the instructions are run, they have pushed more often than applied. -/
def Ahead (is : List Instr) : Prop :=
  ∀ front back, is = front ++ back → front ≠ [] →
    (applications front).length < (pushes front).length

variable {front back is : List Instr}

theorem Ahead.length_le (h : Ahead is) (hsplit : is = front ++ back) :
    (applications front).length ≤ (pushes front).length := by
  by_cases hfront : front = []
  · simp [hfront, applications, pushes]
  · exact Nat.le_of_lt (h front back hsplit hfront)

end Instr

namespace Expr

open Instr (pushes applications Ahead)

/-- The values at the leaves, from left to right. -/
def leafValues : Expr → List Float
  | literal x => [x]
  | binary _ left right => left.leafValues ++ right.leafValues
  | foreign _ => []

/-- The operators in post-order: the one of a node behind those of both its subtrees. -/
def operators : Expr → List Operator
  | literal _ => []
  | binary op left right => left.operators ++ right.operators ++ [op]
  | foreign _ => []

/-- The instructions hold what is in the tree, of which `n` nodes are leaves, in order, and nothing
else; and they never apply as often as they have pushed. -/
structure CodeHolds (e : Expr) (n : Nat) (is : List Instr) : Prop where
  leaves_pos : 0 < n
  length_eq : is.length = 2 * n - 1
  exact : ∀ i ∈ is, i.Exact
  pushes_eq : pushes is = e.leafValues
  pushes_length : (pushes is).length = n
  applications_eq : applications is = e.operators
  applications_length : (applications is).length = n - 1
  ahead : Ahead is

variable {e left right : Expr} {op : Operator} {m n : Nat} {is js : List Instr}

theorem codeHolds_literal (x : Float) : (literal x).CodeHolds 1 [.push x] where
  leaves_pos := Nat.one_pos
  length_eq := rfl
  exact := by simpa using Instr.Exact.push x
  pushes_eq := rfl
  pushes_length := rfl
  applications_eq := rfl
  applications_length := rfl
  ahead := by
    intro front back hsplit hne
    have hfront : front = [.push x] ∧ back = [] := by
      simpa [hne] using List.singleton_eq_append_iff.mp hsplit
    simp [hfront]

/-- Behind the code of one tree, that of another one runs above a value, and the application at the
end leaves one. -/
theorem CodeHolds.ahead_binary (hleft : left.CodeHolds m is) (hright : right.CodeHolds n js)
    (op : Operator) : Ahead (is ++ js ++ [.apply op]) := by
  have hm := hleft.leaves_pos
  have hn := hright.leaves_pos
  have hleftPushes := hleft.pushes_length
  have hleftApplied := hleft.applications_length
  have hrightPushes := hright.pushes_length
  have hrightApplied := hright.applications_length
  intro front back hsplit hne
  rcases List.append_eq_append_iff.mp hsplit with ⟨last, rfl, hlast⟩ | ⟨behind, hbefore, -⟩
  · -- the front reaches to the end of both codes
    have happlied : (applications last).length ≤ 1 := by
      have hcount := congrArg (fun is => (applications is).length) hlast
      simp only [Instr.applications_apply, Instr.applications_append, List.length_append,
        List.length_singleton] at hcount
      omega
    simp only [Instr.applications_append, Instr.pushes_append, List.length_append]
    omega
  · rcases List.append_eq_append_iff.mp hbefore with ⟨more, rfl, hmore⟩ | ⟨rest, hrest, -⟩
    · have hahead := hright.ahead.length_le hmore
      simp only [Instr.applications_append, Instr.pushes_append, List.length_append]
      omega
    · exact hleft.ahead front rest hrest hne

/-- The code of a node holds what is in its subtrees, and then its operator. -/
theorem CodeHolds.binary (hleft : left.CodeHolds m is) (hright : right.CodeHolds n js)
    (op : Operator) : (binary op left right).CodeHolds (m + n) (is ++ js ++ [.apply op]) where
  leaves_pos := Nat.add_pos_left hleft.leaves_pos n
  length_eq := by
    have hm := hleft.leaves_pos
    have hn := hright.leaves_pos
    simp only [List.length_append, List.length_singleton, hleft.length_eq, hright.length_eq]
    omega
  exact := by
    intro i hi
    simp only [List.mem_append, List.mem_singleton] at hi
    rcases hi with (hi | hi) | rfl
    · exact hleft.exact i hi
    · exact hright.exact i hi
    · exact .apply op
  pushes_eq := by simp [leafValues, hleft.pushes_eq, hright.pushes_eq]
  pushes_length := by simp [hleft.pushes_length, hright.pushes_length]
  applications_eq := by simp [operators, hleft.applications_eq, hright.applications_eq]
  applications_length := by
    have hm := hleft.leaves_pos
    have hn := hright.leaves_pos
    simp only [Instr.applications_append, Instr.applications_apply, List.length_append,
      List.length_singleton, hleft.applications_length, hright.applications_length]
    omega
  ahead := hleft.ahead_binary hright op

/-- A tree of literals and operators has leaves to count, and code that holds them. -/
theorem WellFormed.exists_codeHolds (he : e.WellFormed) :
    ∃ n is, e.leafCount = .ok n ∧ e.code = .ok is ∧ e.CodeHolds n is := by
  induction e with
  | literal x => exact ⟨1, [.push x], rfl, rfl, codeHolds_literal x⟩
  | binary op left right ihLeft ihRight =>
      obtain ⟨m, is, hleftCount, hleftCode, hleft⟩ := ihLeft he.1
      obtain ⟨n, js, hrightCount, hrightCode, hright⟩ := ihRight he.2
      refine ⟨m + n, is ++ js ++ [.apply op], ?_, ?_, hleft.binary hright op⟩
      · simp only [leafCount, hleftCount, hrightCount]
        rfl
      · simp only [code, hleftCode, hrightCode]
        rfl
  | foreign shown => exact he.elim

/-- Main result: the code of a tree with `n` leaves has just `2 * n - 1` instructions: `n` pushes of
the values at the leaves from left to right, and `n - 1` applications of the operators in
post-order; and every front of it but the empty one pushes more often than it applies.  Compiling
the tree gives this code and counting its leaves gives `n`, each up to the height that its own walk
can take. -/
theorem code_holds_tree (he : e.WellFormed) :
    ∃ n is, e.leafCount = .ok n ∧ e.code = .ok is ∧ e.CodeHolds n is ∧
      e.leaves = (if e.height ≤ leavesLimit then .ok n else .error .nestsTooDeeply) ∧
      e.compile =
        if e.height ≤ compileLimit then .ok (Program.ofInstrs is) else .error .nestsTooDeeply := by
  obtain ⟨n, is, hcount, hcode, hholds⟩ := he.exists_codeHolds
  refine ⟨n, is, hcount, hcode, hholds, ?_, ?_⟩
  · simp only [leaves, within, hcount]
    rfl
  · simp only [compile, within, hcode]
    rfl

/-- The code of `1 - (2 - 3) * 4` pushes the four numbers in order, and multiplies before it
subtracts for the second time. -/
theorem code_holds_tree_four_leaves :
    (binary .subtract (literal 1)
        (binary .multiply (binary .subtract (literal 2) (literal 3)) (literal 4))).WellFormed ∧
      ∃ is, (binary .subtract (literal 1)
          (binary .multiply (binary .subtract (literal 2) (literal 3)) (literal 4))).compile =
            .ok (Program.ofInstrs is) ∧
        is.length = 7 ∧ pushes is = [1, 2, 3, 4] ∧
        applications is = [.subtract, .multiply, .subtract] ∧ Ahead is := by
  have he : (binary .subtract (literal 1) (binary .multiply
      (binary .subtract (literal 2) (literal 3)) (literal 4))).WellFormed :=
    ⟨trivial, ⟨trivial, trivial⟩, trivial⟩
  obtain ⟨n, is, hcount, -, hholds, -, hcompile⟩ := code_holds_tree he
  obtain rfl : 4 = n := Except.ok.inj hcount
  exact ⟨he, is, hcompile, hholds.length_eq, hholds.pushes_eq, hholds.applications_eq,
    hholds.ahead⟩

end Expr

end Calculator
