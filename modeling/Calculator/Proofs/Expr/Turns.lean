import Calculator.Proofs.Machine.Lowering
import Mathlib.Data.List.Induction
import Mathlib.Order.Bounds.Basic
import Mathlib.Order.MinMax

/-!
The slots that a tree needs, read off its shape.  A right subtree runs above the value of its left
sibling, so every turn to the right on the way to a leaf takes one more slot, and a turn to the left
takes none.  A chain that only leans to the left needs two slots, however long it is.
-/
namespace Calculator

namespace Expr

/-- Child of an inner node. -/
inductive Side where
  | left
  | right
  deriving DecidableEq

/-- The subtree at the end of a path from the root, if the path does not leave the tree. -/
def at? : Expr → List Side → Option Expr
  | e, [] => some e
  | binary _ left _, .left :: path => left.at? path
  | binary _ _ right, .right :: path => right.at? path
  | _, _ :: _ => none

/-- The path leads from the root to a leaf. -/
def IsLeafPath (e : Expr) (path : List Side) : Prop :=
  ∃ x, e.at? path = some (literal x)

/-- Operands joined one after the other, each to all those before it. -/
def chain (x : Float) (rest : List (Operator × Float)) : Expr :=
  rest.foldl (fun e operand => binary operand.1 e (literal operand.2)) (literal x)

variable {e : Expr} {path : List Side}

/-- A tree needs one slot for a leaf, and one more for every turn to the right before it. -/
theorem isGreatest_need (he : e.WellFormed) :
    IsGreatest {k | ∃ path, e.IsLeafPath path ∧ 1 + path.count .right = k} e.need := by
  induction e with
  | literal x =>
      refine ⟨⟨[], ⟨x, rfl⟩, rfl⟩, ?_⟩
      rintro k ⟨path, ⟨y, hpath⟩, rfl⟩
      cases path with
      | nil => exact le_rfl
      | cons side path => simp [at?] at hpath
  | binary op left right ihLeft ihRight =>
      obtain ⟨⟨leftPath, hleft, hleftCount⟩, hleftUpper⟩ := ihLeft he.1
      obtain ⟨⟨rightPath, hright, hrightCount⟩, hrightUpper⟩ := ihRight he.2
      constructor
      · rcases max_choice left.need (right.need + 1) with hmax | hmax
        · refine ⟨.left :: leftPath, hleft, ?_⟩
          rw [need, hmax, List.count_cons_of_ne (by decide), hleftCount]
        · refine ⟨.right :: rightPath, hright, ?_⟩
          rw [need, hmax, List.count_cons_self, ← hrightCount, Nat.add_assoc]
      · rintro k ⟨path, hpath, rfl⟩
        rw [need]
        cases path with
        | nil =>
            obtain ⟨y, hy⟩ := hpath
            cases hy
        | cons side path =>
            cases side with
            | left =>
                have hle := hleftUpper ⟨path, hpath, rfl⟩
                rw [List.count_cons_of_ne (by decide)]
                exact le_trans hle (le_max_left _ _)
            | right =>
                have hle := hrightUpper ⟨path, hpath, rfl⟩
                rw [List.count_cons_self, ← Nat.add_assoc]
                exact le_trans (Nat.succ_le_succ hle) (le_max_right _ _)
  | foreign shown => exact he.elim

theorem chain_concat (x : Float) (rest : List (Operator × Float)) (op : Operator) (y : Float) :
    chain x (rest ++ [(op, y)]) = binary op (chain x rest) (literal y) := by
  rw [chain, List.foldl_append]
  rfl

theorem wellFormed_chain (x : Float) (rest : List (Operator × Float)) :
    (chain x rest).WellFormed := by
  induction rest using List.reverseRecOn with
  | nil => trivial
  | append_singleton rest operand ih =>
      rw [chain_concat]
      exact ⟨ih, trivial⟩

theorem height_chain (x : Float) (rest : List (Operator × Float)) :
    (chain x rest).height = rest.length + 1 := by
  induction rest using List.reverseRecOn with
  | nil => rfl
  | append_singleton rest operand ih =>
      rw [chain_concat, height, ih, height, List.length_append, List.length_singleton]
      omega

/-- Each further operand of a chain finds the value of those before it and needs one slot above. -/
theorem need_chain (x : Float) {rest : List (Operator × Float)} (hrest : rest ≠ []) :
    (chain x rest).need = 2 := by
  have hle : ∀ rest, (chain x rest).need ≤ 2 := by
    intro rest
    induction rest using List.reverseRecOn with
    | nil => exact Nat.le_succ 1
    | append_singleton rest operand ih =>
        rw [chain_concat, need, need]
        omega
  obtain ⟨before, ⟨op, y⟩, rfl⟩ := (List.eq_nil_or_concat rest).resolve_left hrest
  have hbefore := hle before
  rw [List.concat_eq_append, chain_concat, need, need]
  omega

/-- A tree of literals and operators is compiled to its code, up to the greatest height. -/
theorem compile_of_code {is : List Instr} (hcode : e.code = .ok is) :
    e.compile =
      if e.height ≤ compileLimit then .ok (Program.ofInstrs is) else .error .nestsTooDeeply := by
  rw [compile, within, hcode]
  rfl

/-- A chain with too many operands is not compiled. -/
theorem compile_chain_of_le (x : Float) {rest : List (Operator × Float)}
    (hlong : compileLimit ≤ rest.length) :
    (chain x rest).WellFormed ∧ (chain x rest).compile = .error .nestsTooDeeply := by
  refine ⟨wellFormed_chain x rest, ?_⟩
  rw [compile, within, height_chain, if_neg (Nat.not_le.mpr (Nat.lt_succ_of_le hlong))]

open Program

/-- Main result: the depth of the code of a tree is one more than the greatest number of turns to
the right on a path from the root to a leaf, and compiling gives just this code as long as the tree
is not too high for this walk.  So the code of a chain has depth two from its second operand on,
however many there are. -/
theorem depth_eq_turns :
    (∀ e : Expr, e.WellFormed → ∃ is d, e.code = .ok is ∧ (ofInstrs is).depth = .ok d ∧
      IsGreatest {k | ∃ path, e.IsLeafPath path ∧ 1 + path.count .right = k} d ∧
      e.compile =
        if e.height ≤ compileLimit then .ok (ofInstrs is) else .error .nestsTooDeeply) ∧
    ∀ (x : Float) (rest : List (Operator × Float)), rest ≠ [] →
      ∃ is, (chain x rest).code = .ok is ∧ (ofInstrs is).depth = .ok 2 ∧
        (chain x rest).compile =
          if rest.length + 1 ≤ compileLimit then .ok (ofInstrs is) else .error .nestsTooDeeply := by
  constructor
  · intro e he
    obtain ⟨is, _, hcode, -⟩ := he.code_value
    exact ⟨is, e.need, hcode, depth_code hcode, isGreatest_need he, compile_of_code hcode⟩
  · intro x rest hrest
    obtain ⟨is, _, hcode, -⟩ := (wellFormed_chain x rest).code_value
    refine ⟨is, hcode, ?_, ?_⟩
    · rw [depth_code hcode, need_chain x hrest]
    · rw [compile_of_code hcode, height_chain]

/-- The code of `1 - (2 - 3)` has depth three, since the last literal is two turns away. -/
theorem depth_eq_turns_two_turns :
    (binary .subtract (literal 1) (binary .subtract (literal 2) (literal 3))).WellFormed ∧
      ∃ is, (binary .subtract (literal 1) (binary .subtract (literal 2) (literal 3))).code =
          .ok is ∧ (ofInstrs is).depth = .ok 3 ∧
        (binary .subtract (literal 1) (binary .subtract (literal 2) (literal 3))).IsLeafPath
          [.right, .right] := by
  have he : (binary .subtract (literal 1) (binary .subtract (literal 2) (literal 3))).WellFormed :=
    ⟨trivial, trivial, trivial⟩
  obtain ⟨is, d, hcode, hdepth, -⟩ := depth_eq_turns.1 _ he
  obtain rfl := Except.ok.inj hcode
  obtain rfl : 3 = d := Except.ok.inj hdepth
  exact ⟨he, _, hcode, hdepth, 3, rfl⟩

/-- A sum of 2500 ones is too high for the walk, so it is not compiled at all. -/
theorem compile_chain_too_long :
    (chain 1 (List.replicate 2499 (.add, 1))).WellFormed ∧
      (chain 1 (List.replicate 2499 (.add, 1))).compile = .error .nestsTooDeeply :=
  compile_chain_of_le 1 (by rw [List.length_replicate]; decide)

end Expr

end Calculator
