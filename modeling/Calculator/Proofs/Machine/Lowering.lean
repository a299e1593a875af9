import Calculator.Program.Compile
import Calculator.Proofs.Machine.Outcome

/-!
The code of a tree on the stack machine.  Whatever stands below on the stack and whatever code
follows, the code of a tree leaves the value of the tree on top, if there is room for as many
values as the tree needs; with less room some push finds the stack full.
-/
namespace Calculator

namespace Expr

/-- Number of slots that the code of a tree needs: the right subtree runs above the value of the
left one. -/
def need : Expr → Nat
  | literal _ => 1
  | binary _ left right => max left.need (right.need + 1)
  | foreign _ => 0

/-- A tree of literals and operators has code and a value. -/
theorem WellFormed.code_value {e : Expr} (he : e.WellFormed) :
    ∃ is x, e.code = .ok is ∧ e.value = .ok x := by
  induction e with
  | literal x => exact ⟨_, x, rfl, rfl⟩
  | binary op left right ihLeft ihRight =>
      obtain ⟨is, x, hcode, hvalue⟩ := ihLeft he.1
      obtain ⟨js, y, hcode', hvalue'⟩ := ihRight he.2
      refine ⟨is ++ js ++ [.apply op], op.apply x y, ?_, ?_⟩
      · simp only [code, hcode, hcode']
        rfl
      · simp only [value, hvalue, hvalue']
        rfl
  | foreign shown => exact he.elim

/-- Code of an inner node is put together from code of its subtrees. -/
theorem code_binary {op : Operator} {left right : Expr} {is : List Instr}
    (h : (binary op left right).code = .ok is) :
    ∃ xs ys, left.code = .ok xs ∧ right.code = .ok ys ∧ is = xs ++ (ys ++ [.apply op]) := by
  cases hleft : left.code with
  | error e => simp [code, hleft, bind, Except.bind] at h
  | ok xs =>
      cases hright : right.code with
      | error e => simp [code, hleft, hright, bind, Except.bind] at h
      | ok ys =>
          refine ⟨xs, ys, rfl, rfl, ?_⟩
          simp only [code, hleft, hright] at h
          rw [← Except.ok.inj h, List.append_assoc]

theorem value_binary {op : Operator} {left right : Expr} {x : Float}
    (h : (binary op left right).value = .ok x) :
    ∃ y z, left.value = .ok y ∧ right.value = .ok z ∧ x = op.apply y z := by
  cases hleft : left.value with
  | error e => simp [value, hleft, bind, Except.bind] at h
  | ok y =>
      cases hright : right.value with
      | error e => simp [value, hleft, hright, bind, Except.bind] at h
      | ok z =>
          refine ⟨y, z, rfl, rfl, ?_⟩
          simp only [value, hleft, hright] at h
          exact (Except.ok.inj h).symm

theorem need_pos_of_code {e : Expr} {is : List Instr} (h : e.code = .ok is) : 0 < e.need := by
  cases e with
  | literal x => exact Nat.one_pos
  | binary op left right =>
      simp only [need]
      omega
  | foreign shown => cases h

/-- Only trees of literals and operators have code. -/
theorem wellFormed_of_code {e : Expr} {is : List Instr} (h : e.code = .ok is) : e.WellFormed := by
  induction e generalizing is with
  | literal x => trivial
  | binary op left right ihLeft ihRight =>
      obtain ⟨xs, ys, hleft, hright, -⟩ := code_binary h
      exact ⟨ihLeft hleft, ihRight hright⟩
  | foreign shown => cases h

/-- A tree without code has no value either, for the same reason. -/
theorem value_of_code_error {e : Expr} {c : Complaint} (h : e.code = .error c) :
    e.value = .error c := by
  induction e with
  | literal x => cases h
  | binary op left right ihLeft ihRight =>
      cases hleft : left.code with
      | error c' =>
          simp only [code, hleft] at h
          obtain rfl := Except.error.inj h
          simp only [value, ihLeft hleft]
          rfl
      | ok xs =>
          cases hright : right.code with
          | error c' =>
              simp only [code, hleft, hright] at h
              obtain rfl := Except.error.inj h
              obtain ⟨_, y, -, hvalue⟩ := (wellFormed_of_code hleft).code_value
              simp only [value, hvalue, ihRight hright]
              rfl
          | ok ys =>
              simp only [code, hleft, hright] at h
              cases h
  | foreign shown =>
      obtain rfl := Except.error.inj h
      rfl

/-- What is low enough to be compiled is low enough to be evaluated. -/
theorem compileLimit_le_evaluateLimit : compileLimit ≤ evaluateLimit := by
  decide

/-- A program that a tree is compiled to is its code, and the tree has a value. -/
theorem exists_code_of_compile {e : Expr} {p : Program} (h : e.compile = .ok p) :
    ∃ is x, p = Program.ofInstrs is ∧ e.code = .ok is ∧ e.value = .ok x ∧ e.evaluate = .ok x := by
  rw [compile, within] at h
  split at h
  · rename_i hheight
    cases hcode : e.code with
    | error c =>
        rw [hcode] at h
        cases h
    | ok is =>
        rw [hcode] at h
        obtain ⟨_, x, -, hvalue⟩ := (wellFormed_of_code hcode).code_value
        refine ⟨is, x, (Except.ok.inj h).symm, rfl, hvalue, ?_⟩
        rw [evaluate, within_of_le (Nat.le_trans hheight compileLimit_le_evaluateLimit), hvalue]
        rfl
  · cases h

/-- A tree that is not compiled is not evaluated either, for the same reason; unless it is too high
to be compiled, which does not say that it is too high to be evaluated. -/
theorem evaluate_or_high_of_compile_error {e : Expr} {f : Failure} (h : e.compile = .error f) :
    e.evaluate = .error f ∨ compileLimit < e.height ∧ f = .nestsTooDeeply := by
  rw [compile, within] at h
  split at h
  · rename_i hheight
    refine .inl ?_
    rw [evaluate, within_of_le (Nat.le_trans hheight compileLimit_le_evaluateLimit)]
    cases hcode : e.code with
    | error c =>
        rw [hcode] at h
        rw [value_of_code_error hcode]
        exact congrArg Except.error (Except.error.inj h)
    | ok is =>
        rw [hcode] at h
        cases h
  · rename_i hheight
    exact .inr ⟨Nat.lt_of_not_le hheight, (Except.error.inj h).symm⟩

end Expr

namespace Program

/-- The height reaches what the tree needs, and is one more afterwards. -/
theorem depthFrom_code {e : Expr} {is : List Instr} (hcode : e.code = .ok is)
    (height deepest : Int) (rest : List Datum) :
    depthFrom height deepest (is.map .instr ++ rest) =
      depthFrom (height + 1) (max deepest (height + e.need)) rest := by
  induction e generalizing is height deepest rest with
  | literal x =>
      obtain rfl := Except.ok.inj hcode
      rfl
  | binary op left right ihLeft ihRight =>
      obtain ⟨xs, ys, hleft, hright, rfl⟩ := Expr.code_binary hcode
      rw [List.map_append, List.map_append, List.append_assoc, List.append_assoc,
        ihLeft hleft, ihRight hright]
      change depthFrom (height + 1 + 1 + -1)
        (max (max (max deepest (height + left.need)) (height + 1 + right.need))
          (height + 1 + 1 + -1)) rest = _
      have hpos := Expr.need_pos_of_code hleft
      have hneed : ((Expr.binary op left right).need : Int) =
          max (left.need : Int) (right.need + 1) := by
        simp only [Expr.need]
        omega
      rw [hneed]
      congr 1 <;> omega
  | foreign shown => cases hcode

theorem depth_code {e : Expr} {is : List Instr} (hcode : e.code = .ok is) :
    (ofInstrs is).depth = .ok e.need := by
  have h := depthFrom_code hcode 0 0 []
  rw [List.append_nil] at h
  simp only [depth, ofInstrs, h, depthFrom, Except.map]
  congr 1
  omega

end Program

namespace Stack

variable {s : Stack} {c : Option Nat} {vs : List Float}

/-- Whether a stack of capacity `c` has room for `n` values. -/
def HasRoom (c : Option Nat) (n : Nat) : Prop :=
  ∀ m, c = some m → n ≤ m

theorem HasRoom.mono {m n : Nat} (h : HasRoom c n) (hle : m ≤ n) : HasRoom c m :=
  fun k hk => Nat.le_trans hle (h k hk)

/-- With room for what the tree needs, its code puts its value on top and goes on. -/
theorem Holds.steps_code {e : Expr} {is : List Instr} {x : Float} (h : s.Holds c vs)
    (hcode : e.code = .ok is) (hvalue : e.value = .ok x)
    (hroom : HasRoom c (vs.length + e.need)) (rest : List Datum) :
    ∃ t : Stack, s.steps (is.map .instr ++ rest) = t.steps rest ∧ t.Holds c (vs ++ [x]) := by
  induction e generalizing s vs is x rest with
  | literal y =>
      obtain rfl := Except.ok.inj hcode
      obtain rfl := Except.ok.inj hvalue
      have hfree : c ≠ some vs.length := by
        intro hfull
        have hle := hroom _ hfull
        simp only [Expr.need] at hle
        omega
      obtain ⟨t, hpush, ht⟩ := h.push hfree y
      refine ⟨t, ?_, ht⟩
      simp only [List.map_singleton, List.singleton_append, steps, Stack.step, hpush]
  | binary op left right ihLeft ihRight =>
      obtain ⟨xs, ys, hleft, hright, rfl⟩ := Expr.code_binary hcode
      obtain ⟨y, z, hy, hz, rfl⟩ := Expr.value_binary hvalue
      simp only [Expr.need] at hroom
      rw [List.map_append, List.map_append, List.append_assoc, List.append_assoc]
      -- the left value stays on the stack while the right subtree runs
      obtain ⟨t, hsteps, ht⟩ := ihLeft h hleft hy (hroom.mono (by omega)) _
      have hroom' : HasRoom c ((vs ++ [y]).length + right.need) :=
        hroom.mono (by rw [List.length_append, List.length_singleton]; omega)
      obtain ⟨u, hsteps', hu⟩ := ihRight ht hright hz hroom' ([.instr (.apply op)] ++ rest)
      rw [List.append_assoc] at hu
      obtain ⟨w, hcombine, hw⟩ := hu.combine op
      have hcount : ¬ u.count < 2 := by
        rw [hu.count_eq]
        simp only [List.length_append, List.length_singleton]
        omega
      refine ⟨w, ?_, hw⟩
      rw [hsteps]
      simp only [List.map_cons, List.map_nil]
      rw [hsteps']
      simp only [List.singleton_append, steps, Stack.step, hcount, ↓reduceIte, hcombine]
  | foreign shown => cases hcode

/-- Without that room a push of the code finds the stack full. -/
theorem Holds.steps_code_overflow {e : Expr} {is : List Instr} {x : Float} {n : Nat}
    (h : s.Holds (some n) vs) (hcode : e.code = .ok is) (hvalue : e.value = .ok x)
    (hfull : n < vs.length + e.need) (rest : List Datum) :
    (s.steps (is.map .instr ++ rest)).2 = some (.stackOverflow n) := by
  induction e generalizing s vs is x rest with
  | literal y =>
      obtain rfl := Except.ok.inj hcode
      have hle := h.length_le
      simp only [Expr.need] at hfull
      obtain rfl : n = vs.length := by omega
      simp only [List.map_singleton, List.singleton_append, steps, Stack.step, h.push_full]
  | binary op left right ihLeft ihRight =>
      obtain ⟨xs, ys, hleft, hright, rfl⟩ := Expr.code_binary hcode
      obtain ⟨y, z, hy, hz, rfl⟩ := Expr.value_binary hvalue
      simp only [Expr.need] at hfull
      rw [List.map_append, List.map_append, List.append_assoc, List.append_assoc]
      -- either the left subtree overflows, or the right one does above the left value
      by_cases hroom : n < vs.length + left.need
      · exact ihLeft h hleft hy hroom _
      · have hroom' : HasRoom (some n) (vs.length + left.need) := by
          rintro m ⟨⟩
          omega
        obtain ⟨t, hsteps, ht⟩ := h.steps_code hleft hy hroom'
          (ys.map .instr ++ ([Instr.apply op].map .instr ++ rest))
        rw [hsteps]
        apply ihRight ht hright hz
        rw [List.length_append, List.length_singleton]
        omega
  | foreign shown => cases hcode

/-- With enough room the code of a tree runs to the value of the tree. -/
theorem Valid.run_snd_of_code {e : Expr} {is : List Instr} {x : Float} (hs : s.Valid)
    (hcode : e.code = .ok is) (hvalue : e.value = .ok x) (hroom : HasRoom s.capacity e.need) :
    (s.run (Program.ofInstrs is)).2 = .ok x := by
  obtain ⟨t, hsteps, ht⟩ := hs.holds.clear.steps_code hcode hvalue (by simpa using hroom) []
  obtain ⟨u, hfinish, -⟩ := Holds.finish_singleton (by simpa using ht)
  rw [List.append_nil] at hsteps
  simp only [Stack.run, Program.ofInstrs, hsteps, Stack.steps, hfinish]

/-- With less room it overflows. -/
theorem Valid.run_snd_of_code_overflow {e : Expr} {is : List Instr} {x : Float} {n : Nat}
    (hs : s.Valid) (hcode : e.code = .ok is) (hvalue : e.value = .ok x)
    (hcapacity : s.capacity = some n) (hfull : n < e.need) :
    (s.run (Program.ofInstrs is)).2 = .error (.stackOverflow n) := by
  have hclear := hs.holds.clear
  rw [hcapacity] at hclear
  have hsteps := hclear.steps_code_overflow hcode hvalue (by simpa using hfull) []
  rw [List.append_nil] at hsteps
  cases hrun : s.clear.steps (is.map .instr) with
  | mk t stopped =>
      rw [hrun] at hsteps
      obtain rfl : stopped = some (.stackOverflow n) := hsteps
      simp only [Stack.run, Program.ofInstrs, hrun]

end Stack

namespace Expr

open Stack Program

/-- Compiled code computes the value of the tree on every stack, whatever it was used for before,
and needs just as many slots as the depth of the program says: on a smaller stack the run overflows
and nothing else can happen.  Equality of doubles is equality of their bits, with one NaN. -/
theorem run_code {e : Expr} (he : e.WellFormed) :
    ∃ is x d, e.code = .ok is ∧ e.value = .ok x ∧ (ofInstrs is).depth = .ok d ∧
      (e.height ≤ compileLimit → e.compile = .ok (ofInstrs is)) ∧
      (e.height ≤ evaluateLimit → e.evaluate = .ok x) ∧
      ∀ s : Stack, s.Reachable →
        (HasRoom s.capacity d →
          (s.run (ofInstrs is)).2 = .ok x ∧ (s.run (ofInstrs is)).1.values = []) ∧
        ∀ n, s.capacity = some n → n < d →
          (s.run (ofInstrs is)).2 = .error (.stackOverflow n) := by
  obtain ⟨is, x, hcode, hvalue⟩ := he.code_value
  refine ⟨is, x, e.need, hcode, hvalue, depth_code hcode, ?_, ?_, ?_⟩
  · intro hheight
    simp only [compile, within_of_le hheight, hcode]
    rfl
  · intro hheight
    simp only [evaluate, within_of_le hheight, hvalue]
    rfl
  · intro s hs
    have hclear := hs.valid.holds.clear
    constructor
    · intro hroom
      obtain ⟨t, hsteps, ht⟩ :=
        hclear.steps_code hcode hvalue (by simpa using hroom) []
      obtain ⟨u, hfinish, hu⟩ := Holds.finish_singleton (by simpa using ht)
      have hrun : s.run (ofInstrs is) = (u, .ok x) := by
        rw [List.append_nil] at hsteps
        simp only [run, ofInstrs, hsteps, steps, hfinish]
      rw [hrun]
      exact ⟨rfl, hu.values_eq⟩
    · intro n hcapacity hlt
      rw [hcapacity] at hclear
      have hsteps := hclear.steps_code_overflow hcode hvalue (by simpa using hlt) []
      rw [List.append_nil] at hsteps
      simp only [run, ofInstrs]
      split
      · rename_i t heq
        rw [heq] at hsteps
        cases hsteps
      · rename_i t e' heq
        rw [heq] at hsteps
        rw [Option.some.inj hsteps]

/-- `1 - (2 - 3)` needs three slots, so two are too few. -/
theorem run_code_too_few_slots :
    (binary .subtract (literal 1) (binary .subtract (literal 2) (literal 3))).WellFormed ∧
      ((fixed 2).run (ofInstrs
        [.push 1, .push 2, .push 3, .apply .subtract, .apply .subtract])).2 =
          .error (.stackOverflow 2) := by
  have he : (binary .subtract (literal 1) (binary .subtract (literal 2) (literal 3))).WellFormed :=
    ⟨trivial, trivial, trivial⟩
  obtain ⟨is, x, d, hcode, -, hdepth, -, -, hrun⟩ := run_code he
  obtain rfl := Except.ok.inj hcode
  obtain rfl : 3 = d := Except.ok.inj hdepth
  exact ⟨he, (hrun (fixed 2) (.fixed 2)).2 2 rfl (by decide)⟩

end Expr

end Calculator
