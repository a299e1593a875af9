import Calculator.Proofs.Machine.Lowering

/-!
Code read back as trees.  The instructions of a program put trees together just as they put values
together on a stack, so a program that runs to a value on a stack that grows has put one tree
together, and it is the code of this tree and of no other one.
-/
namespace Calculator

/-- The instruction is a plain push or a plain application. -/
inductive Instr.Exact : Instr → Prop where
  | push (x : Float) : Exact (.push x)
  | apply (op : Operator) : Exact (.apply op)

namespace Expr

variable {e e' : Expr} {es es' : List Expr} {i : Instr} {is js : List Instr}

/-- The trees after an instruction, the topmost first; none if an operator lacks a subtree. -/
def extend (es : List Expr) : Instr → Option (List Expr)
  | .push x => some (literal x :: es)
  | .apply op =>
    match es with
    | right :: left :: es => some (binary op left right :: es)
    | _ => none
  | _ => none

/-- The trees after all the instructions. -/
def reassemble (es : List Expr) (is : List Instr) : Option (List Expr) :=
  is.foldlM extend es

theorem reassemble_append (es : List Expr) (is js : List Instr) :
    reassemble es (is ++ js) = (reassemble es is).bind fun es => reassemble es js :=
  List.foldlM_append

/-- The code of a tree is read back as the tree, on top of whatever is there. -/
theorem reassemble_code (h : e.code = .ok is) (es : List Expr) :
    reassemble es is = some (e :: es) := by
  induction e generalizing es is with
  | literal x =>
      obtain rfl := Except.ok.inj h
      rfl
  | binary op left right ihleft ihright =>
      obtain ⟨xs, ys, hleft, hright, rfl⟩ := code_binary h
      rw [reassemble_append, ihleft hleft, Option.bind_some, reassemble_append, ihright hright]
      rfl
  | foreign shown => cases h

/-- No two trees have the same code. -/
theorem code_injective (h : e.code = .ok is) (h' : e'.code = .ok is) : e = e' := by
  have hread := (reassemble_code h []).symm.trans (reassemble_code h' [])
  exact (List.cons.inj (Option.some.inj hread)).1

/-- The instructions are the codes of the trees, that of the lowest tree first. -/
inductive Codes : List Expr → List Instr → Prop where
  | nil : Codes [] []
  | cons {e : Expr} {es : List Expr} {is js : List Instr} (hbelow : Codes es is)
      (hwell : e.WellFormed) (hcode : e.code = .ok js) : Codes (e :: es) (is ++ js)

theorem Codes.extend (h : Codes es is) (hextend : extend es i = some es') :
    Codes es' (is ++ [i]) := by
  cases i with
  | push x =>
      obtain rfl := Option.some.inj hextend
      exact h.cons trivial rfl
  | apply op =>
      cases h with
      | nil => cases hextend
      | cons hbelow hright hrightCode =>
          cases hbelow with
          | nil => cases hextend
          | cons hbelow hleft hleftCode =>
              obtain rfl := Option.some.inj hextend
              simp only [List.append_assoc]
              refine hbelow.cons ⟨hleft, hright⟩ ?_
              simp only [code, hleftCode, hrightCode]
              rw [← List.append_assoc]
              rfl
  | derivedPush kind tag operand x => cases hextend
  | derivedApply kind tag operand op => cases hextend
  | foreign shown tag operand => cases hextend

theorem Codes.reassemble (h : Codes es is) (hread : reassemble es js = some es') :
    Codes es' (is ++ js) := by
  induction js generalizing es is with
  | nil =>
      obtain rfl := Option.some.inj hread
      rwa [List.append_nil]
  | cons i js ih =>
      obtain ⟨fs, hextend, hrest⟩ := Option.bind_eq_some_iff.mp hread
      have htail := ih (h.extend hextend) hrest
      rwa [List.append_assoc] at htail

/-- Instructions that are read back as one tree are its code. -/
theorem code_of_reassemble (h : reassemble [] is = some [e]) : e.WellFormed ∧ e.code = .ok is := by
  have hcodes := Codes.nil.reassemble h
  rw [List.nil_append] at hcodes
  cases hcodes with
  | cons hbelow hwell hcode =>
      cases hbelow with
      | nil => exact ⟨hwell, hcode⟩

end Expr

namespace Stack

open Calculator.Expr (extend reassemble)
open Program (fault)

variable {s t : Stack} {vs : List Float} {es : List Expr} {i : Instr} {is : List Instr}

theorem exists_cons_cons {α : Type} {xs : List α} (h : 2 ≤ xs.length) :
    ∃ x y ys, xs = x :: y :: ys := by
  cases xs with
  | nil => simp at h
  | cons x xs =>
      cases xs with
      | nil => simp at h
      | cons y ys => exact ⟨x, y, ys, rfl⟩

/-- An instruction that is executed puts trees together just as it does values. -/
theorem Holds.exists_extended (h : s.Holds none vs.reverse) (hlength : es.length = vs.length)
    (hexact : i.Exact) (hstep : s.step (.instr i) = .ok t) :
    ∃ (es' : List Expr) (ws : List Float),
      extend es i = some es' ∧ t.Holds none ws.reverse ∧ es'.length = ws.length := by
  cases hfault : fault none vs.length (.instr i) with
  | some c =>
      rw [h.step_fault hfault] at hstep
      cases hstep
  | none =>
      obtain ⟨u, hu, hholds, -⟩ := h.step hfault
      obtain rfl : u = t := Except.ok.inj (hu.symm.trans hstep)
      cases hexact with
      | push x => exact ⟨.literal x :: es, x :: vs, rfl, hholds, congrArg (· + 1) hlength⟩
      | apply op =>
          -- no fault means that there are two values, and so two trees
          have htwo : ¬ (vs.length : Int) < 2 := by
            intro hlt
            simp only [fault, Datum.kind, Datum.task, Datum.Task.kind, if_pos hlt] at hfault
            cases hfault
          obtain ⟨right, left, es, rfl⟩ := exists_cons_cons (show 2 ≤ es.length by omega)
          obtain ⟨y, x, vs, rfl⟩ := exists_cons_cons (show 2 ≤ vs.length by omega)
          refine ⟨.binary op left right :: es, op.apply x y :: vs, rfl, hholds, ?_⟩
          simpa using hlength

/-- Instructions that are all executed are read back as as many trees as they leave values. -/
theorem Holds.exists_reassembled (h : s.Holds none vs.reverse) (hlength : es.length = vs.length)
    (hexact : ∀ i ∈ is, i.Exact) (hsteps : s.steps (is.map .instr) = (t, none)) :
    ∃ (es' : List Expr) (ws : List Float),
      reassemble es is = some es' ∧ t.Holds none ws.reverse ∧ es'.length = ws.length := by
  induction is generalizing s vs es with
  | nil =>
      obtain ⟨rfl, -⟩ := Prod.mk.inj hsteps
      exact ⟨es, vs, rfl, h, hlength⟩
  | cons i is ih =>
      obtain ⟨hi, his⟩ := List.forall_mem_cons.mp hexact
      rw [List.map_cons, steps] at hsteps
      cases hstep : s.step (.instr i) with
      | error c =>
          rw [hstep] at hsteps
          cases hsteps
      | ok u =>
          rw [hstep] at hsteps
          obtain ⟨fs, ws, hextend, hu, hfs⟩ := h.exists_extended hlength hi hstep
          obtain ⟨es', ws', hread, ht, hes'⟩ := ih hu hfs his hsteps
          refine ⟨es', ws', ?_, ht, hes'⟩
          rw [reassemble, List.foldlM_cons, hextend]
          exact hread

/-- A stack from which a value is taken at the end holds this value alone. -/
theorem Holds.eq_singleton_of_finish {c : Option Nat} {x : Float} (h : s.Holds c vs)
    (hfinish : s.finish.2 = .ok x) : vs = [x] := by
  match vs with
  | [] =>
      rw [h.finish_nil] at hfinish
      cases hfinish
  | [y] =>
      obtain ⟨t, heq, -⟩ := h.finish_singleton
      rw [heq] at hfinish
      rw [Except.ok.inj hfinish]
  | y :: z :: vs =>
      rw [h.finish_many (by simp)] at hfinish
      cases hfinish

end Stack

namespace Expr

open Program Stack

theorem ofInstrs_injective {is js : List Instr} (h : ofInstrs is = ofInstrs js) : is = js :=
  List.map_injective_iff.mpr (fun _ _ => Datum.instr.inj) (Program.mk.inj h)

/-- Compiling is giving the code of a tree that is not too high for the walk. -/
theorem compile_eq_ok_iff {e : Expr} {is : List Instr} :
    e.compile = .ok (ofInstrs is) ↔ e.height ≤ compileLimit ∧ e.code = .ok is := by
  constructor
  · intro h
    by_cases hheight : e.height ≤ compileLimit
    · rw [compile, within_of_le hheight] at h
      cases hcode : e.code with
      | error c =>
          rw [hcode] at h
          cases h
      | ok js =>
          rw [hcode] at h
          rw [ofInstrs_injective (Except.ok.inj h)]
          exact ⟨hheight, rfl⟩
    · rw [compile, within, if_neg hheight] at h
      cases h
  · rintro ⟨hheight, hcode⟩
    rw [compile, within_of_le hheight, hcode]
    rfl

/-- A program of plain instructions that runs to a value is the code of a tree. -/
theorem exists_code_of_run {is : List Instr} (hexact : ∀ i ∈ is, i.Exact) {s : Stack}
    (hs : s.Reachable) (hgrows : s.capacity = none) {x : Float}
    (hrun : (s.run (ofInstrs is)).2 = .ok x) : ∃ e : Expr, e.WellFormed ∧ e.code = .ok is := by
  have hclear : s.clear.Holds none [].reverse := by
    rw [← hgrows]
    exact hs.valid.holds.clear
  have hnone : ([] : List Expr).length = ([] : List Float).length := rfl
  rw [run] at hrun
  cases hsteps : s.clear.steps (ofInstrs is).items with
  | mk t stopped =>
      rw [hsteps] at hrun
      cases stopped with
      | some c => cases hrun
      | none =>
          obtain ⟨es, ws, hread, ht, hlength⟩ :=
            hclear.exists_reassembled hnone hexact hsteps
          have hone : es.length = 1 := by
            have hsingle := congrArg List.length (ht.eq_singleton_of_finish hrun)
            rw [List.length_reverse] at hsingle
            exact hlength.trans hsingle
          obtain ⟨e, rfl⟩ := List.length_eq_one_iff.mp hone
          exact ⟨e, code_of_reassemble hread⟩

/-- The code of a tree runs to a value on every stack that grows. -/
theorem run_of_code {e : Expr} {is : List Instr} (he : e.WellFormed) (hcode : e.code = .ok is)
    {s : Stack} (hs : s.Reachable) (hgrows : s.capacity = none) :
    ∃ x, (s.run (ofInstrs is)).2 = .ok x := by
  obtain ⟨js, x, hcode', hvalue⟩ := he.code_value
  obtain rfl : js = is := Except.ok.inj (hcode'.symm.trans hcode)
  have hclear := hs.valid.holds.clear
  rw [hgrows] at hclear
  have hroom : ∀ n, HasRoom none n := by
    rintro n m ⟨⟩
  obtain ⟨t, hsteps, ht⟩ := hclear.steps_code hcode hvalue (hroom _) []
  obtain ⟨u, hfinish, -⟩ := Holds.finish_singleton (by simpa using ht)
  rw [List.append_nil] at hsteps
  exact ⟨x, by simp only [run, ofInstrs, hsteps, steps, hfinish]⟩

/-- Main result: among the programs of plain instructions, just those run to a value on a stack
that grows that are the code of a tree, and this tree is the only one, down to the bits of its
literals.  Compiling gives just this code, unless the tree is too high for the walk. -/
theorem runs_iff_code {is : List Instr} (hexact : ∀ i ∈ is, i.Exact) {s : Stack}
    (hs : s.Reachable) (hgrows : s.capacity = none) :
    ((∃ x, (s.run (ofInstrs is)).2 = .ok x) ↔ ∃! e : Expr, e.WellFormed ∧ e.code = .ok is) ∧
      ∀ e : Expr, e.compile = .ok (ofInstrs is) ↔ e.height ≤ compileLimit ∧ e.code = .ok is := by
  refine ⟨⟨?_, ?_⟩, ?_⟩
  · rintro ⟨x, hrun⟩
    obtain ⟨e, hwell, hcode⟩ := exists_code_of_run hexact hs hgrows hrun
    exact ⟨e, ⟨hwell, hcode⟩, fun e' h' => code_injective h'.2 hcode⟩
  · rintro ⟨e, ⟨hwell, hcode⟩, -⟩
    exact run_of_code hwell hcode hs hgrows
  · intro e
    exact compile_eq_ok_iff

/-- `1 - (2 - 3)` has the code that pushes all three numbers first. -/
theorem runs_iff_code_three_pushes :
    growing.Reachable ∧
      ∃! e : Expr, e.WellFormed ∧
        e.code = .ok [.push 1, .push 2, .push 3, .apply .subtract, .apply .subtract] := by
  have hexact : ∀ i ∈ [Instr.push 1, .push 2, .push 3, .apply .subtract, .apply .subtract],
      i.Exact := by
    simp only [List.forall_mem_cons]
    exact ⟨.push 1, .push 2, .push 3, .apply _, .apply _, List.forall_mem_nil _⟩
  exact ⟨.growing, (runs_iff_code hexact .growing rfl).1.mp ⟨_, rfl⟩⟩

end Expr

end Calculator
