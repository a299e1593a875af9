import Calculator.Machine
import Calculator.Proofs.Stack.Contents
import Mathlib.Data.List.Basic
import Mathlib.Data.Nat.Find

/-!
Faults of the items of a program.  The kinds of the items and the capacity of the stack decide
which item is the first that fails.  Up to it the loop invariant of a run holds: the stack has just
the values that the items so far compute, and their number is the number of pushes less the number
of applications.
-/
namespace Calculator

namespace Datum

/-- What an item asks of the machine. -/
inductive Task where
  | push (x : Float)
  | apply (op : Operator)
  | unknown

/-- A task without its contents. -/
inductive Kind where
  | push
  | apply
  | unknown
  deriving DecidableEq

/-- A refined instruction asks for the same as a plain one. -/
def task : Datum → Task
  | .instr (.push x) | .instr (.derivedPush _ _ _ x) => .push x
  | .instr (.apply op) | .instr (.derivedApply _ _ _ op) => .apply op
  | _ => .unknown

def Task.kind : Task → Kind
  | .push _ => .push
  | .apply _ => .apply
  | .unknown => .unknown

def kind (d : Datum) : Kind :=
  d.task.kind

/-- How an item of a kind changes the number of values. -/
def Kind.effect : Kind → Int
  | .push => 1
  | .apply => -1
  | .unknown => 0

end Datum

namespace Program

/-- Number of pushes less the number of applications. -/
def height (ds : List Datum) : Int :=
  ((ds.map Datum.kind).count .push : Int) - (ds.map Datum.kind).count .apply

/-- The values after a task, the topmost first, when nothing stops it. -/
def perform (vs : List Float) : Datum.Task → List Float
  | .push x => x :: vs
  | .apply op =>
      match vs with
      | y :: x :: vs => op.apply x y :: vs
      | vs => vs
  | .unknown => vs

/-- The values that items compute from nothing, the topmost first. -/
def computed (ds : List Datum) : List Float :=
  ds.foldl (fun vs d => perform vs d.task) []

/-- Why an item fails when `h` values are on a stack of capacity `c`. -/
def fault (c : Option Nat) (h : Int) (d : Datum) : Option Complaint :=
  match d.kind with
  | .unknown => some (.unknownInstruction d.shown)
  | .apply => if h < 2 then some (.stackUnderflow d.plain h.toNat) else none
  | .push =>
      match c with
      | some n => if h = n then some (.stackOverflow n) else none
      | none => none

/-- Item `i` fails with the complaint `e` at the height that the items before it lead to. -/
def FaultAt (c : Option Nat) (ds : List Datum) (i : Nat) (e : Complaint) : Prop :=
  ∃ d, ds[i]? = some d ∧ fault c (height (ds.take i)) d = some e

/-- Item `i` is the least one that fails. -/
structure FirstFault (c : Option Nat) (ds : List Datum) (i : Nat) (e : Complaint) : Prop where
  faultAt : FaultAt c ds i e
  earlier : ∀ j < i, ∀ e', ¬ FaultAt c ds j e'

theorem height_concat (ds : List Datum) (d : Datum) :
    height (ds ++ [d]) = height ds + d.kind.effect := by
  cases hkind : d.kind <;>
    simp [height, hkind, Datum.Kind.effect, List.count_append] <;> omega

theorem computed_concat (ds : List Datum) (d : Datum) :
    computed (ds ++ [d]) = perform (computed ds) d.task := by
  simp [computed]

/-- A bound adds the overflow to the faults of an item, and hides none. -/
theorem fault_some (n : Nat) (h : Int) (d : Datum) :
    fault (some n) h d = fault none h d ∨
      d.kind = .push ∧ h = n ∧ fault (some n) h d = some (.stackOverflow n) := by
  unfold fault
  cases d.kind with
  | push =>
      by_cases hfull : h = n
      · exact Or.inr ⟨rfl, hfull, if_pos hfull⟩
      · exact Or.inl (if_neg hfull)
  | apply => exact Or.inl rfl
  | unknown => exact Or.inl rfl

theorem fault_none_ne_overflow (h : Int) (d : Datum) (m : Nat) :
    fault none h d ≠ some (.stackOverflow m) := by
  unfold fault
  cases d.kind with
  | push => simp
  | apply =>
      dsimp only
      split <;> simp
  | unknown => simp

/-- While nothing stops it, a task changes the number of values by its effect. -/
theorem length_perform {c : Option Nat} {vs : List Float} {d : Datum}
    (hfault : fault c vs.length d = none) :
    ((perform vs d.task).length : Int) = vs.length + d.kind.effect := by
  unfold fault at hfault
  unfold Datum.kind at hfault ⊢
  cases htask : d.task with
  | push x => simp [perform, Datum.Task.kind, Datum.Kind.effect]
  | apply op =>
      match vs with
      | [] | [_] => simp [htask, Datum.Task.kind] at hfault
      | y :: x :: vs =>
          simp only [perform, List.length_cons, Datum.Task.kind, Datum.Kind.effect]
          omega
  | unknown => simp [perform, Datum.Task.kind, Datum.Kind.effect]

theorem take_succ_of_getElem? {ds : List Datum} {d : Datum} {i : Nat} (hd : ds[i]? = some d) :
    ds.take (i + 1) = ds.take i ++ [d] := by
  rw [List.take_add_one, hd, Option.toList_some]

/-- Some item is the least one that fails, or none fails. -/
theorem firstFault_or_none (c : Option Nat) (ds : List Datum) :
    (∃ i e, FirstFault c ds i e) ∨ ∀ i e, ¬ FaultAt c ds i e := by
  classical
  by_cases hex : ∃ i e, FaultAt c ds i e
  · obtain ⟨e, he⟩ := Nat.find_spec hex
    exact Or.inl ⟨Nat.find hex, e, he, fun j hj e' he' => Nat.find_min hex hj ⟨e', he'⟩⟩
  · exact Or.inr fun i e he => hex ⟨i, e, he⟩

end Program

namespace Stack

open Program

variable {s : Stack} {c : Option Nat} {vs : List Float} {d : Datum}

theorem step_eq_task (s : Stack) (d : Datum) :
    s.step d = match d.task with
      | .push x => s.push x
      | .apply op =>
          if s.count < 2 then .error (.stackUnderflow d.plain s.count) else s.combine op
      | .unknown => .error (.unknownInstruction d.shown) := by
  cases d with
  | instr i => cases i <;> rfl
  | _ => rfl

theorem Holds.combine {x y : Float} (h : s.Holds c (vs ++ [x, y])) (op : Operator) :
    ∃ t, s.combine op = .ok t ∧ t.Holds c (vs ++ [op.apply x y]) := by
  have h' : s.Holds c ((vs ++ [x]) ++ [y]) := by simpa using h
  obtain ⟨s₁, hpop₁, h₁⟩ := h'.pop
  obtain ⟨s₂, hpop₂, h₂⟩ := h₁.pop
  have hroom : c ≠ some vs.length := by
    rintro rfl
    have hle := h.length_le
    simp only [List.length_append, List.length_cons, List.length_nil] at hle
    omega
  obtain ⟨t, hpush, ht⟩ := h₂.push hroom (op.apply x y)
  exact ⟨t, by simp only [Stack.combine, hpop₁, hpop₂, hpush], ht⟩

/-- An item without a fault does its task. -/
theorem Holds.step (h : s.Holds c vs.reverse) (hfault : fault c vs.length d = none) :
    ∃ t, s.step d = .ok t ∧ t.Holds c (perform vs d.task).reverse ∧
      ((perform vs d.task).length : Int) = vs.length + d.kind.effect := by
  have hlength := length_perform hfault
  have hcount := h.count_eq
  rw [List.length_reverse] at hcount
  rw [step_eq_task]
  unfold fault Datum.kind at hfault
  cases htask : d.task with
  | push x =>
      simp only [htask, Datum.Task.kind] at hfault
      have hroom : c ≠ some vs.reverse.length := by
        rintro rfl
        simp at hfault
      obtain ⟨t, hpush, ht⟩ := h.push hroom x
      exact ⟨t, hpush, by simpa [perform] using ht, htask ▸ hlength⟩
  | apply op =>
      simp only [htask, Datum.Task.kind] at hfault
      match vs with
      | [] | [_] => simp at hfault
      | y :: x :: vs =>
          have hxy : s.Holds c (vs.reverse ++ [x, y]) := by simpa using h
          obtain ⟨t, hcombine, ht⟩ := hxy.combine op
          refine ⟨t, ?_, by simpa [perform] using ht, htask ▸ hlength⟩
          dsimp only
          rw [if_neg (by rw [hcount, List.length_cons, List.length_cons]; omega), hcombine]
  | unknown => simp [htask, Datum.Task.kind] at hfault

/-- An item with a fault is refused for it. -/
theorem Holds.step_fault {e : Complaint} (h : s.Holds c vs.reverse)
    (hfault : fault c vs.length d = some e) : s.step d = .error e := by
  have hcount := h.count_eq
  rw [List.length_reverse] at hcount
  rw [step_eq_task]
  unfold fault Datum.kind at hfault
  cases htask : d.task with
  | push x =>
      simp only [htask, Datum.Task.kind] at hfault
      split at hfault
      · rename_i n
        split at hfault
        · rename_i hfull
          obtain rfl : vs.reverse.length = n := by
            rw [List.length_reverse]
            exact_mod_cast hfull
          rw [← Option.some.inj hfault]
          exact h.push_full x
        · cases hfault
      · cases hfault
  | apply op =>
      simp only [htask, Datum.Task.kind] at hfault
      split at hfault
      · dsimp only
        rw [if_pos (by omega), ← Option.some.inj hfault, hcount, Int.toNat_natCast]
      · cases hfault
  | unknown =>
      simp only [htask, Datum.Task.kind, Option.some.injEq] at hfault
      rw [hfault]

theorem steps_append (s : Stack) (ds es : List Datum) :
    s.steps (ds ++ es) = match s.steps ds with
      | (t, none) => t.steps es
      | (t, some e) => (t, some e) := by
  induction ds generalizing s with
  | nil => rfl
  | cons d ds ih =>
      simp only [List.cons_append, steps]
      cases hstep : s.step d with
      | ok t => simpa only using ih t
      | error e => rfl

/-- The loop invariant: while no item fails, the stack holds the values that the items compute,
and these are as many as the height says. -/
theorem Holds.steps_take (h : s.Holds c []) (ds : List Datum) {i : Nat}
    (hsound : ∀ j < i, ∀ e, ¬ FaultAt c ds j e) :
    ∃ t, s.steps (ds.take i) = (t, none) ∧ t.Holds c (computed (ds.take i)).reverse ∧
      ((computed (ds.take i)).length : Int) = height (ds.take i) := by
  induction i with
  | zero => exact ⟨s, rfl, h, rfl⟩
  | succ i ih =>
      obtain ⟨t, hsteps, ht, hlength⟩ :=
        ih fun j hj => hsound j (Nat.lt_succ_of_lt hj)
      cases hd : ds[i]? with
      | none =>
          -- beyond the last item nothing is taken and nothing changes
          have hall : ds.length ≤ i := List.getElem?_eq_none_iff.mp hd
          rw [List.take_of_length_le hall] at hsteps ht hlength
          rw [List.take_of_length_le (Nat.le_succ_of_le hall)]
          exact ⟨t, hsteps, ht, hlength⟩
      | some d =>
          have hfault : fault c (computed (ds.take i)).length d = none := by
            rw [hlength]
            cases hf : fault c (height (ds.take i)) d with
            | none => rfl
            | some e => exact absurd ⟨d, hd, hf⟩ (hsound i (Nat.lt_succ_self i) e)
          obtain ⟨u, hstep, hu, heffect⟩ := ht.step hfault
          rw [take_succ_of_getElem? hd, steps_append, computed_concat, height_concat, ← hlength,
            hsteps]
          exact ⟨u, by simp only [steps, hstep], hu, heffect⟩

/-- Where the first fault is, the stack is left as the items before it made it. -/
theorem Holds.steps_firstFault {ds : List Datum} {i : Nat} {e : Complaint} (h : s.Holds c [])
    (hfirst : FirstFault c ds i e) (rest : List Datum) :
    ∃ t, s.steps (ds.take i) = (t, none) ∧ s.steps (ds.take (i + 1) ++ rest) = (t, some e) ∧
      t.Holds c (computed (ds.take i)).reverse ∧
      ((computed (ds.take i)).length : Int) = height (ds.take i) := by
  obtain ⟨t, hsteps, ht, hlength⟩ := h.steps_take ds hfirst.earlier
  obtain ⟨d, hd, hfault⟩ := hfirst.faultAt
  rw [← hlength] at hfault
  refine ⟨t, hsteps, ?_, ht, hlength⟩
  rw [take_succ_of_getElem? hd, List.append_assoc, steps_append, hsteps]
  simp only [List.singleton_append, steps, ht.step_fault hfault]

end Stack

end Calculator
