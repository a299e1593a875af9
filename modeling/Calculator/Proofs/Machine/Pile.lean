import Calculator.Proofs.Machine.Outcome

/-!
Stacks as plain lists.  A pile is a list of values without slots, the topmost value first, which a
capacity may bound.  What an operation does to a stack it does to the pile of its values, and the
answers are the same; so a fixed stack differs from one that grows only in its overflows.
-/
namespace Calculator

namespace Stack

/-- What a program that uses the library can do with a stack. -/
inductive Op where
  | push (x : Float)
  | pop
  | clear
  | run (p : Program)

/-- What an operation gives back: a value, nothing, or a failure. -/
abbrev Answer := Except Failure (Option Float)

def Answer.ofRun : Except Complaint Float → Answer
  | .ok x => .ok (some x)
  | .error e => .error (.complaint e)

/-- A new stack. -/
def new : Option Nat → Stack
  | none => growing
  | some n => fixed n

/-- The stack after an operation, and the answer. -/
def operate (s : Stack) : Op → Stack × Answer
  | .push x =>
      match s.push x with
      | .ok t => (t, .ok none)
      | .error e => (s, .error (.complaint e))
  | .pop =>
      match s.pop? with
      | some (x, t) => (t, .ok (some x))
      | none => (s, .error (.internal .emptyStack))
  | .clear => (s.clear, .ok none)
  | .run p => ((s.run p).1, .ofRun (s.run p).2)

/-- Operations one after the other: what they leave, and the answer to each. -/
def inOrder {σ : Type} (operate : σ → Op → σ × Answer) (s : σ) : List Op → σ × List Answer
  | [] => (s, [])
  | op :: ops =>
      let next := operate s op
      let rest := inOrder operate next.1 ops
      (rest.1, next.2 :: rest.2)

end Stack

/-- The values on a stack, the topmost first. -/
abbrev Pile := List Float

namespace Pile

open Program (fault fault_some perform)
open Stack (Op Answer inOrder)

/-- Executes items in order until one has a fault. -/
def steps (c : Option Nat) (vs : Pile) : List Datum → Pile × Option Complaint
  | [] => (vs, none)
  | d :: ds =>
      match fault c vs.length d with
      | none => steps c (perform vs d.task) ds
      | some e => (vs, some e)

def finish : Pile → Pile × Except Complaint Float
  | [] => ([], .error .incompleteProgram)
  | [x] => ([], .ok x)
  | vs => (vs, .error (.excessValues vs.length))

def run (c : Option Nat) (p : Program) : Pile × Except Complaint Float :=
  match steps c [] p.items with
  | (vs, none) => finish vs
  | (vs, some e) => (vs, .error e)

/-- The pile after an operation, and the answer. -/
def operate (c : Option Nat) (vs : Pile) : Op → Pile × Answer
  | .push x =>
      if c = some vs.length then (vs, .error (.complaint (.stackOverflow vs.length)))
      else (x :: vs, .ok none)
  | .pop =>
      match vs with
      | [] => ([], .error (.internal .emptyStack))
      | x :: vs => (vs, .ok (some x))
  | .clear => ([], .ok none)
  | .run p => ((run c p).1, .ofRun (run c p).2)

/-- A bounded pile goes as an unbounded one, or it ends full. -/
theorem steps_some (n : Nat) (vs : Pile) (ds : List Datum) :
    steps (some n) vs ds = steps none vs ds ∨
      (steps (some n) vs ds).2 = some (.stackOverflow n) := by
  induction ds generalizing vs with
  | nil => exact Or.inl rfl
  | cons d ds ih =>
      simp only [steps]
      rcases fault_some n vs.length d with hsame | ⟨-, -, hfull⟩
      · rw [hsame]
        cases fault none vs.length d with
        | none => exact ih _
        | some e => exact Or.inl rfl
      · rw [hfull]
        exact Or.inr rfl

theorem operate_some (n : Nat) (vs : Pile) (op : Op) :
    operate (some n) vs op = operate none vs op ∨
      (operate (some n) vs op).2 = .error (.complaint (.stackOverflow n)) := by
  cases op with
  | push x =>
      by_cases hfull : some n = some vs.length
      · obtain rfl := Option.some.inj hfull
        exact Or.inr (by simp only [operate, if_true])
      · exact Or.inl (by simp only [operate, if_neg hfull, reduceCtorEq, if_false])
  | pop => exact Or.inl rfl
  | clear => exact Or.inl rfl
  | run p =>
      rcases steps_some n [] p.items with hsame | hfull
      · exact Or.inl (by simp only [operate, run, hsame])
      · right
        simp only [operate, run]
        cases hsteps : steps (some n) [] p.items with
        | mk ws stopped =>
            rw [hsteps] at hfull
            obtain rfl : stopped = some (.stackOverflow n) := hfull
            rfl

/-- Up to the first overflow the bound does not show. -/
theorem inOrder_some (n k : Nat) (vs : Pile) (ops : List Op)
    (hfits : ∀ a ∈ (inOrder (operate (some n)) vs ops).2.take k,
      a ≠ .error (.complaint (.stackOverflow n))) :
    (inOrder (operate (some n)) vs ops).2.take k = (inOrder (operate none) vs ops).2.take k ∧
      (inOrder (operate (some n)) vs (ops.take k)).1 =
        (inOrder (operate none) vs (ops.take k)).1 := by
  induction ops generalizing vs k with
  | nil => exact ⟨rfl, by rw [List.take_nil]; rfl⟩
  | cons op ops ih =>
      cases k with
      | zero => exact ⟨rfl, rfl⟩
      | succ k =>
          simp only [inOrder, List.take_succ_cons, List.forall_mem_cons] at hfits
          have hsame := (operate_some n vs op).resolve_right hfits.1
          rw [hsame] at hfits
          obtain ⟨hanswers, hleft⟩ := ih k _ hfits.2
          simp only [inOrder, List.take_succ_cons, hsame, hanswers, hleft, and_self]

end Pile

namespace Stack

variable {s : Stack} {c : Option Nat} {vs : Pile}

theorem holds_new (c : Option Nat) : (new c).Holds c [] := by
  cases c with
  | none => exact holds_growing
  | some n => exact holds_fixed n

theorem Holds.steps_eq (h : s.Holds c vs.reverse) (ds : List Datum) :
    (s.steps ds).1.Holds c (Pile.steps c vs ds).1.reverse ∧
      (s.steps ds).2 = (Pile.steps c vs ds).2 := by
  induction ds generalizing s vs with
  | nil => exact ⟨h, rfl⟩
  | cons d ds ih =>
      cases hfault : Program.fault c vs.length d with
      | none =>
          obtain ⟨t, hstep, ht, -⟩ := h.step hfault
          simp only [steps, Pile.steps, hstep, hfault]
          exact ih ht
      | some e =>
          simp only [steps, Pile.steps, h.step_fault hfault, hfault, and_true]
          exact h

theorem Holds.finish_eq (h : s.Holds c vs.reverse) :
    s.finish.1.Holds c (Pile.finish vs).1.reverse ∧ s.finish.2 = (Pile.finish vs).2 := by
  match vs with
  | [] =>
      rw [h.finish_nil]
      exact ⟨h, rfl⟩
  | [x] =>
      obtain ⟨t, hfinish, ht⟩ := Holds.finish_singleton h
      rw [hfinish]
      exact ⟨ht, rfl⟩
  | x :: y :: vs =>
      rw [h.finish_many (by simp), List.length_reverse]
      exact ⟨h, rfl⟩

/-- A run on any stack is the run on a pile of the same bound. -/
theorem Holds.run_eq (h : s.Holds c vs.reverse) (p : Program) :
    (s.run p).1.Holds c (Pile.run c p).1.reverse ∧ (s.run p).2 = (Pile.run c p).2 := by
  have hclear : s.clear.Holds c ([] : Pile).reverse := h.clear
  obtain ⟨hholds, hstopped⟩ := hclear.steps_eq p.items
  cases hsteps : s.clear.steps p.items with
  | mk t stopped =>
      cases hpile : Pile.steps c [] p.items with
      | mk ws stopped' =>
          rw [hsteps, hpile] at hholds hstopped
          obtain rfl : stopped = stopped' := hstopped
          simp only [run, Pile.run, hsteps, hpile]
          cases stopped with
          | none => exact Holds.finish_eq hholds
          | some e => exact ⟨hholds, rfl⟩

theorem Valid.run_eq (hs : s.Valid) (hcapacity : s.capacity = c) (p : Program) :
    (s.run p).2 = (Pile.run c p).2 ∧ (s.run p).1.values = (Pile.run c p).1.reverse := by
  subst hcapacity
  have hvalues : s.Holds s.capacity s.values.reverse.reverse := by
    rw [List.reverse_reverse]
    exact hs.holds
  obtain ⟨hholds, hresult⟩ := hvalues.run_eq p
  exact ⟨hresult, hholds.values_eq⟩

/-- After items, a cleared stack has as many values as the pile that starts empty. -/
theorem Valid.count_steps (hs : s.Valid) (hcapacity : s.capacity = c) (ds : List Datum) :
    (s.clear.steps ds).1.count = (Pile.steps c [] ds).1.length := by
  subst hcapacity
  have hclear : s.clear.Holds s.capacity ([] : Pile).reverse := hs.holds.clear
  rw [(hclear.steps_eq ds).1.count_eq, List.length_reverse]

/-- The step lemma: an operation keeps a stack and its pile together, and answers for both. -/
theorem Holds.operate_eq (h : s.Holds c vs.reverse) (op : Op) :
    (s.operate op).1.Holds c (Pile.operate c vs op).1.reverse ∧
      (s.operate op).2 = (Pile.operate c vs op).2 := by
  cases op with
  | push x =>
      by_cases hfull : c = some vs.reverse.length
      · subst hfull
        simp only [operate, h.push_full, Pile.operate, List.length_reverse, if_true, and_true]
        rwa [List.length_reverse] at h
      · obtain ⟨t, hpush, ht⟩ := h.push hfull x
        rw [List.length_reverse] at hfull
        simp only [operate, hpush, Pile.operate, if_neg hfull, List.reverse_cons, and_true]
        exact ht
  | pop =>
      cases vs with
      | nil =>
          simp only [operate, Holds.pop_empty h, Pile.operate, and_true]
          exact h
      | cons x vs =>
          rw [List.reverse_cons] at h
          obtain ⟨t, hpop, ht⟩ := h.pop
          simp only [operate, hpop, Pile.operate, and_true]
          exact ht
  | clear => exact ⟨h.clear, rfl⟩
  | run p =>
      obtain ⟨hholds, hresult⟩ := h.run_eq p
      exact ⟨hholds, congrArg Answer.ofRun hresult⟩

/-- The run lemma. -/
theorem Holds.inOrder_eq (h : s.Holds c vs.reverse) (ops : List Op) :
    (inOrder operate s ops).1.Holds c (inOrder (Pile.operate c) vs ops).1.reverse ∧
      (inOrder operate s ops).2 = (inOrder (Pile.operate c) vs ops).2 := by
  induction ops generalizing s vs with
  | nil => exact ⟨h, rfl⟩
  | cons op ops ih =>
      obtain ⟨hholds, hanswer⟩ := h.operate_eq op
      obtain ⟨hrest, hanswers⟩ := ih hholds
      simp only [inOrder]
      exact ⟨hrest, by rw [hanswer, hanswers]⟩

/-- A push fails exactly on a full stack, with the number of its slots, and changes nothing. -/
theorem Holds.push_eq_error_iff (h : s.Holds c vs.reverse) (x : Float) (e : Failure) :
    (s.operate (.push x)).2 = .error e ↔
      c = some s.count ∧ e = .complaint (.stackOverflow s.count) := by
  rw [(h.operate_eq _).2, h.count_eq, List.length_reverse, Pile.operate]
  by_cases hfull : c = some vs.length
  · simp [hfull, eq_comm]
  · simp [hfull]

/-- A pop fails exactly on an empty stack. -/
theorem Holds.pop_eq_error_iff (h : s.Holds c vs.reverse) (e : Failure) :
    (s.operate .pop).2 = .error e ↔ s.count = 0 ∧ e = .internal .emptyStack := by
  rw [(h.operate_eq _).2, h.count_eq, List.length_reverse, Pile.operate.eq_def]
  cases vs with
  | nil => simp [eq_comm]
  | cons x vs => simp

theorem operate_fst_of_error {op : Op} {e : Failure} (hop : op = .pop ∨ ∃ x, op = .push x)
    (herror : (s.operate op).2 = .error e) : (s.operate op).1 = s := by
  rcases hop with rfl | ⟨x, rfl⟩
  · simp only [operate] at herror ⊢
    cases hpop : s.pop? with
    | none => rfl
    | some top =>
        rw [hpop] at herror
        cases herror
  · simp only [operate] at herror ⊢
    cases hpush : s.push x with
    | error e => rfl
    | ok t =>
        rw [hpush] at herror
        cases herror

/-- Main result: whatever was done to a new stack, it holds what is left of a plain list after the
same operations, in slots that are as many as the values or as many as the capacity, and it has
answered as the list does.  A push fails just when the slots are used up, a pop just when no value
is there, and neither then changes the stack.  So up to its first overflow a fixed stack answers as
one that grows. -/
theorem stack_eq_bounded_list (c : Option Nat) (ops : List Op) :
    (∃ (s : Stack) (vs : Pile) (answers : List Answer),
      inOrder operate (new c) ops = (s, answers) ∧
        inOrder (Pile.operate c) [] ops = (vs, answers) ∧
        s.values = vs.reverse ∧ s.count = vs.length ∧
        (c = none → s.slots.size = s.count) ∧
        (∀ n, c = some n → s.slots.size = n ∧ s.count ≤ n) ∧
        (∀ x e, (s.operate (.push x)).2 = .error e ↔
          c = some s.count ∧ e = .complaint (.stackOverflow s.count)) ∧
        (∀ e, (s.operate .pop).2 = .error e ↔ s.count = 0 ∧ e = .internal .emptyStack) ∧
        ∀ op e, (op = .pop ∨ ∃ x, op = .push x) → (s.operate op).2 = .error e →
          (s.operate op).1 = s) ∧
      ∀ n k, (∀ a ∈ (inOrder operate (fixed n) ops).2.take k,
          a ≠ .error (.complaint (.stackOverflow n))) →
        (inOrder operate (fixed n) ops).2.take k = (inOrder operate growing ops).2.take k ∧
          (inOrder operate (fixed n) (ops.take k)).1.values =
            (inOrder operate growing (ops.take k)).1.values := by
  constructor
  · have hnew : (new c).Holds c ([] : Pile).reverse := holds_new c
    obtain ⟨h, hanswers⟩ := hnew.inOrder_eq ops
    have hvalid := h.valid
    refine ⟨_, _, _, rfl, Prod.ext rfl hanswers.symm, h.values_eq, ?_, ?_, ?_,
      h.push_eq_error_iff, h.pop_eq_error_iff, fun op e => operate_fst_of_error⟩
    · rw [h.count_eq, List.length_reverse]
    · rintro rfl
      simpa only [Valid, h.capacity_eq] using hvalid
    · rintro n rfl
      simpa only [Valid, h.capacity_eq] using hvalid
  · intro n k hfits
    have hfixed : (fixed n).Holds (some n) ([] : Pile).reverse := holds_fixed n
    have hgrowing : growing.Holds none ([] : Pile).reverse := holds_growing
    rw [(hfixed.inOrder_eq ops).2] at hfits
    obtain ⟨hanswers, hleft⟩ := Pile.inOrder_some n k [] ops hfits
    rw [(hfixed.inOrder_eq ops).2, (hgrowing.inOrder_eq ops).2, (hfixed.inOrder_eq _).1.values_eq,
      (hgrowing.inOrder_eq _).1.values_eq, hleft]
    exact ⟨hanswers, rfl⟩

/-- The second push onto a single slot fails, and the first value is still there to pop. -/
theorem stack_eq_bounded_list_one_slot :
    (inOrder operate (fixed 1) [.push 1, .push 2, .pop]).2 =
        [.ok none, .error (.complaint (.stackOverflow 1)), .ok (some 1)] ∧
      (inOrder operate (fixed 1) [.push 1, .push 2, .pop]).2.take 1 =
        (inOrder operate growing [.push 1, .push 2, .pop]).2.take 1 := by
  have hanswers : (inOrder operate (fixed 1) [.push 1, .push 2, .pop]).2 =
      [.ok none, .error (.complaint (.stackOverflow 1)), .ok (some 1)] := rfl
  obtain ⟨-, hagree⟩ := stack_eq_bounded_list (some 1) [.push 1, .push 2, .pop]
  refine ⟨hanswers, (hagree 1 1 ?_).1⟩
  rw [hanswers]
  rintro a ha
  obtain rfl := List.mem_singleton.mp ha
  rintro ⟨⟩

end Stack

end Calculator
