import Calculator.Stack
import Mathlib.Data.List.Basic

/-!
A stack as the list of its values.  `Stack.Holds` ties the slots and the count to a capacity and a
list; each operation has one lemma that says what becomes of the list.  Slots above the topmost
value never show in it.
-/
namespace Calculator

namespace Stack

variable {s : Stack} {c : Option Nat} {vs : List Float} {x y : Float}

/-- `s` is a well-kept stack of capacity `c` that holds the values `vs`, the lowest first. -/
structure Holds (s : Stack) (c : Option Nat) (vs : List Float) : Prop where
  valid : s.Valid
  capacity_eq : s.capacity = c
  values_eq : s.values = vs

theorem Valid.holds (hs : s.Valid) : s.Holds s.capacity s.values :=
  ⟨hs, rfl, rfl⟩

theorem Valid.count_le_size (hs : s.Valid) : s.count ≤ s.slots.size := by
  unfold Valid at hs
  split at hs <;> omega

theorem Holds.count_eq (h : s.Holds c vs) : s.count = vs.length := by
  have hle := h.valid.count_le_size
  rw [← h.values_eq, values, List.length_take, Array.length_toList]
  omega

/-- A fixed stack never holds more values than it has slots. -/
theorem Holds.length_le {n : Nat} (h : s.Holds (some n) vs) : vs.length ≤ n := by
  have hvalid := h.valid
  simp only [Valid, h.capacity_eq] at hvalid
  have hcount := h.count_eq
  omega

theorem holds_growing : growing.Holds none [] :=
  ⟨rfl, rfl, rfl⟩

theorem holds_fixed (n : Nat) : (fixed n).Holds (some n) [] :=
  ⟨⟨Array.size_replicate, Nat.zero_le n⟩, rfl, List.take_zero⟩

theorem Holds.clear (h : s.Holds c vs) : s.clear.Holds c [] := by
  rcases h with ⟨hvalid, rfl, -⟩
  cases hcapacity : s.capacity with
  | none => exact ⟨by simp [Valid, Stack.clear, hcapacity], by simp [Stack.clear, hcapacity],
      by simp [values, Stack.clear, hcapacity]⟩
  | some n =>
      have hsize : s.slots.size = n := by
        simp only [Valid, hcapacity] at hvalid
        exact hvalid.1
      exact ⟨by simp [Valid, Stack.clear, hcapacity, hsize], by simp [Stack.clear, hcapacity],
        by simp [values, Stack.clear, hcapacity]⟩

/-- A push onto a stack with room appends the value. -/
theorem Holds.push (h : s.Holds c vs) (hroom : c ≠ some vs.length) (x : Float) :
    ∃ t, s.push x = .ok t ∧ t.Holds c (vs ++ [x]) := by
  have hcount := h.count_eq
  rcases h with ⟨hvalid, rfl, rfl⟩
  cases hcapacity : s.capacity with
  | none =>
      simp only [Valid, hcapacity] at hvalid
      refine ⟨_, by simp only [Stack.push, hcapacity]; rfl, ?_, ?_, ?_⟩
      · simp [Valid, hvalid]
      · rfl
      · simp only [values, Array.toList_push, ← hvalid, ← Array.length_toList, List.take_length]
        exact List.take_of_length_le (by simp)
  | some n =>
      simp only [Valid, hcapacity] at hvalid
      have hne : n ≠ s.count := fun heq => hroom (by rw [hcapacity, heq, hcount])
      have hlt : s.count < n := by omega
      refine ⟨_, by simp only [Stack.push, hcapacity, Nat.not_le.mpr hlt, ↓reduceIte]; rfl,
        ?_, ?_, ?_⟩
      · simp only [Valid, Array.size_setIfInBounds]
        omega
      · rfl
      · have hset : s.count < s.slots.toList.length := by
          rw [Array.length_toList]
          omega
        simp only [values, Array.toList_setIfInBounds]
        rw [List.take_add_one, List.take_set_of_le (Nat.le_refl s.count),
          List.getElem?_set_self hset, Option.toList_some]

/-- A push onto a full stack is refused. -/
theorem Holds.push_full (h : s.Holds (some vs.length) vs) (x : Float) :
    s.push x = .error (.stackOverflow vs.length) := by
  simp [Stack.push, h.capacity_eq, h.count_eq]

/-- A pop takes off the value that was appended last. -/
theorem Holds.pop (h : s.Holds c (vs ++ [x])) : ∃ t, s.pop? = some (x, t) ∧ t.Holds c vs := by
  have hcount : s.count = vs.length + 1 := by
    rw [h.count_eq, List.length_append, List.length_singleton]
  rcases h with ⟨hvalid, rfl, hvalues⟩
  rw [values, hcount] at hvalues
  have hle := hvalid.count_le_size
  have htop : s.slots[vs.length]? = some x := by
    rw [← Array.getElem?_toList, ← List.getElem?_take_of_lt (Nat.lt_succ_self vs.length), hvalues]
    exact List.getElem?_concat_length
  have hbelow : s.slots.toList.take vs.length = vs := by
    have htake := congrArg (List.take vs.length) hvalues
    rwa [List.take_take, Nat.min_eq_left (Nat.le_succ _), List.take_left] at htake
  cases hcapacity : s.capacity with
  | none =>
      simp only [Valid, hcapacity] at hvalid
      refine ⟨_, by simp only [pop?, hcount, hcapacity, htop, Option.getD_some]; rfl, ?_, ?_, ?_⟩
      · simp only [Valid, Array.size_pop]
        omega
      · rfl
      · have hdrop : s.slots.pop.toList = s.slots.toList.take vs.length := by
          rw [Array.toList_pop, List.dropLast_eq_take, Array.length_toList, hvalid, hcount,
            Nat.add_sub_cancel]
        simp only [values, hdrop, List.take_take, Nat.min_self]
        exact hbelow
  | some n =>
      simp only [Valid, hcapacity] at hvalid
      refine ⟨_, by simp only [pop?, hcount, hcapacity, htop, Option.getD_some]; rfl, ?_, ?_, ?_⟩
      · simp only [Valid]
        omega
      · rfl
      · exact hbelow

theorem Holds.pop_empty (h : s.Holds c []) : s.pop? = none := by
  simp [pop?, h.count_eq]

end Stack

end Calculator
