import Calculator.Proofs.Machine.Pile
import Calculator.Proofs.Machine.Reassembly
import Mathlib.Order.Bounds.Basic
import Mathlib.Order.MinMax

/-!
The depth of a program of plain instructions.  The depth is counted from the effects of the
instructions alone, which part ways with the values on the stack only behind an instruction that
fails.  So no run on as many slots as the depth overflows; and where nothing underflows, the depth
is the greatest number of values that are ever on the stack, and fewer slots overflow.
-/
namespace Calculator

namespace Program

variable {i : Instr} {is : List Instr}

theorem effect_of_exact (hexact : i.Exact) :
    effect (.instr i) = .ok (Datum.instr i).kind.effect := by
  cases hexact <;> rfl

theorem depthFrom_cons {is : List Instr} (hexact : i.Exact) (h m : Int) :
    depthFrom h m ((i :: is).map .instr) =
      depthFrom (h + (Datum.instr i).kind.effect) (max m (h + (Datum.instr i).kind.effect))
        (is.map .instr) := by
  rw [List.map_cons, depthFrom, effect_of_exact hexact]
  rfl

/-- Counting never fails on plain instructions, and never goes below what it starts from. -/
theorem exists_depthFrom (hexact : ∀ i ∈ is, i.Exact) (h m : Int) :
    ∃ d, depthFrom h m (is.map .instr) = .ok d ∧ m ≤ d := by
  induction is generalizing h m with
  | nil => exact ⟨m, rfl, le_rfl⟩
  | cons i is ih =>
      obtain ⟨hi, his⟩ := List.forall_mem_cons.mp hexact
      obtain ⟨d, hd, hle⟩ := ih his (h + (Datum.instr i).kind.effect)
        (max m (h + (Datum.instr i).kind.effect))
      exact ⟨d, by rw [depthFrom_cons hi, hd], le_trans (le_max_left _ _) hle⟩

/-- A plain instruction has no fault on a growing stack but an underflow. -/
theorem fault_none_of_exact (hexact : i.Exact) (h : Int) :
    fault none h (.instr i) = none ∨
      ∃ shown available, fault none h (.instr i) = some (.stackUnderflow shown available) := by
  cases hexact with
  | push x => exact Or.inl rfl
  | apply op =>
      by_cases hlow : h < 2
      · exact Or.inr ⟨_, _, if_pos hlow⟩
      · exact Or.inl (if_neg hlow)

end Program

namespace Pile

open Program

variable {is : List Instr} {vs : Pile} {d m : Int} {n : Nat}

/-- A bound that the counted depth keeps changes nothing, even where an instruction fails. -/
theorem steps_some_of_le (hexact : ∀ i ∈ is, i.Exact)
    (hd : depthFrom vs.length m (is.map .instr) = .ok d) (hle : d ≤ n) :
    steps (some n) vs (is.map .instr) = steps none vs (is.map .instr) := by
  induction is generalizing vs m with
  | nil => rfl
  | cons i is ih =>
      obtain ⟨hi, his⟩ := List.forall_mem_cons.mp hexact
      rw [depthFrom_cons hi] at hd
      obtain ⟨d', hd', hreached⟩ := exists_depthFrom his
        (vs.length + (Datum.instr i).kind.effect) (max m (vs.length + (Datum.instr i).kind.effect))
      obtain rfl : d' = d := Except.ok.inj (hd'.symm.trans hd)
      have hnext := le_trans (le_max_right m _) hreached
      simp only [List.map_cons, steps]
      rcases fault_some n vs.length (.instr i) with hsame | ⟨hpush, hfull, -⟩
      · rw [hsame]
        cases hfault : fault none vs.length (.instr i) with
        | some e => rfl
        | none =>
            rw [← length_perform hfault] at hd
            exact ih his hd
      · -- the push onto the full pile would be counted
        rw [hpush, Datum.Kind.effect] at hnext
        omega

/-- The counted depth is the greatest number of values, as long as nothing fails. -/
theorem isGreatest_of_steps_none (hexact : ∀ i ∈ is, i.Exact)
    (hd : depthFrom vs.length m (is.map .instr) = .ok d)
    (hsteps : (steps none vs (is.map .instr)).2 = none) :
    IsGreatest (insert m {k | ∃ i < is.length,
      ((steps none vs ((is.map .instr).take (i + 1))).1.length : Int) = k}) d := by
  induction is generalizing vs m with
  | nil =>
      obtain rfl : m = d := Except.ok.inj hd
      refine ⟨Set.mem_insert _ _, ?_⟩
      rintro k (rfl | ⟨i, hi, -⟩)
      · exact le_rfl
      · cases hi
  | cons i is ih =>
      obtain ⟨hi, his⟩ := List.forall_mem_cons.mp hexact
      cases hfault : fault none vs.length (.instr i) with
      | some e =>
          simp only [List.map_cons, steps, hfault] at hsteps
          cases hsteps
      | none =>
          have hlength := length_perform hfault
          rw [depthFrom_cons hi, ← hlength] at hd
          simp only [List.map_cons, steps, hfault] at hsteps
          obtain ⟨hmem, hupper⟩ := ih his hd hsteps
          have htake : ∀ j, steps none vs (((i :: is).map .instr).take (j + 1)) =
              steps none (perform vs (Datum.instr i).task) ((is.map .instr).take j) := by
            intro j
            simp only [List.map_cons, List.take_succ_cons, steps, hfault]
          have hfirst := hupper (Set.mem_insert _ _)
          constructor
          · rcases hmem with hmax | ⟨j, hj, hk⟩
            · rcases max_choice m (perform vs (Datum.instr i).task).length with hold | hnew
              · exact Or.inl (hmax.trans hold)
              · refine Or.inr ⟨0, Nat.zero_lt_succ _, ?_⟩
                rw [htake, hmax, hnew]
                rfl
            · exact Or.inr ⟨j + 1, Nat.succ_lt_succ hj, by rw [htake, hk]⟩
          · rintro k (rfl | ⟨j, hj, rfl⟩)
            · exact le_trans (le_max_left _ _) hfirst
            · rw [htake]
              cases j with
              | zero => exact le_trans (le_max_right _ _) hfirst
              | succ j => exact hupper (Or.inr ⟨j, Nat.lt_of_succ_lt_succ hj, rfl⟩)

/-- A pile that keeps a bound keeps it until something is refused. -/
theorem length_perform_le {d : Datum} (hroom : vs.length ≤ n)
    (hfault : fault (some n) vs.length d = none) : (perform vs d.task).length ≤ n := by
  have hlength := length_perform hfault
  unfold fault at hfault
  cases hkind : d.kind with
  | push =>
      have hne : (vs.length : Int) ≠ n := by
        intro hfull
        simp [hkind, hfull] at hfault
      rw [hkind, Datum.Kind.effect] at hlength
      omega
  | apply =>
      rw [hkind, Datum.Kind.effect] at hlength
      omega
  | unknown =>
      rw [hkind, Datum.Kind.effect] at hlength
      omega

/-- With a smaller bound some push finds the pile full. -/
theorem steps_some_of_lt (hexact : ∀ i ∈ is, i.Exact)
    (hd : depthFrom vs.length m (is.map .instr) = .ok d) (hstart : m ≤ n) (hlt : n < d)
    (hsteps : (steps none vs (is.map .instr)).2 = none) (hroom : vs.length ≤ n) :
    (steps (some n) vs (is.map .instr)).2 = some (.stackOverflow n) := by
  induction is generalizing vs m with
  | nil =>
      obtain rfl : m = d := Except.ok.inj hd
      omega
  | cons i is ih =>
      obtain ⟨hi, his⟩ := List.forall_mem_cons.mp hexact
      cases hfault : fault none vs.length (.instr i) with
      | some e =>
          simp only [List.map_cons, steps, hfault] at hsteps
          cases hsteps
      | none =>
          have hlength := length_perform hfault
          rw [depthFrom_cons hi, ← hlength] at hd
          simp only [List.map_cons, steps, hfault] at hsteps ⊢
          rcases fault_some n vs.length (.instr i) with hsame | ⟨-, -, hfull⟩
          · rw [hsame, hfault]
            have hroom' := length_perform_le hroom (hsame.trans hfault)
            exact ih his hd (by omega) hsteps hroom'
          · rw [hfull]

/-- A stopped run gives the complaint that stopped it. -/
theorem run_snd_of_stopped {c : Option Nat} {p : Program} {e : Complaint}
    (h : (steps c [] p.items).2 = some e) : (run c p).2 = .error e := by
  unfold run
  split
  · rename_i heq
    rw [heq] at h
    cases h
  · rename_i heq
    rw [heq] at h
    exact congrArg Except.error (Option.some.inj h)

theorem steps_none_ne_overflow (vs : Pile) (ds : List Datum) (k : Nat) :
    (steps none vs ds).2 ≠ some (.stackOverflow k) := by
  induction ds generalizing vs with
  | nil => exact (Option.some_ne_none _).symm
  | cons d ds ih =>
      simp only [steps]
      cases hfault : fault none vs.length d with
      | none => exact ih _
      | some e =>
          intro hoverflow
          exact fault_none_ne_overflow _ _ _ (hfault.trans hoverflow)

/-- Without a bound nothing overflows. -/
theorem run_none_ne_overflow (p : Program) (k : Nat) :
    (run none p).2 ≠ .error (.stackOverflow k) := by
  unfold run
  split
  · rename_i ws _
    rcases ws with _ | ⟨x, _ | ⟨y, ws⟩⟩ <;> simp [finish]
  · rename_i ws e heq
    have hstopped := steps_none_ne_overflow [] p.items k
    rw [heq] at hstopped
    intro hoverflow
    exact hstopped (congrArg some (Except.error.inj hoverflow))

theorem steps_none_of_exact (hexact : ∀ i ∈ is, i.Exact) (vs : Pile) :
    (steps none vs (is.map .instr)).2 = none ∨
      ∃ shown available,
        (steps none vs (is.map .instr)).2 = some (.stackUnderflow shown available) := by
  induction is generalizing vs with
  | nil => exact Or.inl rfl
  | cons i is ih =>
      obtain ⟨hi, his⟩ := List.forall_mem_cons.mp hexact
      simp only [List.map_cons, steps]
      rcases fault_none_of_exact hi vs.length with hnone | ⟨shown, available, hsome⟩
      · rw [hnone]
        exact ih his _
      · rw [hsome]
        exact Or.inr ⟨shown, available, rfl⟩

/-! ### Runs from nothing -/

/-- A program of plain instructions has a depth, counted from no values. -/
theorem exists_depth (hexact : ∀ i ∈ is, i.Exact) : ∃ d : Nat, (ofInstrs is).depth = .ok d ∧
    depthFrom ([] : Pile).length 0 (is.map .instr) = .ok d := by
  obtain ⟨d, hd, hpos⟩ := exists_depthFrom hexact 0 0
  obtain ⟨d, rfl⟩ := Int.eq_ofNat_of_zero_le hpos
  exact ⟨d, by simp only [depth, ofInstrs, hd, Except.map, Int.toNat_natCast], hd⟩

theorem run_some_of_le {d : Nat} (hexact : ∀ i ∈ is, i.Exact)
    (hd : depthFrom ([] : Pile).length 0 (is.map .instr) = .ok d) (hle : d ≤ n) :
    run (some n) (ofInstrs is) = run none (ofInstrs is) := by
  simp only [run, ofInstrs, steps_some_of_le hexact hd (Int.ofNat_le.mpr hle)]

/-- A run that does not underflow is through with all the instructions. -/
theorem steps_none_of_run (hexact : ∀ i ∈ is, i.Exact)
    (hsafe : ∀ shown available,
      (run none (ofInstrs is)).2 ≠ .error (.stackUnderflow shown available)) :
    (steps none [] (is.map .instr)).2 = none := by
  rcases steps_none_of_exact hexact [] with hnone | ⟨shown, available, hsome⟩
  · exact hnone
  · exact absurd (run_snd_of_stopped hsome) (hsafe shown available)

/-- Some instruction brings the pile to its depth, unless there is no instruction. -/
theorem isGreatest_depth {d : Nat} (hexact : ∀ i ∈ is, i.Exact)
    (hd : depthFrom ([] : Pile).length 0 (is.map .instr) = .ok d)
    (hsteps : (steps none [] (is.map .instr)).2 = none) (hne : is ≠ []) :
    IsGreatest {k | ∃ i < is.length,
      (steps none [] ((is.map .instr).take (i + 1))).1.length = k} d := by
  obtain ⟨hmem, hupper⟩ := isGreatest_of_steps_none hexact hd hsteps
  have hbound : ∀ i < is.length, (steps none [] ((is.map .instr).take (i + 1))).1.length ≤ d := by
    intro i hi
    exact_mod_cast hupper (Or.inr ⟨i, hi, rfl⟩)
  constructor
  · rcases hmem with hzero | ⟨i, hi, hk⟩
    · -- no height exceeds zero, so the first instruction reaches the depth
      have hfirst := hbound 0 (List.length_pos_iff.mpr hne)
      exact ⟨0, List.length_pos_iff.mpr hne, by omega⟩
    · exact ⟨i, hi, by exact_mod_cast hk⟩
  · rintro k ⟨i, hi, rfl⟩
    exact hbound i hi

end Pile

namespace Stack

open Program

/-- Main result: the depth of any plain instructions, however they are put together, can be
counted.  On that many slots they never overflow and end as on a stack that grows.  Unless they
underflow, the stack holds as many values as the depth after some instruction, and never more, and
fewer slots overflow. -/
theorem depth_exact {is : List Instr} (hexact : ∀ i ∈ is, i.Exact) :
    ∃ d, (ofInstrs is).depth = .ok d ∧
      ∀ t : Stack, t.Reachable → t.capacity = none →
        (∀ (s : Stack) (n : Nat), s.Reachable → s.capacity = some n → d ≤ n →
          (∀ k, (s.run (ofInstrs is)).2 ≠ .error (.stackOverflow k)) ∧
            (s.run (ofInstrs is)).2 = (t.run (ofInstrs is)).2 ∧
            (s.run (ofInstrs is)).1.values = (t.run (ofInstrs is)).1.values) ∧
        ((∀ shown available,
            (t.run (ofInstrs is)).2 ≠ .error (.stackUnderflow shown available)) →
          (is = [] → d = 0) ∧
          (is ≠ [] → IsGreatest {k | ∃ i < is.length,
            (t.clear.steps ((ofInstrs is).items.take (i + 1))).1.count = k} d) ∧
          ∀ (s : Stack) (n : Nat), s.Reachable → s.capacity = some n → n < d →
            (s.run (ofInstrs is)).2 = .error (.stackOverflow n)) := by
  obtain ⟨d, hdepth, hd⟩ := Pile.exists_depth hexact
  refine ⟨d, hdepth, ?_⟩
  intro t ht hgrows
  obtain ⟨hresult, hvalues⟩ := ht.valid.run_eq hgrows (ofInstrs is)
  constructor
  · intro s n hs hcapacity hle
    obtain ⟨hresult', hvalues'⟩ := hs.valid.run_eq hcapacity (ofInstrs is)
    rw [hresult', hvalues', hresult, hvalues, Pile.run_some_of_le hexact hd hle]
    exact ⟨Pile.run_none_ne_overflow _, rfl, rfl⟩
  · intro hsafe
    rw [hresult] at hsafe
    have hsteps := Pile.steps_none_of_run hexact hsafe
    refine ⟨?_, ?_, ?_⟩
    · rintro rfl
      exact_mod_cast (Except.ok.inj hd).symm
    · intro hne
      simp only [ht.valid.count_steps hgrows]
      exact Pile.isGreatest_depth hexact hd hsteps hne
    · intro s n hs hcapacity hlt
      rw [(hs.valid.run_eq hcapacity _).1]
      exact Pile.run_snd_of_stopped (Pile.steps_some_of_lt hexact hd (Int.natCast_nonneg n)
        (Int.ofNat_lt.mpr hlt) hsteps (Nat.zero_le n))

/-- A program that leaves two values needs three slots: on three it ends as on a growing stack, with
two it overflows. -/
theorem depth_exact_two_values_left :
    (∀ i ∈ [Instr.push 1, .push 2, .push 3, .apply .add], i.Exact) ∧
      ((fixed 3).run (ofInstrs [.push 1, .push 2, .push 3, .apply .add])).2 =
        .error (.excessValues 2) ∧
      ((fixed 2).run (ofInstrs [.push 1, .push 2, .push 3, .apply .add])).2 =
        .error (.stackOverflow 2) := by
  have hexact : ∀ i ∈ [Instr.push 1, .push 2, .push 3, .apply .add], i.Exact := by
    simp only [List.forall_mem_cons]
    exact ⟨.push 1, .push 2, .push 3, .apply _, List.forall_mem_nil _⟩
  have hleft : (growing.run (ofInstrs [.push 1, .push 2, .push 3, .apply .add])).2 =
      .error (.excessValues 2) := rfl
  obtain ⟨d, hd, hdepth⟩ := depth_exact hexact
  obtain rfl : 3 = d := Except.ok.inj hd
  obtain ⟨hfits, hsafe⟩ := hdepth growing .growing rfl
  have hnever : ∀ shown available,
      (growing.run (ofInstrs [.push 1, .push 2, .push 3, .apply .add])).2 ≠
        .error (.stackUnderflow shown available) := by
    rw [hleft]
    rintro shown available ⟨⟩
  exact ⟨hexact, ((hfits (fixed 3) 3 (.fixed 3) rfl le_rfl).2.1).trans hleft,
    (hsafe hnever).2.2 (fixed 2) 2 (.fixed 2) rfl (by decide)⟩

end Stack

end Calculator
