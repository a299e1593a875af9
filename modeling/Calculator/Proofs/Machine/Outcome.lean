import Calculator.Proofs.Machine.Fault

/-!
What a run of the stack machine comes to.  A stack that any operations have left behind is as good
as a new one of its capacity: the first fault of the program decides how the run ends, and without
a fault the height at the end does.
-/
namespace Calculator

/-- A complaint without the item that it is about. -/
def Complaint.unnamed : Complaint → Complaint
  | stackUnderflow _ available => stackUnderflow "" available
  | unknownInstruction _ => unknownInstruction ""
  | e => e

namespace Program

/-- Equal kinds make equal heights, so a fault of one program is a fault of the other. -/
theorem FaultAt.of_kinds {c : Option Nat} {ds es : List Datum} {i : Nat} {e : Complaint}
    (hkinds : ds.map Datum.kind = es.map Datum.kind) (hfault : FaultAt c ds i e) :
    ∃ e', FaultAt c es i e' ∧ e'.unnamed = e.unnamed := by
  rcases hfault with ⟨d, hd, hfault⟩
  have hheight : height (es.take i) = height (ds.take i) := by
    simp only [height, List.map_take, hkinds]
  have hget : (es.map Datum.kind)[i]? = some d.kind := by
    rw [← hkinds, List.getElem?_map, hd, Option.map_some]
  rw [List.getElem?_map, Option.map_eq_some_iff] at hget
  rcases hget with ⟨d', hd', hkind⟩
  unfold fault at hfault
  cases hcase : d.kind with
  | push =>
      simp only [hcase] at hfault hkind
      exact ⟨e, ⟨d', hd', by simpa only [fault, hkind, hheight] using hfault⟩, rfl⟩
  | apply =>
      simp only [hcase] at hfault hkind
      split at hfault
      · rename_i hlow
        refine ⟨.stackUnderflow d'.plain (height (ds.take i)).toNat, ⟨d', hd', ?_⟩, ?_⟩
        · simp only [fault, hkind, hheight, hlow, ↓reduceIte]
        · rw [← Option.some.inj hfault]
          rfl
      · cases hfault
  | unknown =>
      simp only [hcase, Option.some.injEq] at hfault hkind
      refine ⟨.unknownInstruction d'.shown, ⟨d', hd', by simp only [fault, hkind]⟩, ?_⟩
      rw [← hfault]
      rfl

theorem FirstFault.of_kinds {c : Option Nat} {ds es : List Datum} {i : Nat} {e : Complaint}
    (hkinds : ds.map Datum.kind = es.map Datum.kind) (hfirst : FirstFault c ds i e) :
    ∃ e', FirstFault c es i e' ∧ e'.unnamed = e.unnamed := by
  obtain ⟨e', hfault, hname⟩ := hfirst.faultAt.of_kinds hkinds
  refine ⟨e', ⟨hfault, ?_⟩, hname⟩
  intro j hj e'' hearlier
  obtain ⟨e₀, hfault₀, -⟩ := hearlier.of_kinds hkinds.symm
  exact hfirst.earlier j hj e₀ hfault₀

end Program

namespace Stack

open Program

variable {s : Stack} {c : Option Nat} {vs : List Float} {d : Datum}

/-- Stacks that a program using the library can come to hold. -/
inductive Reachable : Stack → Prop
  | growing : Reachable growing
  | fixed (n : Nat) : Reachable (fixed n)
  | push {s t : Stack} {x : Float} : Reachable s → s.push x = .ok t → Reachable t
  | pop {s t : Stack} {x : Float} : Reachable s → s.pop? = some (x, t) → Reachable t
  | clear {s : Stack} : Reachable s → Reachable s.clear
  | run {s : Stack} (p : Program) : Reachable s → Reachable (s.run p).1

/-- Item `i` of the program is the one that fails: the items before it do not, and those up to it
do. -/
def FailsAt (s : Stack) (p : Program) (i : Nat) : Prop :=
  (s.clear.steps (p.items.take i)).2 = none ∧
    ∃ e, (s.clear.steps (p.items.take (i + 1))).2 = some e

theorem Valid.step {t : Stack} (hs : s.Valid) (hstep : s.step d = .ok t) :
    t.Holds s.capacity t.values := by
  have h : s.Holds s.capacity s.values.reverse.reverse := by
    simpa using hs.holds
  cases hfault : fault s.capacity s.values.reverse.length d with
  | none =>
      obtain ⟨u, hu, hholds, -⟩ := h.step hfault
      rw [hstep] at hu
      obtain rfl := Except.ok.inj hu
      exact ⟨hholds.valid, hholds.capacity_eq, rfl⟩
  | some e =>
      rw [h.step_fault hfault] at hstep
      cases hstep

theorem Valid.steps (hs : s.Valid) (ds : List Datum) :
    (s.steps ds).1.Holds s.capacity (s.steps ds).1.values := by
  induction ds generalizing s with
  | nil => exact hs.holds
  | cons d ds ih =>
      simp only [Stack.steps]
      cases hstep : s.step d with
      | ok t =>
          have ht := hs.step hstep
          rw [← ht.capacity_eq]
          exact ih ht.valid
      | error e => exact hs.holds

theorem Holds.finish_nil (h : s.Holds c []) : s.finish = (s, .error .incompleteProgram) := by
  simp [finish, h.count_eq]

theorem Holds.finish_singleton {x : Float} (h : s.Holds c [x]) :
    ∃ t, s.finish = (t, .ok x) ∧ t.Holds c [] := by
  have hsingle : s.Holds c ([] ++ [x]) := h
  obtain ⟨t, hpop, ht⟩ := hsingle.pop
  exact ⟨t, by simp [finish, h.count_eq, hpop], ht⟩

theorem Holds.finish_many (h : s.Holds c vs) (hmany : 1 < vs.length) :
    s.finish = (s, .error (.excessValues vs.length)) := by
  unfold finish
  rw [h.count_eq]
  split
  · omega
  · omega
  · rfl

theorem Valid.finish (hs : s.Valid) : s.finish.1.Holds s.capacity s.finish.1.values := by
  have h := hs.holds
  match hvalues : s.values with
  | [] =>
      rw [hvalues] at h
      rw [h.finish_nil]
      exact hs.holds
  | [x] =>
      rw [hvalues] at h
      obtain ⟨t, hfinish, ht⟩ := h.finish_singleton
      rw [hfinish]
      exact ⟨ht.valid, ht.capacity_eq, rfl⟩
  | x :: y :: vs =>
      rw [h.finish_many (by simp [hvalues])]
      exact hs.holds

/-- A run, failed or not, leaves a well-kept stack of the same capacity. -/
theorem Valid.run (hs : s.Valid) (p : Program) :
    (s.run p).1.Holds s.capacity (s.run p).1.values := by
  have hclear := hs.holds.clear
  have hsteps := hclear.valid.steps p.items
  rw [hclear.capacity_eq] at hsteps
  unfold Stack.run
  split
  · rename_i t heq
    rw [heq] at hsteps
    rw [← hsteps.capacity_eq]
    exact hsteps.valid.finish
  · rename_i t e heq
    rw [heq] at hsteps
    exact hsteps

theorem Reachable.valid (hs : s.Reachable) : s.Valid := by
  induction hs with
  | growing => exact holds_growing.valid
  | fixed n => exact (holds_fixed n).valid
  | @push s t x _ hpush ih =>
      by_cases hfull : s.capacity = some s.values.length
      · have h := ih.holds
        rw [hfull] at h
        rw [h.push_full] at hpush
        cases hpush
      · obtain ⟨u, hu, hholds⟩ := ih.holds.push hfull x
        rw [hpush] at hu
        rw [Except.ok.inj hu]
        exact hholds.valid
  | @pop s t x _ hpop ih =>
      rcases List.eq_nil_or_concat s.values with hnil | ⟨vs, y, hconcat⟩
      · have h := ih.holds
        rw [hnil] at h
        rw [h.pop_empty] at hpop
        cases hpop
      · have h := ih.holds
        rw [hconcat, List.concat_eq_append] at h
        obtain ⟨u, hu, hholds⟩ := h.pop
        rw [hpop, Option.some.injEq, Prod.mk.injEq] at hu
        rw [hu.2]
        exact hholds.valid
  | clear _ ih => exact ih.holds.clear.valid
  | run p _ ih => exact (ih.run p).valid

theorem run_of_firstFault (hs : s.Valid) {p : Program} {i : Nat} {e : Complaint}
    (hfirst : FirstFault s.capacity p.items i e) :
    s.FailsAt p i ∧ ∃ t, s.run p = (t, .error e) ∧
      t.Holds s.capacity (computed (p.items.take i)).reverse ∧
      ((computed (p.items.take i)).length : Int) = height (p.items.take i) := by
  obtain ⟨t, hbefore, hall, ht, hlength⟩ :=
    hs.holds.clear.steps_firstFault hfirst (p.items.drop (i + 1))
  obtain ⟨u, -, hupTo, -⟩ := hs.holds.clear.steps_firstFault hfirst []
  rw [List.append_nil] at hupTo
  rw [List.take_append_drop] at hall
  refine ⟨⟨by rw [hbefore], e, by rw [hupTo]⟩, t, ?_, ht, hlength⟩
  simp only [run, hall]

theorem run_of_sound (hs : s.Valid) {p : Program}
    (hsound : ∀ i e, ¬ FaultAt s.capacity p.items i e) :
    ∃ t : Stack, s.run p = t.finish ∧ t.Holds s.capacity (computed p.items).reverse ∧
      ((computed p.items).length : Int) = height p.items := by
  obtain ⟨t, hsteps, ht, hlength⟩ :=
    hs.holds.clear.steps_take p.items (i := p.items.length) fun j _ => hsound j
  rw [List.take_length] at hsteps ht hlength
  exact ⟨t, by simp only [run, hsteps], ht, hlength⟩

/-- The item that fails is the one with the first fault. -/
theorem failsAt_iff (hs : s.Valid) (p : Program) (i : Nat) :
    s.FailsAt p i ↔ ∃ e, FirstFault s.capacity p.items i e := by
  constructor
  · rintro ⟨hbefore, e, hupTo⟩
    have hclear := hs.holds.clear
    rcases firstFault_or_none s.capacity p.items with ⟨j, e', hfirst⟩ | hsound
    · rcases Nat.lt_trichotomy i j with hlt | rfl | hgt
      · obtain ⟨t, hsteps, -⟩ := hclear.steps_take p.items (i := i + 1)
          fun k hk => hfirst.earlier k (by omega)
        rw [hsteps] at hupTo
        cases hupTo
      · exact ⟨e', hfirst⟩
      · -- the run would have ended at `j`, before the items up to `i` are through
        obtain ⟨t, -, hsteps, -⟩ :=
          hclear.steps_firstFault hfirst ((p.items.take i).drop (j + 1))
        have htake : p.items.take (j + 1) = (p.items.take i).take (j + 1) := by
          rw [List.take_take, Nat.min_eq_left hgt]
        rw [htake, List.take_append_drop] at hsteps
        rw [hsteps] at hbefore
        cases hbefore
    · obtain ⟨t, hsteps, -⟩ := hclear.steps_take p.items (i := i + 1) fun k _ => hsound k
      rw [hsteps] at hupTo
      cases hupTo
  · rintro ⟨e, hfirst⟩
    exact (run_of_firstFault hs hfirst).1

/-- The end of a run without a fault: one value is the program's, any other number is an error. -/
theorem run_snd_of_sound (hs : s.Valid) {p : Program}
    (hsound : ∀ i e, ¬ FaultAt s.capacity p.items i e) :
    (height p.items = 0 → (s.run p).2 = .error .incompleteProgram) ∧
      (1 < height p.items → (s.run p).2 = .error (.excessValues (height p.items).toNat)) ∧
      (height p.items ≠ 0 → ¬ 1 < height p.items →
        ∃ x, computed p.items = [x] ∧ (s.run p).2 = .ok x ∧ (s.run p).1.values = []) := by
  obtain ⟨t, hrun, ht, hlength⟩ := run_of_sound hs hsound
  rw [hrun]
  refine ⟨?_, ?_, ?_⟩
  · intro hzero
    have hnil : computed p.items = [] := List.length_eq_zero_iff.mp (by omega)
    rw [hnil] at ht
    rw [ht.finish_nil]
  · intro hmany
    rw [ht.finish_many (by rw [List.length_reverse]; omega), List.length_reverse, ← hlength,
      Int.toNat_natCast]
  · intro hne hle
    obtain ⟨x, hx⟩ : ∃ x, computed p.items = [x] := List.length_eq_one_iff.mp (by omega)
    rw [hx] at ht
    obtain ⟨u, hfinish, hu⟩ := ht.finish_singleton
    exact ⟨x, hx, by rw [hfinish], by rw [hfinish, hu.values_eq]⟩

/-- An outcome without the value, and without the item that a complaint is about. -/
def bareOutcome (r : Except Complaint Float) : Except Complaint Unit :=
  (r.map fun _ => ()).mapError Complaint.unnamed

/-- Programs of the same kinds end alike on stacks of the same capacity. -/
theorem run_snd_of_kinds {t : Stack} (hs : s.Valid) (ht : t.Valid)
    (hcapacity : t.capacity = s.capacity) {p q : Program}
    (hkinds : p.items.map Datum.kind = q.items.map Datum.kind) :
    bareOutcome (s.run p).2 = bareOutcome (t.run q).2 := by
  have hheight : height q.items = height p.items := by
    simp only [height, hkinds]
  rcases firstFault_or_none s.capacity p.items with ⟨i, e, hfirst⟩ | hsound
  · obtain ⟨e', hfirst', hname⟩ := hfirst.of_kinds hkinds
    rw [← hcapacity] at hfirst'
    obtain ⟨-, u, hrun, -⟩ := run_of_firstFault hs hfirst
    obtain ⟨-, u', hrun', -⟩ := run_of_firstFault ht hfirst'
    rw [hrun, hrun']
    exact congrArg Except.error hname.symm
  · have hsound' : ∀ i e, ¬ FaultAt t.capacity q.items i e := by
      intro i e hfault
      rw [hcapacity] at hfault
      obtain ⟨e', hfault', -⟩ := hfault.of_kinds hkinds.symm
      exact hsound i e' hfault'
    obtain ⟨hnone, hmany, hone⟩ := run_snd_of_sound hs hsound
    obtain ⟨hnone', hmany', hone'⟩ := run_snd_of_sound ht hsound'
    rw [hheight] at hnone' hmany' hone'
    by_cases hzero : height p.items = 0
    · rw [hnone hzero, hnone' hzero]
    · by_cases hlarge : 1 < height p.items
      · rw [hmany hlarge, hmany' hlarge]
      · obtain ⟨x, -, hx, -⟩ := hone hzero hlarge
        obtain ⟨y, -, hy, -⟩ := hone' hzero hlarge
        rw [hx, hy]
        rfl

/-- A run fails at the item with the first fault and leaves the values that the items before it
compute; a run without a fault ends as the height says.  Neither depends on what the stack held
before, nor on more of the program than the kinds of its items.  A fault shows its item in full,
also where the item nests too deeply to be written (`Datum.shownFault?`), which is set aside
here. -/
theorem run_decided_by_kinds (hs : s.Reachable) (p : Program) :
    (∀ i, s.FailsAt p i ↔ ∃ e, FirstFault s.capacity p.items i e) ∧
      (∀ i e, FirstFault s.capacity p.items i e →
        (s.run p).2 = .error e ∧
          (s.run p).1.values = (computed (p.items.take i)).reverse ∧
          ((computed (p.items.take i)).length : Int) = height (p.items.take i)) ∧
      ((∀ i e, ¬ FaultAt s.capacity p.items i e) →
        (height p.items = 0 → (s.run p).2 = .error .incompleteProgram) ∧
          (1 < height p.items → (s.run p).2 = .error (.excessValues (height p.items).toNat)) ∧
          (height p.items ≠ 0 → ¬ 1 < height p.items →
            ∃ x, computed p.items = [x] ∧ (s.run p).2 = .ok x ∧ (s.run p).1.values = [])) ∧
      ∀ (t : Stack) (q : Program), t.Reachable → t.capacity = s.capacity →
        p.items.map Datum.kind = q.items.map Datum.kind →
          bareOutcome (s.run p).2 = bareOutcome (t.run q).2 ∧
            ∀ i, s.FailsAt p i ↔ t.FailsAt q i := by
  refine ⟨failsAt_iff hs.valid p, ?_, run_snd_of_sound hs.valid, ?_⟩
  · intro i e hfirst
    obtain ⟨-, t, hrun, ht, hlength⟩ := run_of_firstFault hs.valid hfirst
    rw [hrun]
    exact ⟨rfl, ht.values_eq, hlength⟩
  · intro t q ht hcapacity hkinds
    refine ⟨run_snd_of_kinds hs.valid ht.valid hcapacity hkinds, ?_⟩
    intro i
    rw [failsAt_iff hs.valid, failsAt_iff ht.valid, hcapacity]
    constructor
    · rintro ⟨e, hfirst⟩
      obtain ⟨e', hfirst', -⟩ := hfirst.of_kinds hkinds
      exact ⟨e', hfirst'⟩
    · rintro ⟨e, hfirst⟩
      obtain ⟨e', hfirst', -⟩ := hfirst.of_kinds hkinds.symm
      exact ⟨e', hfirst'⟩

/-- Two pushes on one slot: the second one fails, whatever the constants are. -/
theorem run_decided_by_kinds_two_pushes :
    (fixed 1).Reachable ∧
      FirstFault (some 1) [.instr (.push 1), .instr (.push 2)] 1 (.stackOverflow 1) ∧
      ((fixed 1).run ⟨[.instr (.push 1), .instr (.push 2)]⟩).2 = .error (.stackOverflow 1) ∧
      bareOutcome ((fixed 1).run ⟨[.instr (.push 1), .instr (.push 2)]⟩).2 =
        bareOutcome ((fixed 1).run ⟨[.instr (.push 3), .instr (.push 4)]⟩).2 := by
  have hfirst :
      FirstFault (some 1) [.instr (.push 1), .instr (.push 2)] 1 (.stackOverflow 1) := by
    refine ⟨⟨.instr (.push 2), rfl, rfl⟩, ?_⟩
    rintro j hj e' ⟨d, hd, hfault⟩
    obtain rfl : j = 0 := by omega
    obtain rfl := Option.some.inj hd
    cases hfault
  obtain ⟨-, hfails, -, halike⟩ :=
    run_decided_by_kinds (.fixed 1) ⟨[.instr (.push 1), .instr (.push 2)]⟩
  exact ⟨.fixed 1, hfirst, (hfails 1 _ hfirst).1,
    (halike (fixed 1) ⟨[.instr (.push 3), .instr (.push 4)]⟩ (.fixed 1) rfl
      (by decide)).1⟩

end Stack

end Calculator
