import Calculator.Proofs.Session.LogicalLines
import Calculator.Proofs.Session.Setting

/-!
Starting sessions.  A session with a listed strategy starts exactly if its stack can be made, and a
stack can be made exactly up to the size of the memory; then the session reads its input before
anything else is done.
-/
namespace Calculator

namespace Stack

variable {size : Option Int} {stack : Stack}

theorem eq_unused_of_make (h : make size = .ok stack) : stack = unused (size.map Int.toNat) := by
  cases size with
  | none => exact (Except.ok.inj h).symm
  | some n =>
      rw [make] at h
      split at h
      · cases h
      · split at h
        · cases h
        · split at h
          · cases h
          · exact (Except.ok.inj h).symm

/-- A size that fits into memory makes a stack that was never used. -/
theorem make_of_lt (hnonneg : ∀ n, size = some n → 0 ≤ n)
    (hlt : ∀ n, size = some n → n < memoryLimit) :
    make size = .ok (unused (size.map Int.toNat)) := by
  cases size with
  | none => rfl
  | some n =>
      have hzero : 0 ≤ n := hnonneg n rfl
      have hmemory : n.toNat < memoryLimit := by
        have h := hlt n rfl
        omega
      have hword : memoryLimit ≤ wordLimit := by decide
      rw [make, if_neg (by omega), if_neg (by omega), if_neg (by omega)]
      rfl

theorem make_of_le {n : Int} (h : memoryLimit ≤ n) :
    ∃ i, (i = .capacityTooLarge ∨ i = .outOfMemory) ∧ make (some n) = .error i := by
  have hzero : ¬ n < 0 := by omega
  have hmemory : memoryLimit ≤ n.toNat := by omega
  rw [make, if_neg hzero, if_pos hmemory]
  by_cases hword : wordLimit ≤ n.toNat
  · exact ⟨.capacityTooLarge, .inl rfl, if_pos hword⟩
  · exact ⟨.outOfMemory, .inr rfl, if_neg hword⟩

end Stack

/-- A new stack fits its size. -/
theorem Setting.fits_of_make {g : Setting} {size : Option Int} {stack : Stack}
    (h : Stack.make size = .ok stack) (hcapacity : g.capacity = size.map Int.toNat) :
    g.Fits stack := by
  rw [Stack.eq_unused_of_make h, ← hcapacity]
  exact g.fits_unused

namespace Session

variable {s : Session} {r : Reporter} {stack : Stack} {files : Files} {path : String}
  {cs : List Char} {ls : List LogicalLine} {f : Failure}

/-- The logical lines of a file are those of its text, and if there is no text then there is the
same failure. -/
theorem readLogicalLines_eq (files : Files) (path : String) :
    readLogicalLines files path = (readFile files path).map LogicalLine.ofText := by
  rw [readLogicalLines]
  cases readFile files path with
  | error f => rfl
  | ok cs =>
      simp only [LogicalLine.assemble_eq]
      rfl

theorem readLogicalLines_of_readFile (h : readFile files path = .ok cs) :
    readLogicalLines files path = .ok (LogicalLine.ofText cs) := by
  rw [readLogicalLines_eq, h]
  rfl

/-- To read the input of a session is to add its logical lines. -/
theorem run_load_of_lines (hpath : s.path ≠ interactivePath)
    (hlines : readLogicalLines files s.path = .ok ls) :
    (load files).run s = (addAll ls).run s := by
  rw [load, Action.run_bind_of_silent (Action.run_get _), if_pos (bne_iff_ne.mpr hpath), hlines,
    Action.run_bind_of_silent (Action.run_ofExcept _ _)]

/-- The reporter when the input of a session is read. -/
def reporterAtStart (options : SessionOptions) (r : Reporter) : Reporter :=
  { r.registerFile options.path with fatal := if options.interactive then false else r.fatal }

/-- A session starts by reading its input. -/
theorem run_start_of_make (files : Files) (options : SessionOptions) (r : Reporter)
    (hlisted : options.strategy ∈ Strategy.listed)
    (hmake : Stack.make options.stackSize = .ok stack) :
    (start files options).run r =
      ((fresh options (reporterAtStart options r) stack).conduct (load files)).run
        (reporterAtStart options r) := by
  obtain ⟨path, strategy, size, interactive, assembly, emitting⟩ := options
  cases strategy with
  | unlisted name => simp [Strategy.listed] at hlisted
  | tree | vm | both =>
      unfold start
      simp only at hmake ⊢
      rw [Action.run_bind_of_silent (Action.run_modify _ _), hmake]
      cases interactive with
      | false => rfl
      | true => rfl

theorem run_start_of_make_error (files : Files) (options : SessionOptions) (r : Reporter)
    {i : Internal} (hlisted : options.strategy ∈ Strategy.listed)
    (hmake : Stack.make options.stackSize = .error i) :
    (start files options).run r = ⟨"", r.registerFile options.path, .error (.internal i)⟩ := by
  obtain ⟨path, strategy, size, interactive, assembly, emitting⟩ := options
  cases strategy with
  | unlisted name => simp [Strategy.listed] at hlisted
  | tree | vm | both =>
      unfold start
      simp only at hmake ⊢
      rw [Action.run_bind_of_silent (Action.run_modify _ _), hmake]
      rfl

/-- What an action does for a session it does for the reporter of the session. -/
theorem run_conduct {s s' : Session} {a : Action Session Unit} {out : String}
    {answer : Except Failure Unit} (h : a.run { s with reporter := r } = ⟨out, s', answer⟩) :
    (s.conduct a).run r = ⟨out, s'.reporter, answer.map fun _ => s'⟩ := by
  change (⟨(a.run { s with reporter := r }).printed,
    (a.run { s with reporter := r }).state.reporter,
    (a.run { s with reporter := r }).result.map fun _ => (a.run { s with reporter := r }).state⟩ :
    Outcome Reporter Session) = _
  rw [h]

end Session

end Calculator
