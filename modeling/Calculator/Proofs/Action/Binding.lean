/-!
Answers and failures of steps in a row.  An answer of two steps is one of the second step, given the
answer of the first; a failure is that of the first step, or else of the second one.
-/
namespace Calculator

variable {ε α β : Type} {a : Except ε α} {e : ε}

theorem exists_of_bind_eq_ok {f : α → Except ε β} {y : β} (h : a >>= f = .ok y) :
    ∃ x, a = .ok x ∧ f x = .ok y := by
  cases a with
  | error e => cases h
  | ok x => exact ⟨x, rfl, h⟩

theorem exists_of_map_eq_ok {f : α → β} {y : β} (h : a.map f = .ok y) :
    ∃ x, a = .ok x ∧ f x = y := by
  cases a with
  | error e => cases h
  | ok x => exact ⟨x, rfl, Except.ok.inj h⟩

theorem eq_error_of_map {f : α → β} (h : a.map f = .error e) : a = .error e := by
  cases a with
  | ok x => cases h
  | error e' => exact congrArg Except.error (Except.error.inj h)

theorem eq_error_of_bind {f : α → Except ε β} (h : a >>= f = .error e) :
    a = .error e ∨ ∃ x, a = .ok x ∧ f x = .error e := by
  cases a with
  | ok x => exact .inr ⟨x, rfl, h⟩
  | error e' => exact .inl (congrArg Except.error (Except.error.inj h))

end Calculator
