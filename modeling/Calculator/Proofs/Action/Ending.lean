import Calculator.Action

/-!
How actions end.  An action ends with an answer or with a failure, and each in a state.  A condition
on the end of an action is a condition on the ends of its steps, so what a whole action comes to is
found from the back, step by step.
-/
namespace Calculator.Action

variable {σ τ α β : Type}

/-- The action ends with an answer and a state that `ok` allows, or with a failure and a state that
`failed` allows. -/
def Ends (a : Action σ α) (s : σ) (ok : α → σ → Prop) (failed : Failure → σ → Prop) : Prop :=
  match (a.run s).result with
  | .ok x => ok x (a.run s).state
  | .error e => failed e (a.run s).state

variable {a : Action σ α} {f : α → Action σ β} {s t : σ} {out : String} {x : α} {e : Failure}
  {ok ok' : α → σ → Prop} {ok₂ : β → σ → Prop} {failed failed' : Failure → σ → Prop}

theorem ends_of_run_ok (h : a.run s = ⟨out, t, .ok x⟩) : a.Ends s ok failed ↔ ok x t := by
  rw [Ends, h]

theorem ends_of_run_error (h : a.run s = ⟨out, t, .error e⟩) :
    a.Ends s ok failed ↔ failed e t := by
  rw [Ends, h]

/-- What an action does is all that its end depends on. -/
theorem ends_congr {b : Action σ α} (h : a.run s = b.run t) :
    a.Ends s ok failed ↔ b.Ends t ok failed := by
  rw [Ends, Ends, h]

theorem Ends.mono (h : a.Ends s ok failed) (hok : ∀ x s, ok x s → ok' x s)
    (hfailed : ∀ e s, failed e s → failed' e s) : a.Ends s ok' failed' := by
  unfold Ends at h ⊢
  split
  · rename_i x hresult
    rw [hresult] at h
    exact hok _ _ h
  · rename_i e hresult
    rw [hresult] at h
    exact hfailed _ _ h

@[simp] theorem ends_pure : (pure x : Action σ α).Ends s ok failed ↔ ok x s :=
  Iff.rfl

@[simp] theorem ends_fail : (fail e : Action σ α).Ends s ok failed ↔ failed e s :=
  Iff.rfl

@[simp] theorem ends_complain {c : Complaint} :
    (complain c : Action σ α).Ends s ok failed ↔ failed (.complaint c) s :=
  Iff.rfl

@[simp] theorem ends_get {ok : σ → σ → Prop} : get.Ends s ok failed ↔ ok s s :=
  Iff.rfl

@[simp] theorem ends_modify {g : σ → σ} {ok : Unit → σ → Prop} :
    (modify g).Ends s ok failed ↔ ok () (g s) :=
  Iff.rfl

@[simp] theorem ends_printLine {ok : Unit → σ → Prop} :
    (printLine out).Ends s ok failed ↔ ok () s :=
  Iff.rfl

@[simp] theorem ends_ofExcept {r : Except Failure α} :
    (ofExcept r).Ends s ok failed ↔ (∀ x, r = .ok x → ok x s) ∧ ∀ e, r = .error e → failed e s := by
  cases r with
  | ok x =>
      constructor
      · intro h
        exact ⟨by rintro _ ⟨⟩; exact h, by rintro _ ⟨⟩⟩
      · rintro ⟨h, -⟩
        exact h x rfl
  | error e =>
      constructor
      · intro h
        exact ⟨by rintro _ ⟨⟩, by rintro _ ⟨⟩; exact h⟩
      · rintro ⟨-, h⟩
        exact h e rfl

/-- What follows an action begins where the action ends. -/
@[simp] theorem ends_bind :
    (a >>= f).Ends s ok₂ failed ↔ a.Ends s (fun x s => (f x).Ends s ok₂ failed) failed := by
  rcases h : a.run s with ⟨out, t, result⟩
  cases result with
  | ok x =>
      rw [ends_of_run_ok h]
      unfold Ends
      rw [run_bind_of_ok h]
  | error e => rw [ends_of_run_error h, ends_of_run_error (run_bind_of_error h)]

@[simp] theorem ends_lastly {g : σ → σ} :
    (a.lastly g).Ends s ok failed ↔
      a.Ends s (fun x s => ok x (g s)) fun e s => failed e (g s) :=
  Iff.rfl

@[simp] theorem ends_onPart {part : σ → τ} {replace : σ → τ → σ} {a : Action τ α} :
    (a.onPart part replace).Ends s ok failed ↔
      a.Ends (part s) (fun x t => ok x (replace s t)) fun e t => failed e (replace s t) :=
  Iff.rfl

/-- A failure that is settled ends as settling it does. -/
@[simp] theorem ends_settling {a : Action σ Unit} {settle : Failure → Action σ Unit}
    {ok : Unit → σ → Prop} :
    (a.settling settle).Ends s ok failed ↔
      a.Ends s ok fun e s => (settle e).Ends s ok failed := by
  rcases h : a.run s with ⟨out, t, result⟩
  cases result with
  | ok x => rw [ends_of_run_ok h, ends_of_run_ok (run_settling_of_ok h)]
  | error e =>
      rw [ends_of_run_error h]
      unfold Ends
      rw [run_settling_of_error h]

theorem ends_iff :
    a.Ends s ok failed ↔
      (∀ x, (a.run s).result = .ok x → ok x (a.run s).state) ∧
        ∀ e, (a.run s).result = .error e → failed e (a.run s).state := by
  rcases h : a.run s with ⟨out, t, result⟩
  cases result with
  | ok x =>
      rw [ends_of_run_ok h]
      simp
  | error e =>
      rw [ends_of_run_error h]
      simp

-- a goal about the end of an action is taken apart by the lemmas, not by running the action
attribute [irreducible] Ends

end Calculator.Action
