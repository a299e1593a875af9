import Calculator.Failure

/-!
Actions. An action changes a state, prints, and ends with an answer or a failure; what it did to
the state and what it printed before a failure stay.
-/
namespace Calculator

/-- What an action leaves. -/
structure Outcome (σ α : Type) where
  printed : String
  state : σ
  result : Except Failure α

/-- A step of the calculator on states of type `σ`. -/
def Action (σ α : Type) : Type :=
  σ → Outcome σ α

namespace Action

variable {σ τ α β : Type}

def run (a : Action σ α) (s : σ) : Outcome σ α := a s

/-- Answers without doing anything. -/
def done (x : α) : Action σ α := fun s => ⟨"", s, .ok x⟩

/-- Does `a`, then what its answer asks for. -/
def andThen (a : Action σ α) (f : α → Action σ β) : Action σ β := fun s =>
  match a s with
  | ⟨out, s, .ok x⟩ =>
    let next := f x s
    ⟨out ++ next.printed, next.state, next.result⟩
  | ⟨out, s, .error e⟩ => ⟨out, s, .error e⟩

instance : Monad (Action σ) where
  pure := done
  bind := andThen

def printLine (s : String) : Action σ Unit := fun st => ⟨s ++ "\n", st, .ok ()⟩

/-- Prints a text that does not end the line. -/
def print (s : String) : Action σ Unit := fun st => ⟨s, st, .ok ()⟩

def get : Action σ σ := fun s => ⟨"", s, .ok s⟩

def modify (f : σ → σ) : Action σ Unit := fun s => ⟨"", f s, .ok ()⟩

def fail (e : Failure) : Action σ α := fun s => ⟨"", s, .error e⟩

/-- Gives an answer or fails, as `r` does. -/
def ofExcept (r : Except Failure α) : Action σ α := fun s => ⟨"", s, r⟩

def complain (c : Complaint) : Action σ α := fail (.complaint c)

/-- Does an action on a part of the state. -/
def onPart (part : σ → τ) (replace : σ → τ → σ) (a : Action τ α) : Action σ α := fun s =>
  let o := a (part s)
  ⟨o.printed, replace s o.state, o.result⟩

/-- Does `a` and then changes the state, whether `a` failed or not. -/
def lastly (a : Action σ α) (f : σ → σ) : Action σ α := fun s =>
  let o := a s
  ⟨o.printed, f o.state, o.result⟩

/-- Does `a`; if it fails, does what `settle` says about the failure instead of failing. -/
def settling (a : Action σ Unit) (settle : Failure → Action σ Unit) : Action σ Unit := fun s =>
  match a s with
  | ⟨out, s, .ok ()⟩ => ⟨out, s, .ok ()⟩
  | ⟨out, s, .error e⟩ =>
    let next := settle e s
    ⟨out ++ next.printed, next.state, next.result⟩

/-- Doing one thing after another does not depend on how the steps are grouped. -/
instance : LawfulMonad (Action σ) := LawfulMonad.mk' (Action σ)
  (fun a => by
    funext s
    change andThen a (fun x => done x) s = a s
    unfold andThen
    split <;> simp_all [done])
  (fun x f => by
    funext s
    change andThen (done x) f s = f x s
    simp [andThen, done])
  (fun a f g => by
    funext s
    change andThen (andThen a f) g s = andThen a (fun x => andThen (f x) g) s
    unfold andThen
    cases h : a s with
    | mk out s' r =>
      cases r with
      | error e => rfl
      | ok x =>
        cases h' : f x s' with
        | mk out' s'' r' => cases r' <;> simp [h', String.append_assoc])

@[simp] theorem run_pure (x : α) (s : σ) : run (pure x) s = ⟨"", s, .ok x⟩ := rfl

@[simp] theorem run_fail (e : Failure) (s : σ) : run (fail e : Action σ α) s = ⟨"", s, .error e⟩ :=
  rfl

@[simp] theorem run_get (s : σ) : run get s = ⟨"", s, .ok s⟩ := rfl

@[simp] theorem run_ofExcept (r : Except Failure α) (s : σ) : run (ofExcept r) s = ⟨"", s, r⟩ :=
  rfl

@[simp] theorem run_printLine (out : String) (s : σ) :
    run (printLine out) s = ⟨out ++ "\n", s, .ok ()⟩ := rfl

@[simp] theorem run_modify (f : σ → σ) (s : σ) : run (modify f) s = ⟨"", f s, .ok ()⟩ := rfl

@[simp] theorem run_lastly (a : Action σ α) (f : σ → σ) (s : σ) :
    run (a.lastly f) s = ⟨(run a s).printed, f (run a s).state, (run a s).result⟩ := rfl

/-- An action that answers goes on with its answer. -/
theorem run_bind_of_ok {a : Action σ α} {f : α → Action σ β} {s s' : σ} {out : String} {x : α}
    (h : run a s = ⟨out, s', .ok x⟩) :
    run (a >>= f) s = ⟨out ++ (run (f x) s').printed, (run (f x) s').state,
      (run (f x) s').result⟩ := by
  change andThen a f s = _
  unfold andThen
  rw [show a s = ⟨out, s', .ok x⟩ from h]
  rfl

/-- A step that prints nothing leaves all printing to what follows. -/
theorem run_bind_of_silent {a : Action σ α} {f : α → Action σ β} {s s' : σ} {x : α}
    (h : run a s = ⟨"", s', .ok x⟩) : run (a >>= f) s = run (f x) s' := by
  rw [run_bind_of_ok h, String.empty_append]

/-- An answer of one's own after a step. -/
theorem run_bind_pure {a : Action σ α} {s s' : σ} {out : String} {x : α}
    (h : run a s = ⟨out, s', .ok x⟩) (y : β) :
    run (a >>= fun _ => pure y) s = ⟨out, s', .ok y⟩ := by
  rw [run_bind_of_ok h, run_pure, String.append_empty]

/-- An action that fails does not go on. -/
theorem run_bind_of_error {a : Action σ α} {f : α → Action σ β} {s s' : σ} {out : String}
    {e : Failure} (h : run a s = ⟨out, s', .error e⟩) :
    run (a >>= f) s = ⟨out, s', .error e⟩ := by
  change andThen a f s = _
  unfold andThen
  rw [show a s = ⟨out, s', .error e⟩ from h]

/-- There is nothing to settle if an action does not fail. -/
theorem run_settling_of_ok {a : Action σ Unit} {settle : Failure → Action σ Unit} {s s' : σ}
    {out : String} (h : run a s = ⟨out, s', .ok ()⟩) :
    run (a.settling settle) s = ⟨out, s', .ok ()⟩ := by
  change settling a settle s = _
  unfold settling
  rw [show a s = ⟨out, s', .ok ()⟩ from h]

/-- A failure is settled in the state that it leaves. -/
theorem run_settling_of_error {a : Action σ Unit} {settle : Failure → Action σ Unit} {s s' : σ}
    {out : String} {e : Failure} (h : run a s = ⟨out, s', .error e⟩) :
    run (a.settling settle) s = ⟨out ++ (run (settle e) s').printed,
      (run (settle e) s').state, (run (settle e) s').result⟩ := by
  change settling a settle s = _
  unfold settling
  rw [show a s = ⟨out, s', .error e⟩ from h]
  rfl

/-- What an action does to a part is done to the whole. -/
theorem run_onPart {part : σ → τ} {replace : σ → τ → σ} {a : Action τ α} {s : σ} {t : τ}
    {out : String} {r : Except Failure α} (h : run a (part s) = ⟨out, t, r⟩) :
    run (a.onPart part replace) s = ⟨out, replace s t, r⟩ := by
  change (⟨(run a (part s)).printed, replace s (run a (part s)).state,
    (run a (part s)).result⟩ : Outcome σ α) = _
  rw [h]

end Action

end Calculator
