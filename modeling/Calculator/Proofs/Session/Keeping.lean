import Calculator.Proofs.Action.Ending
import Calculator.Proofs.Session.Mistakes
import Calculator.Proofs.Session.Starting

/-!
What sessions keep.  Reading and running lines changes only some of a session, and fails with
mistakes only; so whatever is true of a session and does not depend on what changes stays true,
however reading and running end.
-/
namespace Calculator.Session

open Failure (Mistake mistake_complaint)

variable {P : Session → Prop} {Q : Failure → Prop} {s : Session} {text : String} {number : Int}
  {f : Failure} {files : Files} {α β : Type}

/-- However the action ends, what is true of the session stays true; and only such failures end
it. -/
def Keeps (P : Session → Prop) (Q : Failure → Prop) (a : Action Session α) : Prop :=
  ∀ s, P s → a.Ends s (fun _ => P) fun f s' => Q f ∧ P s'

theorem Keeps.state {a : Action Session α} (h : Keeps P Q a) (hs : P s) : P (a.run s).state := by
  obtain ⟨hok, hfailed⟩ := Action.ends_iff.mp (h s hs)
  cases hresult : (a.run s).result with
  | ok x => exact hok x hresult
  | error e => exact (hfailed e hresult).2

theorem Keeps.bind {a : Action Session α} {b : α → Action Session β} (ha : Keeps P Q a)
    (hb : ∀ x, Keeps P Q (b x)) : Keeps P Q (a >>= b) := by
  intro s hs
  rw [Action.ends_bind]
  exact (ha s hs).mono (fun x s' hs' => hb x s' hs') fun _ _ hfailed => hfailed

theorem Keeps.weaken {Q' : Failure → Prop} {a : Action Session α} (h : Keeps P Q a)
    (hQ : ∀ f, Q f → Q' f) : Keeps P Q' a :=
  fun s hs => (h s hs).mono (fun _ _ hs' => hs') fun f _ hfailed => ⟨hQ f hfailed.1, hfailed.2⟩

theorem keeps_pure (x : α) : Keeps P Q (pure x) := by
  intro s hs
  rwa [Action.ends_pure]

theorem keeps_fail (hf : Q f) : Keeps P Q (Action.fail f : Action Session α) := by
  intro s hs
  rw [Action.ends_fail]
  exact ⟨hf, hs⟩

theorem keeps_get : Keeps P Q Action.get := by
  intro s hs
  rwa [Action.ends_get]

theorem keeps_ofExcept {r : Except Failure α} (h : ∀ f, r = .error f → Q f) :
    Keeps P Q (Action.ofExcept r) := by
  intro s hs
  rw [Action.ends_ofExcept]
  exact ⟨fun _ _ => hs, fun f hf => ⟨h f hf, hs⟩⟩

theorem keeps_modify {g : Session → Session} (h : ∀ s, P s → P (g s)) :
    Keeps P Q (Action.modify g) := by
  intro s hs
  rw [Action.ends_modify]
  exact h s hs

/-- What is true of a session does not depend on what changes when lines are read and run, and of
the stack it says that it is well kept. -/
structure Lasting (P : Session → Prop) : Prop where
  valid : ∀ s, P s → s.stack.Valid
  withReporter : ∀ s r, r.fatal = s.reporter.fatal → P s → P { s with reporter := r }
  withStack : ∀ s t, t.Valid → P s → P (s.withStack t)
  withResults : ∀ s results, P s → P (s.withResults results)
  dequeue : ∀ s number, P s → P (s.dequeue number)
  accept : ∀ s text number s', s.accept text number = .ok s' → P s → P s'

/-! ### Reading lines -/

/-- A line that is accepted joins the records of a listing, or the queue. -/
theorem accept_cases {s' : Session} (h : s.accept text number = .ok s') :
    (s.assembly = true ∧ ∃ r i, Record.instr r.toDatum = .ok i ∧
      s' = { s with records := s.records ++ [r] }) ∨
    (s.assembly = false ∧ ∃ tree,
      s' = { s with queue := enqueue ⟨number, text, tree⟩ s.queue }) := by
  unfold accept at h
  split at h
  · rename_i hassembly
    split at h
    · cases h
    · rename_i r _
      split at h
      · cases h
      · rename_i i hinstr
        exact .inl ⟨hassembly, r, i, hinstr, (Except.ok.inj h).symm⟩
  · rename_i hassembly
    refine .inr ⟨Bool.eq_false_iff.mpr hassembly, ?_⟩
    cases hparse : Expr.parse text with
    | error f =>
        rw [hparse] at h
        cases h
    | ok tree =>
        rw [hparse] at h
        exact ⟨tree, (Except.ok.inj h).symm⟩

/-- A line that is not accepted cannot be parsed, or it is no instruction and a complaint says
why. -/
theorem accept_eq_error (h : s.accept text number = .error f) :
    Expr.parse text = .error f ∨ ∃ c, f = .complaint c ∧ c.Told := by
  unfold accept at h
  split at h
  · split at h
    · rename_i c hrecord
      exact .inr ⟨c, (Except.error.inj h).symm, Record.told_of_ofLine hrecord⟩
    · split at h
      · rename_i c hinstr
        exact .inr ⟨c, (Except.error.inj h).symm, Record.told_of_instr hinstr⟩
      · cases h
  · exact .inl (eq_error_of_map h)

theorem mistake_of_accept (h : s.accept text number = .error f) : f.Mistake := by
  rcases accept_eq_error h with hparse | ⟨c, rfl, htold⟩
  · exact Expr.mistake_of_parse hparse
  · exact mistake_complaint htold

theorem Lasting.keeps_registerLine (h : Lasting P) (text : String) (number : Int) :
    Keeps P Q (registerLine text number) :=
  keeps_modify fun s => h.withReporter s _ rfl

theorem Lasting.keeps_removeLine (h : Lasting P) : Keeps P Q removeLine :=
  keeps_modify fun s => h.withReporter s _ rfl

theorem Lasting.keeps_add (h : Lasting P) (text : String) (number : Int) :
    Keeps P Mistake (add text number) := by
  refine (h.keeps_registerLine text number).bind fun _ => ?_
  intro s hs
  rw [Action.ends_bind, Action.ends_get, Action.ends_bind, Action.ends_ofExcept]
  refine ⟨?_, fun f hf => ⟨mistake_of_accept hf, hs⟩⟩
  intro s' haccept
  rw [Action.ends_bind, Action.ends_modify]
  exact h.keeps_removeLine s' (h.accept s text number s' haccept hs)

theorem Lasting.keeps_addAll (h : Lasting P) (ls : List LogicalLine) :
    Keeps P Mistake (addAll ls) := by
  induction ls with
  | nil => exact keeps_pure ()
  | cons l ls ih => exact (h.keeps_add _ _).bind fun _ => ih

/-- The input of a session is read, unless the file cannot be. -/
theorem Lasting.ends_load (h : Lasting P) (files : Files) (hs : P s) :
    (load files).Ends s (fun _ => P) fun f s' =>
      (f.Mistake ∨ s.path ≠ interactivePath ∧ readFile files s.path = .error f) ∧ P s' := by
  rw [load, Action.ends_bind, Action.ends_get]
  split
  · rename_i hpath
    rw [Action.ends_bind, Action.ends_ofExcept]
    constructor
    · intro ls _
      exact (h.keeps_addAll ls s hs).mono (fun _ _ hs' => hs') fun _ _ hfailed =>
        ⟨.inl hfailed.1, hfailed.2⟩
    · intro f hf
      rw [readLogicalLines_eq] at hf
      exact ⟨.inr ⟨by simpa using hpath, eq_error_of_map hf⟩, hs⟩
  · split
    · rw [Action.ends_complain]
      exact ⟨.inl (mistake_complaint (Complaint.told_of_not_diagnosed rfl rfl)), hs⟩
    · rwa [Action.ends_pure]

/-! ### Running lines -/

theorem Lasting.keeps_addResult (h : Lasting P) (result : String) :
    Keeps P Q (addResult result) :=
  keeps_modify fun s => h.withResults s [result]

theorem Lasting.keeps_record (h : Lasting P) (text : String) (x : Float) :
    Keeps P Q (record text x) := by
  intro s hs
  rw [Action.ends_of_run_ok (Setting.run_record text x s)]
  exact h.withResults s _ hs

theorem Lasting.keeps_runTree (h : Lasting P) (text : String) (e : Expr) :
    Keeps P Mistake (runTree text e) := by
  intro s hs
  have hgoverns := Setting.governs_ofSession (h.valid s hs)
  obtain ⟨t, ht, hrun⟩ := Setting.run_runTree_answerOf hgoverns text e
  have hkept := h.withStack s t ht.1 hs
  cases hanswer : (Setting.ofSession s).answerOf e with
  | ok a =>
      rw [hanswer] at hrun
      rw [Action.ends_of_run_ok hrun]
      exact h.withResults _ _ hkept
  | error f =>
      rw [hanswer] at hrun
      rw [Action.ends_of_run_error hrun]
      exact ⟨Setting.mistake_of_answerOf hanswer, hkept⟩

theorem Lasting.keeps_runQueued (h : Lasting P) (q : QueuedExpr) :
    Keeps P Mistake (runQueued q) := by
  refine (h.keeps_registerLine _ _).bind fun _ => keeps_get.bind fun s => Keeps.bind ?_ fun _ =>
    h.keeps_removeLine
  intro s' hs'
  have hdequeue : ∀ t : Session, P t → P (if s.interactive then t.dequeue q.number else t) := by
    intro t ht
    split
    · exact h.dequeue t _ ht
    · exact ht
  rw [Action.ends_lastly]
  -- the expression is taken off the queue also when it fails
  exact (h.keeps_runTree q.text q.tree s' hs').mono (fun _ t ht => hdequeue t ht)
    fun _ t ht => ⟨ht.1, hdequeue t ht.2⟩

theorem Lasting.keeps_runAll (h : Lasting P) (qs : List QueuedExpr) :
    Keeps P Mistake (runAll qs) := by
  induction qs with
  | nil => exact keeps_pure ()
  | cons q qs ih => exact (h.keeps_runQueued q).bind fun _ => ih

theorem mistake_of_mapError {r : Except Complaint α}
    (htold : ∀ c, r = .error c → c.Told)
    (h : r.mapError Failure.complaint = .error f) : f.Mistake := by
  cases r with
  | ok x => cases h
  | error c =>
      obtain rfl := Except.error.inj h
      exact mistake_complaint (htold c rfl)

theorem Lasting.keeps_runProgram (h : Lasting P) (p : Program) :
    Keeps P Mistake (runProgram p) := by
  intro s hs
  have hkept : P (s.withStack (s.stack.run p).1) :=
    h.withStack s _ ((h.valid s hs).run p).valid hs
  refine Action.ends_iff.mpr ⟨fun _ _ => hkept, ?_⟩
  intro f hf
  exact ⟨mistake_of_mapError (fun c => Stack.told_of_run) hf, hkept⟩

theorem Lasting.keeps_runListing (h : Lasting P) : Keeps P Mistake runListing := by
  refine keeps_get.bind fun s => (keeps_ofExcept ?_).bind fun p => ?_
  · exact fun f => mistake_of_mapError fun c => Program.told_of_ofRecords
  · split
    · exact h.keeps_addResult _
    · exact (h.keeps_runProgram p).bind fun x => h.keeps_record _ x

theorem Lasting.keeps_run (h : Lasting P) : Keeps P Mistake run := by
  refine keeps_get.bind fun s => ?_
  split
  · exact h.keeps_runListing
  · exact h.keeps_runAll _

end Calculator.Session
