import Calculator.Proofs.Machine.Outcome
import Calculator.Proofs.Report.Told
import Calculator.Session

/-!
What a setting decides.  The strategy, the capacity of the stack and whether programs are shown
decide how a tree is run in a session: of the stack only the capacity matters, and of the session
nothing is changed but slots of the stack and the results.
-/
namespace Calculator

namespace Stack

/-- The stack of a capacity before its first use. -/
def unused : Option Nat → Stack
  | none => growing
  | some n => fixed n

theorem holds_unused (c : Option Nat) : (unused c).Holds c [] := by
  cases c with
  | none => exact holds_growing
  | some n => exact holds_fixed n

/-- How a run ends depends on the values that are left only. -/
theorem Holds.finish_snd {s t : Stack} {c c' : Option Nat} {vs : List Float} (hs : s.Holds c vs)
    (ht : t.Holds c' vs) : s.finish.2 = t.finish.2 := by
  match vs with
  | [] => rw [hs.finish_nil, ht.finish_nil]
  | [x] =>
      obtain ⟨u, hu, -⟩ := hs.finish_singleton
      obtain ⟨u', hu', -⟩ := ht.finish_singleton
      rw [hu, hu']
  | x :: y :: vs =>
      have hmany : 1 < (x :: y :: vs).length := by
        simp only [List.length_cons]
        omega
      rw [hs.finish_many hmany, ht.finish_many hmany]

/-- Two stacks of one capacity run a program alike, whatever they held. -/
theorem run_snd_of_capacity {s t : Stack} (hs : s.Valid) (ht : t.Valid)
    (hcapacity : t.capacity = s.capacity) (p : Program) : (s.run p).2 = (t.run p).2 := by
  rcases Program.firstFault_or_none s.capacity p.items with ⟨i, e, hfirst⟩ | hsound
  · obtain ⟨-, u, hrun, -⟩ := run_of_firstFault hs hfirst
    rw [← hcapacity] at hfirst
    obtain ⟨-, u', hrun', -⟩ := run_of_firstFault ht hfirst
    rw [hrun, hrun']
  · obtain ⟨u, hrun, hu, -⟩ := run_of_sound hs hsound
    rw [← hcapacity] at hsound
    obtain ⟨u', hrun', hu', -⟩ := run_of_sound ht hsound
    rw [hrun, hrun']
    exact hu.finish_snd hu'

end Stack

/-- A failure that a line of input can cause; nothing keeps its span from being drawn. -/
inductive Failure.Usual : Failure → Prop where
  | complaint {c : Complaint} (hdrawn : c.report.drawingFault? = none) : Usual (.complaint c)
  | nestsTooDeeply : Usual .nestsTooDeeply

/-- A usual failure is reported. -/
theorem Failure.Usual.exists_report {f : Failure} (h : f.Usual) :
    ∃ report, f.report? = some report ∧ report.drawingFault? = none := by
  cases h with
  | complaint hdrawn => exact ⟨_, rfl, hdrawn⟩
  | nestsTooDeeply => exact ⟨_, rfl, rfl⟩

theorem Failure.Usual.drawn {f : Failure} {report : Report} (h : f.Usual)
    (hreport : f.report? = some report) : report.drawingFault? = none := by
  obtain ⟨report', hreport', hdrawn⟩ := h.exists_report
  rwa [Option.some.inj (hreport'.symm.trans hreport)] at hdrawn

theorem Failure.Usual.ne_internal {f : Failure} (h : f.Usual) (i : Internal) : f ≠ .internal i := by
  rintro rfl
  cases h

namespace Expr

theorem usual_of_parse {source : String} {f : Failure} (h : parse source = .error f) :
    f.Usual := by
  rcases parseWithin_eq_error h with ⟨c, rfl⟩ | ⟨rfl, -⟩
  · exact .complaint (told_of_parse_error h).drawn
  · exact .nestsTooDeeply

/-- A walk over a tree fails in a usual way. -/
theorem usual_of_walk {f : Failure}
    (h : (∃ shown, f = .complaint (.unknownNode shown)) ∨ f = .nestsTooDeeply) : f.Usual := by
  rcases h with ⟨shown, rfl⟩ | rfl
  · exact .complaint (told_unknownNode shown).drawn
  · exact .nestsTooDeeply

theorem usual_of_evaluate {e : Expr} {f : Failure} (h : e.evaluate = .error f) : f.Usual :=
  usual_of_walk (of_evaluate_error h)

theorem usual_of_compile {e : Expr} {f : Failure} (h : e.compile = .error f) : f.Usual :=
  usual_of_walk (of_compile_error h)

end Expr

/-- What the text of a failure is, if it is reported. -/
def Reporter.failureText (r : Reporter) (f : Failure) : String :=
  match f.report? with
  | some report => r.errorText report
  | none => ""

/-- The session with another stack. -/
def Session.withStack (s : Session) (stack : Stack) : Session :=
  { s with stack }

/-- The session with more results. -/
def Session.withResults (s : Session) (results : List String) : Session :=
  { s with results := s.results ++ results }

/-- What is left of a line that was run: a value to warn about, if any, and the result. -/
structure Answer where
  odd? : Option Float
  result : String

/-- The warning that goes with an answer to a text. -/
def Answer.warning (r : Reporter) (text : String) (a : Answer) : String :=
  match a.odd? with
  | some x => r.warningText (Session.notFinite text x)
  | none => ""

/-- Where a line stands, as it is written before a warning. -/
def LogicalLine.place (path : String) (number : Int) : String :=
  path ++ ":" ++ Layout.intText number ++ ": "

/-- The text of the warning that goes with an answer, if it has one. -/
def Answer.warningAt (coloured : Bool) (place text : String) (a : Answer) : String :=
  match a.odd? with
  | some x =>
    Ink.bold.paint coloured place ++ Ink.warning.paint coloured "warning: " ++
      "'" ++ Ink.bold.paint coloured text ++ "' evaluates to " ++
      Ink.bold.paint coloured (Number.text x) ++ "\n"
  | none => ""

/-- A warning names its place and its text, and marks no part of the text. -/
theorem Answer.warning_eq (r : Reporter) (text : String) (a : Answer) :
    a.warning r text = a.warningAt r.coloured r.traceback.location text := by
  rw [warning, warningAt]
  cases a.odd? with
  | none => rfl
  | some x =>
      have hstyled : (Session.notFinite text x).styled r.coloured =
          "'" ++ Ink.bold.paint r.coloured text ++ "' evaluates to " ++
            Ink.bold.paint r.coloured (Number.text x) := by
        have hquote : "' evaluates to " = "'" ++ " evaluates to " := rfl
        simp only [hquote, Report.styled, Session.notFinite, Report.unmarked, Report.onWhole,
          Template.fill, Complaint.quotedSnippet, Piece.fill, List.map_cons,
          List.map_nil, List.cons_append, List.nil_append, List.getElem?_cons_zero,
          List.getElem?_cons_succ, Option.map_some, Option.getD_some, String.join_cons,
          String.join_nil, String.append_empty, String.append_assoc]
      have hunmarked : (Session.notFinite text x).showsDiagnosis = false := by
        simp [Report.showsDiagnosis, Session.notFinite, Report.unmarked]
      simp only [Reporter.warningText, Reporter.diagnosisText, hunmarked, hstyled,
        Bool.false_eq_true, ↓reduceIte, String.append_empty, String.append_assoc]

/-- What decides how a session answers its lines. -/
structure Setting where
  coloured : Bool
  strategy : Strategy
  capacity : Option Nat
  emitting : Bool

namespace Setting

variable (g : Setting)

/-- A stack that the session can have. -/
def Fits (stack : Stack) : Prop :=
  stack.Valid ∧ stack.capacity = g.capacity

/-- The machine's value of a tree, compared with that of walking the tree if asked. -/
def machineValue (compared : Bool) (e : Expr) : Except Failure Float :=
  match e.compile with
  | .error f => .error f
  | .ok p =>
    match ((Stack.unused g.capacity).run p).2 with
    | .error c => .error (.complaint c)
    | .ok machine =>
      if compared then
        match e.evaluate with
        | .error f => .error f
        | .ok tree =>
          if Binary64.identical tree machine then .ok machine
          else .error (Session.disagreement (.expr e) tree machine)
      else .ok machine

/-- Value of a tree by the strategy. -/
def value (e : Expr) : Except Failure Float :=
  match g.strategy with
  | .tree => e.evaluate
  | strategy => g.machineValue (strategy == .both) e

/-- What running the tree of a line prints, and the result that it leaves. -/
def shown (r : Reporter) (text : String) (e : Expr) : String × Except Failure String :=
  if g.emitting then ("", e.compile.map Program.display)
  else
    match g.value e with
    | .ok x =>
      (if Binary64.isFinite x then "" else r.warningText (Session.notFinite text x),
        .ok (Number.text x))
    | .error f => ("", .error f)

/-- What a tree leaves when it is run: its program, or its value with the value to warn about. -/
def answerOf (e : Expr) : Except Failure Answer :=
  if g.emitting then e.compile.map fun p => ⟨none, p.display⟩
  else (g.value e).map fun x => ⟨if Binary64.isFinite x then none else some x, Number.text x⟩

/-- What a line leaves when it is read and run. -/
def lineAnswer (text : String) : Except Failure Answer :=
  Expr.parse text >>= g.answerOf

variable {g} {s : Session} {r : Reporter} {stack : Stack} {text printed : String} {e : Expr}
  {f : Failure}

theorem Fits.run (h : g.Fits stack) (p : Program) : g.Fits (stack.run p).1 := by
  have hrun := h.1.run p
  exact ⟨hrun.valid, hrun.capacity_eq.trans h.2⟩

/-- A program is run as on a stack that was never used. -/
theorem Fits.run_snd (h : g.Fits stack) (p : Program) :
    (stack.run p).2 = ((Stack.unused g.capacity).run p).2 := by
  have hunused := Stack.holds_unused g.capacity
  exact Stack.run_snd_of_capacity h.1 hunused.valid (hunused.capacity_eq.trans h.2.symm) p

theorem fits_unused (g : Setting) : g.Fits (Stack.unused g.capacity) := by
  have hunused := Stack.holds_unused g.capacity
  exact ⟨hunused.valid, hunused.capacity_eq⟩

/-- The setting decides how the session runs trees. -/
structure Governs (g : Setting) (s : Session) : Prop where
  strategy_eq : s.strategy = g.strategy
  emitting_eq : s.emitting = g.emitting
  fits : g.Fits s.stack

theorem run_runProgram (h : g.Governs s) (p : Program) :
    (Session.runProgram p).run s =
      ⟨"", s.withStack (s.stack.run p).1,
        ((Stack.unused g.capacity).run p).2.mapError .complaint⟩ := by
  rw [← h.fits.run_snd p]
  rfl

/-- The machine's part of `Session.execute`. -/
theorem run_machineValue (h : g.Governs s) (compared : Bool) (e : Expr) :
    ∃ t, g.Fits t ∧
      (do
        let p ← Action.ofExcept (Datum.expr e).compile
        let machine ← Session.runProgram p
        if compared then
          let tree ← Action.ofExcept (Datum.expr e).evaluate
          if Binary64.identical tree machine then return machine
          else Action.fail (Session.disagreement (.expr e) tree machine)
        else return machine : Action Session Float).run s =
      ⟨"", s.withStack t, g.machineValue compared e⟩ := by
  have hcompile : (Datum.expr e).compile = e.compile := rfl
  have hevaluate : (Datum.expr e).evaluate = e.evaluate := rfl
  rw [hcompile, hevaluate, machineValue]
  cases e.compile with
  | error f => exact ⟨s.stack, h.fits, rfl⟩
  | ok p =>
      refine ⟨(s.stack.run p).1, h.fits.run p, ?_⟩
      rw [Action.run_bind_of_silent (Action.run_ofExcept (.ok p) _)]
      have hrun := run_runProgram h p
      cases hresult : ((Stack.unused g.capacity).run p).2 with
      | error c =>
          rw [hresult] at hrun
          rw [Action.run_bind_of_error hrun]
          simp only [hresult]
      | ok machine =>
          rw [hresult] at hrun
          rw [Action.run_bind_of_silent hrun]
          simp only [hresult]
          cases compared with
          | false => rfl
          | true =>
              cases e.evaluate with
              | error f => rfl
              | ok tree =>
                  simp only [↓reduceIte]
                  rw [Action.run_bind_of_silent (Action.run_ofExcept (.ok tree) _)]
                  by_cases hidentical : Binary64.identical tree machine = true
                  · simp only [if_pos hidentical]
                    rfl
                  · simp only [if_neg hidentical]
                    rfl

/-- The strategy decides the value of a tree; of the session only slots of the stack change. -/
theorem run_execute (h : g.Governs s) (e : Expr) :
    ∃ t, g.Fits t ∧
      (Session.execute (.expr e)).run s = ⟨"", s.withStack t, g.value e⟩ := by
  rw [Session.execute, Action.run_bind_of_silent (Action.run_get _), value, h.strategy_eq]
  cases g.strategy with
  | tree => exact ⟨s.stack, h.fits, rfl⟩
  | vm => exact run_machineValue h false e
  | both => exact run_machineValue h true e
  | unlisted name => exact run_machineValue h false e

theorem usual_of_machineValue {compared : Bool} (h : g.machineValue compared e = .error f) :
    f.Usual := by
  rw [machineValue] at h
  split at h
  · rename_i hcompile
    obtain rfl := Except.error.inj h
    exact Expr.usual_of_compile hcompile
  · split at h
    · rename_i hrun
      obtain rfl := Except.error.inj h
      exact .complaint (Stack.told_of_run hrun).drawn
    · split at h
      · split at h
        · rename_i hevaluate
          obtain rfl := Except.error.inj h
          exact Expr.usual_of_evaluate hevaluate
        · split at h
          · cases h
          · obtain rfl := Except.error.inj h
            exact .complaint (Report.drawingFault?_of_internal rfl)
      · cases h

theorem usual_of_value (h : g.value e = .error f) : f.Usual := by
  rw [value] at h
  split at h
  · exact Expr.usual_of_evaluate h
  · exact usual_of_machineValue h

theorem usual_of_shown (h : g.shown r text e = (printed, .error f)) : f.Usual := by
  rw [shown] at h
  split at h
  · cases hcompile : e.compile with
    | error f' =>
        rw [hcompile] at h
        obtain rfl := Except.error.inj (Prod.mk.inj h).2
        exact Expr.usual_of_compile hcompile
    | ok p =>
        rw [hcompile] at h
        cases (Prod.mk.inj h).2
  · split at h
    · cases (Prod.mk.inj h).2
    · rename_i hvalue
      obtain rfl := Except.error.inj (Prod.mk.inj h).2
      exact usual_of_value hvalue

/-- What the reporter does is done in the session. -/
theorem run_reporting {α : Type} {a : Action Reporter α} {answer : Except Failure α}
    (h : a.run s.reporter = ⟨printed, r, answer⟩) :
    (Session.reporting a).run s = ⟨printed, { s with reporter := r }, answer⟩ :=
  Action.run_onPart h

theorem withResults_nil (s : Session) : s.withResults [] = s := by
  rw [Session.withResults, List.append_nil]

/-- A value is added as a result, after a warning if it is not finite. -/
theorem run_record (text : String) (x : Float) (s : Session) :
    (Session.record text x).run s =
      ⟨if Binary64.isFinite x then "" else s.reporter.warningText (Session.notFinite text x),
        s.withResults [Number.text x], .ok ()⟩ := by
  rw [Session.record]
  cases Binary64.isFinite x with
  | true => rfl
  | false =>
      have hwarn : (Reporter.warn (Session.notFinite text x)).run s.reporter =
          ⟨s.reporter.warningText (Session.notFinite text x), s.reporter, .ok ()⟩ := by
        have hdrawn : (Session.notFinite text x).drawingFault? = none :=
          Report.drawingFault?_unmarked _ _
        rw [Reporter.warn, Action.run_bind_of_silent (Action.run_get _)]
        simp only [hdrawn]
        rfl
      simp only [Bool.not_false, ↓reduceIte]
      rw [Action.run_bind_of_ok (run_reporting hwarn)]
      simp only [Session.addResult, Action.run_modify, String.append_empty, Bool.false_eq_true,
        ↓reduceIte]
      rfl

/-- Running the tree of a line shows what the setting says. -/
theorem run_runTree (h : g.Governs s) (text : String) (e : Expr) :
    ∃ t, g.Fits t ∧ (Session.runTree text e).run s =
      ⟨(g.shown s.reporter text e).1,
        (s.withStack t).withResults (g.shown s.reporter text e).2.toOption.toList,
        (g.shown s.reporter text e).2.map fun _ => ()⟩ := by
  rw [Session.runTree, Action.run_bind_of_silent (Action.run_get _), h.emitting_eq, shown]
  by_cases hemit : g.emitting = true
  · simp only [if_pos hemit]
    refine ⟨s.stack, h.fits, ?_⟩
    cases e.compile with
    | error f =>
        rw [Action.run_bind_of_error (Action.run_ofExcept _ _)]
        simp only [Except.map, Except.toOption, Option.toList, withResults_nil]
        rfl
    | ok p =>
        rw [Action.run_bind_of_silent (Action.run_ofExcept _ _)]
        rfl
  · simp only [if_neg hemit]
    obtain ⟨t, ht, hexecute⟩ := run_execute h e
    refine ⟨t, ht, ?_⟩
    cases hvalue : g.value e with
    | error f =>
        rw [hvalue] at hexecute
        rw [Action.run_bind_of_error hexecute]
        simp only [Except.map, Except.toOption, Option.toList, withResults_nil]
    | ok x =>
        rw [hvalue] at hexecute
        rw [Action.run_bind_of_silent hexecute, run_record]
        rfl

/-- What is shown of a tree are the warning and the result of its answer. -/
theorem shown_eq (r : Reporter) (text : String) (e : Expr) :
    g.shown r text e =
      match g.answerOf e with
      | .ok a => (a.warning r text, .ok a.result)
      | .error f => ("", .error f) := by
  rw [shown, answerOf]
  by_cases hemit : g.emitting = true
  · rw [if_pos hemit, if_pos hemit]
    cases e.compile with
    | error f => rfl
    | ok p => rfl
  · rw [if_neg hemit, if_neg hemit]
    cases g.value e with
    | error f => rfl
    | ok x =>
        change (if Binary64.isFinite x then "" else r.warningText (Session.notFinite text x), _) = _
        cases hfinite : Binary64.isFinite x with
        | true => simp [Except.map, Answer.warning, hfinite]
        | false => simp [Except.map, Answer.warning, hfinite]

/-- Running the tree of a line leaves its answer, or it fails. -/
theorem run_runTree_answerOf (h : g.Governs s) (text : String) (e : Expr) :
    ∃ t, g.Fits t ∧ (Session.runTree text e).run s =
      match g.answerOf e with
      | .ok a => ⟨a.warning s.reporter text, (s.withStack t).withResults [a.result], .ok ()⟩
      | .error f => ⟨"", s.withStack t, .error f⟩ := by
  obtain ⟨t, ht, hrun⟩ := run_runTree h text e
  refine ⟨t, ht, hrun.trans ?_⟩
  rw [shown_eq]
  cases g.answerOf e with
  | ok a => rfl
  | error f =>
      simp only [Except.map, Except.toOption, Option.toList, withResults_nil]

theorem usual_of_answerOf (h : g.answerOf e = .error f) : f.Usual := by
  have hshown := shown_eq (g := g) ⟨true, false, []⟩ "" e
  rw [h] at hshown
  exact usual_of_shown hshown

theorem usual_of_lineAnswer (h : g.lineAnswer text = .error f) : f.Usual := by
  rw [lineAnswer] at h
  cases hparse : Expr.parse text with
  | error f' =>
      rw [hparse] at h
      obtain rfl := Except.error.inj h
      exact Expr.usual_of_parse hparse
  | ok e =>
      rw [hparse] at h
      exact usual_of_answerOf h

end Setting

end Calculator
