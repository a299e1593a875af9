import Calculator.Proofs.Report.Settling
import Calculator.Proofs.Session.Setting
import Calculator.Shell

/-!
Interactive sessions between two lines.  Such a session is made of a setting and a stack, and of
the stack only the capacity matters: nothing is queued, no result is left to show and no line is
in work.  Each action of a session is described here on such sessions, as a text that the setting
decides and a session of the same setting.
-/
namespace Calculator

namespace Setting

variable (g : Setting)

/-- The reporter while a line is in work, or while none is. -/
def reporter (line : Option String) (number : Option Int) : Reporter :=
  ⟨false, g.coloured, [⟨Session.interactivePath, line, number⟩]⟩

/-- An interactive session of the setting. -/
def session (r : Reporter) (stack : Stack) (queue : List QueuedExpr) (results : List String) :
    Session :=
  { reporter := r, path := Session.interactivePath, strategy := g.strategy, interactive := true,
    assembly := false, emitting := g.emitting, stack, queue, records := [], results }

/-- What a line prints and how it ends, before a failure is reported. -/
def lineResult (text : String) (number : Nat) : String × Except Failure Unit :=
  match Expr.parse text with
  | .error f => ("", .error f)
  | .ok e =>
    match g.shown (g.reporter (some text) (some number)) text e with
    | (printed, .ok result) => (printed ++ (result ++ "\n"), .ok ())
    | (printed, .error f) => (printed, .error f)

/-- What a line prints, with the report of its failure. -/
def answer (text : String) (number : Nat) : String :=
  match g.lineResult text number with
  | (printed, .ok ()) => printed
  | (printed, .error f) => printed ++ (g.reporter (some text) (some number)).failureText f

variable {g} {stack : Stack} {text : String} {e : Expr} {f : Failure}

theorem governs_session (h : g.Fits stack) (r : Reporter) (queue : List QueuedExpr)
    (results : List String) : g.Governs (g.session r stack queue results) :=
  ⟨rfl, rfl, h⟩

/-- A usual failure is reported, and then no line is in work. -/
theorem run_settle (h : f.Usual) (line : Option String) (number : Option Int) :
    (Reporter.settle f).run (g.reporter line number) =
      ⟨(g.reporter line number).failureText f, g.reporter none none, .ok ()⟩ := by
  obtain ⟨report, hreport, hdrawn⟩ := h.exists_report
  rw [Reporter.failureText, hreport]
  exact Reporter.run_settle_of_not_fatal rfl hreport hdrawn h.ne_internal

/-- While a line is in work its place is the only one of the traceback. -/
theorem run_registerLine (text : String) (number : Int) (line : Option String)
    (number' : Option Int) (stack : Stack) (queue : List QueuedExpr) (results : List String) :
    (Session.registerLine text number).run
      (g.session (g.reporter line number') stack queue results) =
      ⟨"", g.session (g.reporter (some text) (some number)) stack queue results, .ok ()⟩ := by
  rfl

theorem run_removeLine (line : Option String) (number : Option Int) (stack : Stack)
    (queue : List QueuedExpr) (results : List String) :
    Session.removeLine.run (g.session (g.reporter line number) stack queue results) =
      ⟨"", g.session (g.reporter none none) stack queue results, .ok ()⟩ := by
  rfl

theorem dequeue_session (text : String) (number : Int) (e : Expr) (r : Reporter) (stack : Stack)
    (results : List String) :
    (g.session r stack [⟨number, text, e⟩] results).dequeue number =
      g.session r stack [] results := by
  simp [Session.dequeue, session]

/-- A queued line is run and leaves the queue; it stays in work if it fails. -/
theorem run_runQueued (h : g.Fits stack) (text : String) (number : Int) (e : Expr) :
    ∃ t, g.Fits t ∧ (Session.runQueued ⟨number, text, e⟩).run
        (g.session (g.reporter none none) stack [⟨number, text, e⟩] []) =
      match g.shown (g.reporter (some text) (some number)) text e with
      | (printed, .ok result) =>
        ⟨printed, g.session (g.reporter none none) t [] [result], .ok ()⟩
      | (printed, .error f) =>
        ⟨printed, g.session (g.reporter (some text) (some number)) t [] [], .error f⟩ := by
  rw [Session.runQueued, Action.run_bind_of_silent (run_registerLine text number _ _ _ _ _),
    Action.run_bind_of_silent (Action.run_get _)]
  obtain ⟨t, ht, hrun⟩ := run_runTree
    (governs_session h (g.reporter (some text) (some number)) [⟨number, text, e⟩] []) text e
  refine ⟨t, ht, ?_⟩
  have hlastly : ((Session.runTree text e).lastly fun s' =>
        if (g.session (g.reporter (some text) (some number)) stack [⟨number, text, e⟩]
          []).interactive then s'.dequeue number else s').run
      (g.session (g.reporter (some text) (some number)) stack [⟨number, text, e⟩] []) =
      ⟨(g.shown (g.reporter (some text) (some number)) text e).1,
        g.session (g.reporter (some text) (some number)) t []
          (g.shown (g.reporter (some text) (some number)) text e).2.toOption.toList,
        (g.shown (g.reporter (some text) (some number)) text e).2.map fun _ => ()⟩ := by
    rw [Action.run_lastly, hrun, ← dequeue_session text number e]
    rfl
  cases hshown : g.shown (g.reporter (some text) (some number)) text e with
  | mk printed answer =>
      rw [hshown] at hlastly
      cases answer with
      | error f =>
          rw [Action.run_bind_of_error hlastly]
          rfl
      | ok result =>
          rw [Action.run_bind_of_ok hlastly, run_removeLine]
          simp only [String.append_empty]
          rfl

/-- A line is read before it is queued; it stays in work if it cannot be. -/
theorem run_add (text : String) (number : Int) (stack : Stack) :
    (Session.add text number).run (g.session (g.reporter none none) stack [] []) =
      match Expr.parse text with
      | .ok e =>
        ⟨"", g.session (g.reporter none none) stack [⟨number, text, e⟩] [], .ok ()⟩
      | .error f =>
        ⟨"", g.session (g.reporter (some text) (some number)) stack [] [], .error f⟩ := by
  rw [Session.add, Action.run_bind_of_silent (run_registerLine text number _ _ _ _ _),
    Action.run_bind_of_silent (Action.run_get _)]
  have haccept : (g.session (g.reporter (some text) (some number)) stack [] []).accept text number =
      (Expr.parse text).map fun tree =>
        g.session (g.reporter (some text) (some number)) stack [⟨number, text, tree⟩] [] := rfl
  rw [haccept]
  cases Expr.parse text with
  | error f => rfl
  | ok e => rfl

/-- What a line with a parsed expression does. -/
theorem run_run (h : g.Fits stack) (text : String) (number : Int) (e : Expr) :
    ∃ t, g.Fits t ∧ Session.run.run
        (g.session (g.reporter none none) stack [⟨number, text, e⟩] []) =
      match g.shown (g.reporter (some text) (some number)) text e with
      | (printed, .ok result) =>
        ⟨printed, g.session (g.reporter none none) t [] [result], .ok ()⟩
      | (printed, .error f) =>
        ⟨printed, g.session (g.reporter (some text) (some number)) t [] [], .error f⟩ := by
  obtain ⟨t, ht, hrun⟩ := run_runQueued h text number e
  refine ⟨t, ht, ?_⟩
  rw [Session.run, Action.run_bind_of_silent (Action.run_get _)]
  change (Session.runQueued ⟨number, text, e⟩ >>= fun _ => pure ()).run _ = _
  cases hshown : g.shown (g.reporter (some text) (some number)) text e with
  | mk printed answer =>
      rw [hshown] at hrun
      cases answer with
      | error f => exact Action.run_bind_of_error hrun
      | ok result =>
          rw [Action.run_bind_of_ok hrun]
          simp only [Action.run_pure, String.append_empty]

theorem usual_of_lineResult {number : Nat} (h : (g.lineResult text number).2 = .error f) :
    f.Usual := by
  rw [lineResult] at h
  split at h
  · rename_i hparse
    obtain rfl := Except.error.inj h
    exact Expr.usual_of_parse hparse
  · split at h
    · cases h
    · rename_i hshown
      obtain rfl := Except.error.inj h
      exact usual_of_shown hshown

/-- A line is answered as the setting says. If it fails, it stays in work. -/
theorem run_runLine (h : g.Fits stack) (text : String) (number : Nat) :
    ∃ t, g.Fits t ∧
      (Shell.runLine text number).run (g.session (g.reporter none none) stack [] []) =
      match g.lineResult text number with
      | (printed, .ok ()) => ⟨printed, g.session (g.reporter none none) t [] [], .ok ()⟩
      | (printed, .error f) =>
        ⟨printed, g.session (g.reporter (some text) (some number)) t [] [], .error f⟩ := by
  have hadd := run_add (g := g) text number stack
  rw [Shell.runLine, lineResult]
  cases hparse : Expr.parse text with
  | error f =>
      rw [hparse] at hadd
      exact ⟨stack, h, Action.run_bind_of_error hadd⟩
  | ok e =>
      rw [hparse] at hadd
      rw [Action.run_bind_of_silent hadd]
      obtain ⟨t, ht, hrun⟩ := run_run h text number e
      refine ⟨t, ht, ?_⟩
      cases hshown : g.shown (g.reporter (some text) (some number)) text e with
      | mk printed answer =>
          rw [hshown] at hrun
          cases answer with
          | error f =>
              simp only [hshown]
              exact Action.run_bind_of_error hrun
          | ok result =>
              have hlatest : (do
                    let s ← Action.get
                    if !s.results.isEmpty then
                      let result ← Session.popResult
                      Action.printLine result : Action Session Unit).run
                  (g.session (g.reporter none none) t [] [result]) =
                  ⟨result ++ "\n", g.session (g.reporter none none) t [] [], .ok ()⟩ := by
                have hpop : Session.popResult.run
                    (g.session (g.reporter none none) t [] [result]) =
                    ⟨"", g.session (g.reporter none none) t [] [], .ok result⟩ := rfl
                rw [Action.run_bind_of_silent (Action.run_get _)]
                change (Session.popResult >>= Action.printLine).run _ = _
                rw [Action.run_bind_of_silent hpop]
                rfl
              rw [Action.run_bind_of_ok hrun, hlatest]
              simp only [hshown]

end Setting

end Calculator
