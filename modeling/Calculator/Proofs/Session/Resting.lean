import Calculator.Proofs.Session.Keeping

/-!
Sessions of typed input, at work and at rest.  Between two lines nothing is queued, no result is
kept and no line is in work.  While a line is read and run this need not hold, but whatever the line
does, and wherever it fails, it leaves the session so that it is at rest once the failure has been
reported.
-/
namespace Calculator

namespace Traceback

variable {t : Traceback} {path : String}

/-- The only input in use is the one that is registered again. -/
theorem put_of_path {place : Place} (h : t.map Place.path = [place.path]) :
    t.put place = [place] := by
  obtain ⟨p, rfl, hp⟩ := List.map_eq_singleton_iff.mp h
  simp [put, hp]

theorem cleared_of_path (h : t.map Place.path = [path]) : t.cleared = [⟨path, none, none⟩] := by
  obtain ⟨p, rfl, rfl⟩ := List.map_eq_singleton_iff.mp h
  rfl

end Traceback

/-- A usual failure is reported, and the calculator goes on, unless errors end it. -/
theorem Reporter.ends_settle_of_usual {r : Reporter} {f : Failure} (hfatal : r.fatal = false)
    (h : f.Usual) {ok : Unit → Reporter → Prop} {failed : Failure → Reporter → Prop} :
    (settle f).Ends r ok failed ↔ ok () { r with traceback := r.traceback.cleared } := by
  obtain ⟨report, hreport, hdrawn⟩ := h.exists_report
  exact Action.ends_of_run_ok (run_settle_of_not_fatal hfatal hreport hdrawn h.ne_internal)

namespace Session

variable {s : Session} {queue : List QueuedExpr} {results : List String} {text : String}
  {number : Int}

/-- A session of typed input with this queue and these results, whatever line is in work. -/
structure AtWork (s : Session) (queue : List QueuedExpr) (results : List String) : Prop where
  path_eq : s.path = interactivePath
  interactive_eq : s.interactive = true
  listed : s.strategy ∈ Strategy.listed
  fatal_eq : s.reporter.fatal = false
  paths_eq : s.reporter.traceback.map Place.path = [interactivePath]
  valid : s.stack.Valid
  queue_eq : s.queue = queue
  results_eq : s.results = results

/-- No line is in work. -/
def Unlined (s : Session) : Prop :=
  s.reporter.traceback = [⟨interactivePath, none, none⟩]

/-- A session of typed input between two lines. -/
structure AtRest (s : Session) : Prop extends s.AtWork [] [] where
  unlined : s.Unlined

/-- A line has failed in a way that is reported, and the session needs nothing but the report. -/
def Fallen (f : Failure) (s : Session) : Prop :=
  f.Usual ∧ s.AtWork [] []

/-! ### The line in work -/

/-- The session with a line of its input in work, or with none. -/
def withLine (line : Option String) (number : Option Int) (s : Session) : Session :=
  { s with reporter := s.reporter.registerLine s.path line number }

theorem registerLine_eq (text : String) (number : Int) :
    registerLine text number = Action.modify (withLine (some text) (some number)) :=
  rfl

theorem removeLine_eq : removeLine = Action.modify (withLine none none) :=
  rfl

theorem AtWork.traceback_withLine (h : s.AtWork queue results) (line : Option String)
    (number : Option Int) :
    (s.withLine line number).reporter.traceback = [⟨interactivePath, line, number⟩] := by
  rw [← h.path_eq]
  apply Traceback.put_of_path
  rw [h.paths_eq, h.path_eq]

theorem AtWork.withLine (h : s.AtWork queue results) (line : Option String)
    (number : Option Int) : (s.withLine line number).AtWork queue results := by
  refine { h with paths_eq := ?_ }
  rw [h.traceback_withLine]
  rfl

theorem AtWork.unlined (h : s.AtWork queue results) : (s.withLine none none).Unlined :=
  h.traceback_withLine none none

/-! ### Running -/

theorem AtWork.withResults (h : s.AtWork queue results) (more : List String) :
    (s.withResults more).AtWork queue (results ++ more) :=
  { h with results_eq := congrArg (· ++ more) h.results_eq }

theorem AtWork.withStack {stack : Stack} (h : s.AtWork queue results) (hstack : stack.Valid) :
    (s.withStack stack).AtWork queue results :=
  { h with valid := hstack }

/-- A tree that is run leaves one result, or fails in a usual way and leaves none. -/
theorem AtWork.ends_runTree (h : s.AtWork queue results) (text : String) (e : Expr) :
    (runTree text e).Ends s (fun _ s' => ∃ result, s'.AtWork queue (results ++ [result]))
      fun f s' => f.Usual ∧ s'.AtWork queue results := by
  have hgoverns : Setting.Governs ⟨s.reporter.coloured, s.strategy, s.stack.capacity, s.emitting⟩
      s := ⟨rfl, rfl, h.valid, rfl⟩
  obtain ⟨t, ht, hrun⟩ := Setting.run_runTree hgoverns text e
  rcases hshown : Setting.shown ⟨s.reporter.coloured, s.strategy, s.stack.capacity, s.emitting⟩
    s.reporter text e with ⟨out, answer⟩
  rw [hshown] at hrun
  cases answer with
  | ok result =>
      rw [Action.ends_of_run_ok hrun]
      exact ⟨result, (h.withStack ht.1).withResults [result]⟩
  | error f =>
      rw [Action.ends_of_run_error hrun]
      have hnone := (h.withStack ht.1).withResults []
      rw [List.append_nil] at hnone
      exact ⟨Setting.usual_of_shown hshown, hnone⟩

theorem AtWork.dequeued {q : QueuedExpr} (h : s.AtWork [q] results) :
    (s.dequeue q.number).AtWork [] results := by
  refine { h with queue_eq := ?_ }
  simp [dequeue, h.queue_eq]

/-- The one expression of the queue leaves the queue when it is run, whether it fails or not. -/
theorem AtWork.ends_runQueued {q : QueuedExpr} (h : s.AtWork [q] []) :
    (runQueued q).Ends s (fun _ s' => s'.Unlined ∧ ∃ result, s'.AtWork [] [result]) Fallen := by
  have hlined := h.withLine (some q.text) (some q.number)
  have hinteractive : (s.withLine (some q.text) (some q.number)).interactive = true :=
    hlined.interactive_eq
  simp only [runQueued, registerLine_eq, removeLine_eq, Action.ends_bind, Action.ends_modify,
    Action.ends_get, Action.ends_lastly, if_pos hinteractive]
  refine (hlined.ends_runTree q.text q.tree).mono ?_ ?_
  · rintro - s' ⟨result, hs'⟩
    exact ⟨hs'.dequeued.unlined, result, hs'.dequeued.withLine none none⟩
  · rintro f s' ⟨hf, hs'⟩
    exact ⟨hf, hs'.dequeued⟩

/-- The listing typed so far leaves one result when it is run, or fails in a usual way. -/
theorem AtWork.ends_runListing (h : s.AtWork [] []) (hunlined : s.Unlined) :
    runListing.Ends s (fun _ s' => s'.Unlined ∧ ∃ result, s'.AtWork [] [result]) Fallen := by
  simp only [runListing, Action.ends_bind, Action.ends_get, Action.ends_ofExcept]
  constructor
  · intro p _
    by_cases hemitting : s.emitting = true
    · rw [if_pos hemitting, addResult, Action.ends_modify]
      exact ⟨hunlined, p.display, h.withResults [p.display]⟩
    · rw [if_neg hemitting, Action.ends_bind]
      have hstack := (h.valid.run p).valid
      have hrun : (runProgram p).run s =
          ⟨"", s.withStack (s.stack.run p).1, (s.stack.run p).2.mapError .complaint⟩ := rfl
      cases hresult : (s.stack.run p).2 with
      | ok x =>
          rw [hresult] at hrun
          rw [Action.ends_of_run_ok hrun, Action.ends_of_run_ok (Setting.run_record _ x _)]
          exact ⟨hunlined, Number.text x, (h.withStack hstack).withResults [Number.text x]⟩
      | error c =>
          rw [hresult] at hrun
          rw [Action.ends_of_run_error hrun]
          exact ⟨.complaint (Stack.told_of_run hresult).drawn, h.withStack hstack⟩
  · intro f hf
    cases hrecords : Program.ofRecords (s.records.map Record.toDatum) with
    | ok p =>
        rw [hrecords] at hf
        cases hf
    | error c =>
        rw [hrecords] at hf
        obtain rfl := Except.error.inj hf
        exact ⟨.complaint (Program.told_of_ofRecords hrecords).drawn, h⟩

/-! ### A whole line -/

/-- A line that is accepted is an instruction and joins the records, or it is queued as an
expression. -/
theorem AtWork.of_accept {s' : Session} (h : s.AtWork [] [])
    (haccept : s.accept text number = .ok s') :
    (s'.assembly = true → s'.AtWork [] []) ∧
      (s'.assembly = false → ∃ q, s'.AtWork [q] []) := by
  rcases accept_cases haccept with ⟨hassembly, r, i, -, rfl⟩ | ⟨hassembly, tree, rfl⟩
  · refine ⟨fun _ => { h with }, ?_⟩
    intro hexpressions
    rw [hassembly] at hexpressions
    cases hexpressions
  · refine ⟨?_, ?_⟩
    · intro hlisting
      rw [hassembly] at hlisting
      cases hlisting
    · intro _
      refine ⟨⟨number, text, tree⟩, { h with queue_eq := ?_ }⟩
      rw [h.queue_eq]
      rfl

theorem usual_of_accept {f : Failure} (h : s.accept text number = .error f) : f.Usual := by
  rcases accept_eq_error h with hparse | ⟨c, rfl, htold⟩
  · exact Expr.usual_of_parse hparse
  · exact .complaint htold.drawn

/-- A line that is added is run next, and nothing else: what is queued is the line. -/
theorem AtRest.ends_add_run (h : s.AtRest) (text : String) (number : Int) :
    (add text number >>= fun _ => run).Ends s
      (fun _ s' => s'.Unlined ∧ ∃ result, s'.AtWork [] [result]) Fallen := by
  have hlined := h.withLine (some text) (some number)
  simp only [add, run, registerLine_eq, removeLine_eq, Action.ends_bind, Action.ends_modify,
    Action.ends_get, Action.ends_ofExcept]
  constructor
  · intro s' haccept
    obtain ⟨hlisting, hexpression⟩ := hlined.of_accept haccept
    cases hassembly : s'.assembly with
    | true =>
        have hs' := hlisting hassembly
        have hkept : (s'.withLine none none).assembly = true := hassembly
        rw [if_pos hkept]
        exact (hs'.withLine none none).ends_runListing hs'.unlined
    | false =>
        obtain ⟨q, hs'⟩ := hexpression hassembly
        have hkept : ¬ (s'.withLine none none).assembly = true := by
          rw [Bool.not_eq_true]
          exact hassembly
        rw [if_neg hkept, (hs'.withLine none none).queue_eq, runAll, runAll, bind_pure_unit]
        exact (hs'.withLine none none).ends_runQueued
  · intro f hf
    exact ⟨usual_of_accept hf, hlined⟩

end Session

end Calculator
