import Calculator.Proofs.Report.Settling

/-!
Containment.  Whatever is done with a reporter, the inputs stay in the traceback in the order in
which they were first registered.  A guarded action lets exits through and reports every other
failure: of a reporter that is not fatal it then forgets all lines and goes on, unless the failure
is internal, and a fatal one it ends.  The one way out is a failure whose span cannot be drawn: it
comes to light only once the message is printed, and nothing guards the report of a failure.
-/
namespace Calculator

/-! ### The text of a traceback -/

namespace Traceback

/-- A place with its line, if this is not empty. -/
def withLine? (p : Place) : Option (Place × String) :=
  match p.line with
  | some line => if line.isEmpty then none else some (p, line)
  | none => none

/-- The places that a traceback shows, with their lines. -/
def shown (t : Traceback) : List (Place × String) :=
  t.filterMap withLine?

/-- The two lines that show a place. -/
def entry (shown : Place × String) : String :=
  "  File '" ++ shown.1.path ++ "', line " ++ numberText shown.1.number ++ ":\n    " ++
    shown.2 ++ "\n"

/-- The places that a traceback shows, under a heading if there are any. -/
def listing (t : Traceback) : String :=
  if t.shown = [] then "" else "Traceback:\n" ++ String.join (t.shown.map entry)

theorem placeText_eq (p : Place) : placeText p = ((withLine? p).map entry).getD "" := by
  rw [placeText, withLine?]
  cases p.line with
  | none => rfl
  | some line =>
      cases hempty : line.isEmpty with
      | true => simp [hempty]
      | false => simp [hempty, entry]

theorem join_placeText (t : Traceback) :
    String.join (t.map placeText) = String.join (t.shown.map entry) := by
  induction t with
  | nil => rfl
  | cons p t ih =>
      rw [List.map_cons, String.join_cons, ih, placeText_eq, shown, shown, List.filterMap_cons]
      cases withLine? p with
      | none => exact String.empty_append
      | some q => exact String.join_cons.symm

/-- The text of a traceback shows exactly the places whose line is not empty, in order. -/
theorem text_eq_listing (t : Traceback) : t.text = t.listing := by
  rw [text, join_placeText, listing]
  cases t.shown with
  | nil => rfl
  | cons p ps =>
      have hentry : (String.join ((p :: ps).map entry)).isEmpty = false := by
        simp [entry]
      simp only [hentry, Bool.false_eq_true, ↓reduceIte, reduceCtorEq]

end Traceback

/-! ### Spans that can be drawn -/

namespace Report

/-- So many characters can be set below the subject. -/
def Repeatable (report : Report) (n : Int) : Prop :=
  -countLimit ≤ n ∧ (n ≤ report.subject.length ∨ n < lengthLimit)

/-- The blanks before the marks and the marks can be set below the subject, if they are to be. -/
def Drawable (report : Report) : Prop :=
  report.showsDiagnosis = true →
    report.Repeatable report.start ∧ report.Repeatable (report.markedStop - report.start - 1)

variable {report : Report}

theorem repeatFault?_eq_none_iff {n : Int} :
    report.repeatFault? n = none ↔ report.Repeatable n := by
  have hlimits : lengthLimit ≤ countLimit := by decide
  rw [repeatFault?, Repeatable]
  split
  · simp only [reduceCtorEq, false_iff]
    omega
  · split
    · simp only [true_iff]
      omega
    · split
      · simp only [reduceCtorEq, false_iff]
        omega
      · split
        · simp only [reduceCtorEq, false_iff]
          omega
        · simp only [true_iff]
          omega

theorem drawingFault?_eq_none_iff : report.drawingFault? = none ↔ report.Drawable := by
  rw [drawingFault?, Drawable, ← repeatFault?_eq_none_iff, ← repeatFault?_eq_none_iff]
  cases report.showsDiagnosis with
  | false => simp
  | true => simp

end Report

namespace Reporter

variable {r s t : Reporter} {a : Action Reporter Unit} {f : Failure} {report : Report}
  {out : String}

/-! ### What is done with a reporter -/

/-- Inputs in order of registration. -/
def paths (r : Reporter) : List String :=
  r.traceback.map Place.path

/-- Something that a program does with a reporter. -/
inductive Step where
  | registerFile (path : String)
  | registerLine (path : String) (line : Option String) (number : Option Int)
  | removeLine (path : String)
  /-- A warning, whose report is made first. -/
  | warn (text : String) (snippets : List String) (start stop : Int) (diagnosed internal : Bool)
  | throw (report : Report)
  /-- A guarded block of steps; it may raise a failure behind them. -/
  | guarded (body : List Step) (raised : Option Failure)
  /-- A block of steps whose failure is dropped. -/
  | attempted (body : List Step)

/-- Raises the failure that stands behind a block, if there is one. -/
def raise : Option Failure → Action Reporter Unit
  | none => pure ()
  | some f => Action.fail f

namespace Step

mutual

def act : Step → Action Reporter Unit
  | registerFile path => Action.modify (·.registerFile path)
  | registerLine path line number => Action.modify (·.registerLine path line number)
  | removeLine path => Action.modify (·.removeLine path)
  | warn text snippets start stop diagnosed internal => do
    let report ← Action.ofExcept
      ((Report.make text snippets start stop diagnosed internal).mapError .internal)
    Reporter.warn report
  | throw report => Reporter.throw report
  | guarded body raised => Reporter.guarded do
    actAll body
    raise raised
  | attempted body => (actAll body).settling fun _ => pure ()

/-- Does steps in order until one fails. -/
def actAll : List Step → Action Reporter Unit
  | [] => pure ()
  | step :: steps => do
    act step
    actAll steps

end

/-- The reporter that steps leave, whether one fails or not. -/
def after (steps : List Step) (r : Reporter) : Reporter :=
  ((actAll steps).run r).state

mutual

/-- The paths that a step registers, in order. -/
def registered : Step → Reporter → List String
  | registerFile path, _ => [path]
  | registerLine path _ _, _ => [path]
  | removeLine path, _ => [path]
  | warn .., _ => []
  | throw _, _ => []
  | guarded body _, r => registeredAll body r
  | attempted body, r => registeredAll body r

/-- The paths that steps register before one of them fails, in order. -/
def registeredAll : List Step → Reporter → List String
  | [], _ => []
  | step :: steps, r =>
    registered step r ++
      match (act step).run r with
      | ⟨_, s, .ok ()⟩ => registeredAll steps s
      | ⟨_, _, .error _⟩ => []

end

end Step

/-- Inputs after others were registered: those that are new stand behind, each where it was first
registered. -/
def joined (ps qs : List String) : List String :=
  ps ++ (qs.removeAll ps).eraseDups

theorem joined_nil (ps : List String) : joined ps [] = ps := by
  simp [joined, List.removeAll]

theorem joined_singleton (ps : List String) (q : String) :
    joined ps [q] = if q ∈ ps then ps else ps ++ [q] := by
  by_cases hq : q ∈ ps
  · simp [joined, List.removeAll, hq]
  · simp [joined, List.removeAll, hq, List.eraseDups_cons]

theorem joined_append (ps qs rs : List String) :
    joined ps (qs ++ rs) = joined (joined ps qs) rs := by
  have hrest : rs.removeAll (ps ++ (qs.removeAll ps).eraseDups) =
      (rs.removeAll ps).removeAll (qs.removeAll ps) := by
    simp only [List.removeAll, List.filter_filter]
    apply List.filter_congr
    intro q hq
    by_cases hps : q ∈ ps
    · simp [hps]
    · simp [hps]
  have hsplit : (qs ++ rs).removeAll ps = qs.removeAll ps ++ rs.removeAll ps :=
    List.filter_append _ _
  rw [joined, joined, joined, hrest, hsplit, List.eraseDups_append, List.append_assoc]

/-! ### Inputs stay -/

theorem paths_put (place : Place) (r : Reporter) :
    ({ r with traceback := r.traceback.put place } : Reporter).paths =
      joined r.paths [place.path] := by
  rw [joined_singleton]
  exact Traceback.map_path_put place r.traceback

theorem paths_warn (report : Report) (r : Reporter) :
    ((warn report).run r).state.paths = r.paths := by
  rw [warn, Action.run_bind_of_silent (Action.run_get _)]
  cases report.drawingFault? with
  | none => rfl
  | some i => rfl

theorem paths_throw (report : Report) (r : Reporter) :
    ((throw report).run r).state.paths = r.paths := by
  cases h : report.drawingFault? with
  | some i => rw [run_throw_of_fault h]
  | none =>
      rw [run_throw h]
      split
      · rfl
      · exact Traceback.map_path_cleared r.traceback

theorem paths_settle (f : Failure) (r : Reporter) : ((settle f).run r).state.paths = r.paths := by
  unfold settle
  cases f.report? with
  | none => rfl
  | some report =>
      have hpaths := paths_throw report r
      rcases hrun : (throw report).run r with ⟨out, s, answer⟩
      rw [hrun] at hpaths
      cases answer with
      | error e =>
          simp only [Action.run_bind_of_error hrun]
          exact hpaths
      | ok done =>
          simp only [Action.run_bind_of_ok hrun]
          split
          · exact hpaths
          · exact hpaths

/-- Inputs stay while failures are settled, if settling keeps them. -/
theorem paths_settling {settled : Failure → Action Reporter Unit}
    (h : ∀ f s, ((settled f).run s).state.paths = s.paths) (a : Action Reporter Unit)
    (r : Reporter) : ((a.settling settled).run r).state.paths = (a.run r).state.paths := by
  rcases hrun : a.run r with ⟨out, s, answer⟩
  cases answer with
  | ok done => rw [Action.run_settling_of_ok hrun]
  | error f =>
      rw [Action.run_settling_of_error hrun]
      exact h f s

theorem paths_bind_raise (a : Action Reporter Unit) (raised : Option Failure) (r : Reporter) :
    ((a >>= fun _ => raise raised).run r).state.paths = (a.run r).state.paths := by
  rcases hrun : a.run r with ⟨out, s, answer⟩
  cases answer with
  | error f => rw [Action.run_bind_of_error hrun]
  | ok done =>
      rw [Action.run_bind_of_ok hrun]
      cases raised with
      | none => rfl
      | some f => rfl

namespace Step

mutual

/-- After a step the inputs are those of before, and behind them the new ones. -/
theorem paths_act (step : Step) (r : Reporter) :
    ((act step).run r).state.paths = joined r.paths (registered step r) := by
  cases step with
  | registerFile path => exact paths_put ⟨path, none, none⟩ r
  | registerLine path line number => exact paths_put ⟨path, line, number⟩ r
  | removeLine path => exact paths_put ⟨path, none, none⟩ r
  | warn text snippets start stop diagnosed internal =>
      rw [registered, joined_nil, act]
      cases Report.make text snippets start stop diagnosed internal with
      | error i => rfl
      | ok report =>
          have hmade : (Except.ok report).mapError Failure.internal = .ok report := rfl
          rw [hmade, Action.run_bind_of_silent (Action.run_ofExcept _ _)]
          exact paths_warn report r
  | throw report =>
      rw [registered, joined_nil, act]
      exact paths_throw report r
  | guarded body raised =>
      rw [registered, act, Reporter.guarded, paths_settling paths_settle, paths_bind_raise]
      exact paths_after body r
  | attempted body =>
      rw [registered, act, paths_settling fun _ _ => rfl]
      exact paths_after body r

theorem paths_after (steps : List Step) (r : Reporter) :
    (after steps r).paths = joined r.paths (registeredAll steps r) := by
  cases steps with
  | nil => exact (joined_nil r.paths).symm
  | cons step steps =>
      have hstep := paths_act step r
      rw [registeredAll, joined_append, ← hstep, after, actAll]
      rcases hrun : (act step).run r with ⟨out, s, answer⟩
      cases answer with
      | ok done =>
          rw [Action.run_bind_of_ok hrun]
          exact paths_after steps s
      | error f =>
          -- the steps behind one that fails are left out, so they register nothing
          rw [Action.run_bind_of_error hrun]
          exact (joined_nil s.paths).symm

end

end Step

/-! ### Failures are contained -/

/-- A report as it is told: the places that have a line are listed, then comes what is printed of
the report where no input is in use. -/
def told (r : Reporter) (report : Report) : String :=
  r.traceback.listing ++ ({ r with traceback := [] } : Reporter).errorText report

theorem errorText_eq_told (r : Reporter) (report : Report) :
    r.errorText report = r.told report := by
  have hnone : Traceback.text [] = "" := rfl
  simp only [told, errorText, diagnosisText, hnone, Traceback.text_eq_listing,
    String.empty_append, String.append_assoc]

/-- The second reporter has the inputs of the first one, and no line of any is in work. -/
structure Reset (s t : Reporter) : Prop where
  fatal_eq : t.fatal = s.fatal
  coloured_eq : t.coloured = s.coloured
  paths_eq : t.paths = s.paths
  unlined : ∀ p ∈ t.traceback, p.line = none ∧ p.number = none

/-- How a guarded action ends if its failures are contained. -/
inductive Contained (a : Action Reporter Unit) (r : Reporter) : Outcome Reporter Unit → Prop where
  /-- Nothing fails. -/
  | answered {s : Reporter} {out : String} (run_eq : a.run r = ⟨out, s, .ok ()⟩) :
      Contained a r ⟨out, s, .ok ()⟩
  /-- An exit is let through: nothing more is printed and nothing changes. -/
  | exited {s : Reporter} {out : String} {code : Int}
      (run_eq : a.run r = ⟨out, s, .error (.exit code)⟩) :
      Contained a r ⟨out, s, .error (.exit code)⟩
  /-- A failure is told, no line is left in work, and the calculator goes on. -/
  | suppressed {s t : Reporter} {out : String} {f : Failure} {report : Report}
      (run_eq : a.run r = ⟨out, s, .error f⟩) (lenient : s.fatal = false)
      (report_eq : f.report? = some report) (expected : ∀ i, f ≠ .internal i) (reset : Reset s t) :
      Contained a r ⟨out ++ s.told report, t, .ok ()⟩
  /-- An internal failure is told as such, no line is left in work, and it is raised again. -/
  | raised {s t : Reporter} {out : String} {i : Internal} {report : Report}
      (run_eq : a.run r = ⟨out, s, .error (.internal i)⟩) (lenient : s.fatal = false)
      (report_eq : (Failure.internal i).report? = some report) (internal : report.internal = true)
      (reset : Reset s t) :
      Contained a r ⟨out ++ s.told report, t, .error (.internal i)⟩
  /-- Where errors are fatal the failure is told, internal or not; the traceback is untouched, and
  the calculator ends. -/
  | ended {s : Reporter} {out : String} {f : Failure} {report : Report}
      (run_eq : a.run r = ⟨out, s, .error f⟩) (fatal : s.fatal = true)
      (report_eq : f.report? = some report) :
      Contained a r ⟨out ++ s.told report, s, .error (.exit errorExit)⟩

/-- If the action fails then the span of the report can be drawn. -/
def Drawable (a : Action Reporter Unit) (r : Reporter) : Prop :=
  ∀ f report, (a.run r).result = .error f → f.report? = some report → report.Drawable

theorem reset_cleared (s : Reporter) : Reset s { s with traceback := s.traceback.cleared } where
  fatal_eq := rfl
  coloured_eq := rfl
  paths_eq := Traceback.map_path_cleared s.traceback
  unlined p hp := by
    obtain ⟨q, -, rfl⟩ := List.mem_map.mp hp
    exact ⟨rfl, rfl⟩

theorem contained_of_report (hrun : a.run r = ⟨out, s, .error f⟩)
    (hreport : f.report? = some report) (hdrawn : report.drawingFault? = none) :
    Contained a r ((guarded a).run r) := by
  rw [guarded, Action.run_settling_of_error hrun]
  by_cases hfatal : s.fatal = true
  · rw [run_settle_of_fatal hfatal hreport hdrawn, errorText_eq_told]
    exact .ended hrun hfatal hreport
  · have hlenient : s.fatal = false := Bool.eq_false_iff.mpr hfatal
    by_cases hinternal : ∃ i, f = .internal i
    · obtain ⟨i, rfl⟩ := hinternal
      rw [run_settle_of_internal hlenient hreport, errorText_eq_told]
      exact .raised hrun hlenient hreport (Option.some.inj hreport ▸ rfl) (reset_cleared s)
    · have hexpected : ∀ i, f ≠ .internal i := fun i hf => hinternal ⟨i, hf⟩
      rw [run_settle_of_not_fatal hlenient hreport hdrawn hexpected, errorText_eq_told]
      exact .suppressed hrun hlenient hreport hexpected (reset_cleared s)

theorem contained_of_exit {code : Int} (hrun : a.run r = ⟨out, s, .error (.exit code)⟩) :
    Contained a r ((guarded a).run r) := by
  have hsettle : (settle (.exit code)).run s = ⟨"", s, .error (.exit code)⟩ := rfl
  rw [guarded, Action.run_settling_of_error hrun, hsettle, String.append_empty]
  exact .exited hrun

theorem contained_of_drawable (h : Drawable a r) : Contained a r ((guarded a).run r) := by
  rcases hrun : a.run r with ⟨out, s, answer⟩
  cases answer with
  | ok done =>
      rw [guarded, Action.run_settling_of_ok hrun]
      exact .answered hrun
  | error f =>
      cases hreport : f.report? with
      | none =>
          obtain ⟨code, rfl⟩ := Failure.exists_exit hreport
          exact contained_of_exit hrun
      | some report =>
          have hdrawable := h f report (congrArg Outcome.result hrun) hreport
          exact contained_of_report hrun hreport (Report.drawingFault?_eq_none_iff.mpr hdrawable)

/-- A failure whose span cannot be drawn is told up to the span. Then another failure escapes, and
nothing is reset. -/
theorem run_guarded_of_fault {i : Internal} (hrun : a.run r = ⟨out, s, .error f⟩)
    (hreport : f.report? = some report) (hfault : report.drawingFault? = some i) :
    (guarded a).run r = ⟨out ++ s.errorText report.undrawn, s, .error (.internal i)⟩ := by
  rw [guarded, Action.run_settling_of_error hrun, run_settle_of_fault hreport hfault]

theorem drawable_of_contained (h : Contained a r ((guarded a).run r)) : Drawable a r := by
  intro f report hfails hreport
  cases hfault : report.drawingFault? with
  | none => exact Report.drawingFault?_eq_none_iff.mp hfault
  | some i =>
      rcases hrun : a.run r with ⟨out, s, answer⟩
      rw [hrun] at hfails
      obtain rfl : answer = .error f := hfails
      -- what escapes is neither an answer nor an exit, and no internal failure has a span
      have hescapes := congrArg Outcome.result (run_guarded_of_fault hrun hreport hfault)
      generalize (guarded a).run r = o at h hescapes
      cases h with
      | answered run_eq => cases hescapes
      | exited run_eq => cases hescapes
      | suppressed run_eq lenient report_eq expected reset => cases hescapes
      | raised run_eq lenient report_eq internal reset =>
          cases hrun.symm.trans run_eq
          obtain rfl := Option.some.inj (hreport.symm.trans report_eq)
          rw [Report.drawingFault?_of_internal internal] at hfault
          cases hfault
      | ended run_eq fatal report_eq => cases hescapes

/-- Main result: whatever was done with a reporter, its inputs are those of before, and behind them
the new ones in the order in which they were first registered; and whatever action is guarded then,
its failure is contained exactly if the span of its report is not shown or can be drawn. -/
theorem guarded_contains_iff (r : Reporter) (steps : List Step) (a : Action Reporter Unit) :
    (Step.after steps r).paths = joined r.paths (Step.registeredAll steps r) ∧
      (Contained a (Step.after steps r) ((guarded a).run (Step.after steps r)) ↔
        Drawable a (Step.after steps r)) :=
  ⟨Step.paths_after steps r, drawable_of_contained, contained_of_drawable⟩

/-- A report on columns that do not fit a machine word is told, but then the traceback keeps its
line and an overflow escapes. -/
theorem odd_span_escapes :
    ∃ report s, Report.make "'\x7b\x7d' is odd" ["1 +"] (-9223372036854775809)
        (-9223372036854775809) = .ok report ∧
      s = Reporter.mk false false [⟨"calc.ac", some "1 +", some 3⟩] ∧
      (guarded (Action.complain (.stated report))).run s =
        ⟨"Traceback:\n  File 'calc.ac', line 3:\n    1 +\nerror: '1 +' is odd\n", s,
          .error (.internal .capacityTooLarge)⟩ ∧
      ¬ Contained (Action.complain (.stated report)) s
        ((guarded (Action.complain (.stated report))).run s) := by
  refine ⟨⟨[.text "'", .snippet 0, .text "' is odd"], ["1 +"], -9223372036854775809,
    -9223372036854775809, true, false⟩, _, rfl, rfl, ?_, ?_⟩
  · rw [run_guarded_of_fault rfl rfl rfl]
    rfl
  · intro h
    have hstart := (drawable_of_contained h _ _ rfl rfl (by decide)).1.1
    exact absurd hstart (by decide)

end Reporter

end Calculator
