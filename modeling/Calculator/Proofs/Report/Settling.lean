import Calculator.Report.Reporter

/-!
Settling failures.  Whatever failure is reported, its report is printed first; then the calculator
ends, or it goes on with no line in work.  Only a report whose span cannot be drawn stops before
this, and none does whose span lies within its subject.
-/
namespace Calculator

namespace Report

variable {report : Report}

/-- A span is drawn without fault if it is not drawn at all. -/
theorem drawingFault?_of_hidden (h : report.showsDiagnosis = false) :
    report.drawingFault? = none := by
  rw [drawingFault?, h]
  rfl

theorem showsDiagnosis_of_not_diagnosed (h : report.diagnosed = false) :
    report.showsDiagnosis = false := by
  rw [showsDiagnosis, h, Bool.and_false]

theorem drawingFault?_unmarked (template : Template) (snippets : List String) :
    (unmarked template snippets).drawingFault? = none :=
  drawingFault?_of_hidden (showsDiagnosis_of_not_diagnosed rfl)

theorem drawingFault?_of_internal (h : report.internal = true) : report.drawingFault? = none := by
  apply drawingFault?_of_hidden
  rw [showsDiagnosis, h]
  rfl

/-- Within the length of the subject characters are repeated without fault. -/
theorem repeatFault?_of_le {n : Int} (hlow : 0 ≤ n) (hhigh : n ≤ report.subject.length) :
    report.repeatFault? n = none := by
  have hword : ¬ n < -countLimit := by
    have hpositive : 0 ≤ countLimit := by decide
    omega
  rw [repeatFault?, if_neg hword, if_pos hhigh]

/-- A span within the subject is drawn without fault. -/
theorem drawingFault?_of_within (hstart : 0 ≤ report.start)
    (hstop : report.stop ≤ report.subject.length) (hle : report.start ≤ report.subject.length) :
    report.drawingFault? = none := by
  have hmarks : report.markedStop - report.start - 1 ≤ report.subject.length := by
    rw [markedStop]
    omega
  have hpositive : 0 ≤ report.markedStop - report.start - 1 := by
    rw [markedStop]
    omega
  rw [drawingFault?, repeatFault?_of_le hstart hle, repeatFault?_of_le hpositive hmarks]
  split
  · rfl
  · rfl

end Report

/-- Only an exit is not reported. -/
theorem Failure.exists_exit {f : Failure} (h : f.report? = none) : ∃ code, f = .exit code := by
  cases f with
  | exit code => exact ⟨code, rfl⟩
  | complaint c => cases h
  | nestsTooDeeply => cases h
  | interrupted => cases h
  | internal i => cases h

namespace Reporter

variable {r : Reporter} {f : Failure} {report : Report}

/-- A warning is printed, and nothing else. -/
theorem run_warn (hdrawn : report.drawingFault? = none) (r : Reporter) :
    (warn report).run r = ⟨r.warningText report, r, .ok ()⟩ := by
  rw [warn, Action.run_bind_of_silent (Action.run_get _)]
  simp only [hdrawn]
  rfl

/-- A warning whose span cannot be drawn is printed without it, and then fails. -/
theorem run_warn_of_fault {i : Internal} (hfault : report.drawingFault? = some i) (r : Reporter) :
    (warn report).run r = ⟨r.warningText report.undrawn, r, .error (.internal i)⟩ := by
  have hprint : (Action.print (r.warningText report.undrawn)).run r =
      ⟨r.warningText report.undrawn, r, .ok ()⟩ := rfl
  rw [warn, Action.run_bind_of_silent (Action.run_get _)]
  simp only [hfault]
  rw [Action.run_bind_of_ok hprint, Action.run_fail, String.append_empty]

/-- A report is printed whether or not it ends the calculator. -/
theorem run_throw (hdrawn : report.drawingFault? = none) (r : Reporter) :
    (throw report).run r =
      if r.fatal then ⟨r.errorText report, r, .error (.exit errorExit)⟩
      else ⟨r.errorText report, { r with traceback := r.traceback.cleared }, .ok ()⟩ := by
  have hprint : (Action.print (r.errorText report)).run r = ⟨r.errorText report, r, .ok ()⟩ := rfl
  rw [throw, Action.run_bind_of_silent (Action.run_get _)]
  simp only [hdrawn]
  rw [Action.run_bind_of_ok hprint]
  split
  · rw [Action.run_fail, String.append_empty]
  · rw [Action.run_modify, String.append_empty]

/-- A report whose span cannot be drawn is printed without it, and then fails. -/
theorem run_throw_of_fault {i : Internal} (hfault : report.drawingFault? = some i) (r : Reporter) :
    (throw report).run r = ⟨r.errorText report.undrawn, r, .error (.internal i)⟩ := by
  have hprint : (Action.print (r.errorText report.undrawn)).run r =
      ⟨r.errorText report.undrawn, r, .ok ()⟩ := rfl
  rw [throw, Action.run_bind_of_silent (Action.run_get _)]
  simp only [hfault]
  rw [Action.run_bind_of_ok hprint, Action.run_fail, String.append_empty]

theorem run_settle_of_fault {i : Internal} (hreport : f.report? = some report)
    (hfault : report.drawingFault? = some i) (r : Reporter) :
    (settle f).run r = ⟨r.errorText report.undrawn, r, .error (.internal i)⟩ := by
  unfold settle
  rw [hreport]
  exact Action.run_bind_of_error (run_throw_of_fault hfault r)

/-- A report ends a run of which errors are fatal. -/
theorem run_settle_of_fatal (hfatal : r.fatal = true) (hreport : f.report? = some report)
    (hdrawn : report.drawingFault? = none) :
    (settle f).run r = ⟨r.errorText report, r, .error (.exit errorExit)⟩ := by
  have hthrow := run_throw hdrawn r
  rw [if_pos hfatal] at hthrow
  unfold settle
  rw [hreport]
  exact Action.run_bind_of_error hthrow

/-- A report ends nothing else: unless it is of an internal failure, the calculator goes on. -/
theorem run_settle_of_not_fatal (hfatal : r.fatal = false) (hreport : f.report? = some report)
    (hdrawn : report.drawingFault? = none) (hvisible : ∀ i, f ≠ .internal i) :
    (settle f).run r =
      ⟨r.errorText report, { r with traceback := r.traceback.cleared }, .ok ()⟩ := by
  have hthrow := run_throw hdrawn r
  rw [if_neg (Bool.eq_false_iff.mp hfatal)] at hthrow
  unfold settle
  rw [hreport]
  cases f with
  | internal i => exact (hvisible i rfl).elim
  | complaint c => exact Action.run_bind_pure hthrow ()
  | nestsTooDeeply => exact Action.run_bind_pure hthrow ()
  | interrupted => exact Action.run_bind_pure hthrow ()
  | exit code => cases hreport

/-- An internal failure is raised again after its report. -/
theorem run_settle_of_internal {i : Internal} (hfatal : r.fatal = false)
    (hreport : (Failure.internal i).report? = some report) :
    (settle (.internal i)).run r =
      ⟨r.errorText report, { r with traceback := r.traceback.cleared },
        .error (.internal i)⟩ := by
  have hinternal : report.internal = true := Option.some.inj hreport ▸ rfl
  have hthrow := run_throw (Report.drawingFault?_of_internal hinternal) r
  rw [if_neg (Bool.eq_false_iff.mp hfatal)] at hthrow
  unfold settle
  rw [hreport]
  simp only [Action.run_bind_of_ok hthrow, Action.run_fail, String.append_empty]

/-- Settling a failure prints its report. -/
theorem printed_settle (hreport : f.report? = some report) (hdrawn : report.drawingFault? = none)
    (r : Reporter) : ((settle f).run r).printed = r.errorText report := by
  by_cases hfatal : r.fatal = true
  · rw [run_settle_of_fatal hfatal hreport hdrawn]
  · have hthrow := run_throw hdrawn r
    rw [if_neg hfatal] at hthrow
    unfold settle
    rw [hreport]
    simp only [Action.run_bind_of_ok hthrow]
    split
    · rw [Action.run_fail, String.append_empty]
    · rw [Action.run_pure, String.append_empty]

end Reporter

end Calculator
