import Calculator.Proofs.Expr.Printing
import Calculator.Proofs.Report.Settling
import Calculator.Proofs.Run.Accepted
import Calculator.Proofs.Session.Batch
import Calculator.Proofs.Session.Starting
import Calculator.Run

/-!
Runs of a file.  A run prints the report of the first line that cannot be parsed, or the warnings
and the report of the first line that fails, or all warnings and then all results.  It never prints
some of the results.
-/
namespace Calculator

namespace Run

variable {coloured : Bool} {files : Files} {arguments : List String} {settings : Settings}
  {path input out : String} {cs : List Char} {r : Reporter} {report : Report} {f : Failure}
  {g : Setting} {stack : Stack}

/-- A run of a file of expressions whose text can be read. -/
structure RunsFile (files : Files) (arguments : List String) (settings : Settings)
    (path : String) (cs : List Char) : Prop where
  settled : Settings.ofArguments arguments = .ok settings
  file_eq : settings.file = some path
  assembly_eq : settings.assembly = false
  path_ne : path ≠ Session.interactivePath
  readable : Session.readFile files path = .ok cs

/-- What the settings of a command line decide. -/
def setting (coloured : Bool) (settings : Settings) : Setting :=
  ⟨coloured, settings.strategy, settings.stackSize.map Int.toNat, settings.emitting⟩

/-- The message of an error with its labels, and the span to blame if it is shown. -/
def errorReport (coloured : Bool) (report : Report) : String :=
  (if report.internal then Ink.error.paint coloured "[internal] " else "") ++
    Ink.error.paint coloured "error: " ++ report.styled coloured ++ "\n" ++
    if report.showsDiagnosis then report.diagnosis coloured false ++ "\n" else ""

/-- What is printed of a line that cannot be parsed or run. -/
def lineReport (coloured : Bool) (path : String) (l : LogicalLine) (report : Report) : String :=
  "Traceback:\n  File '" ++ path ++ "', line " ++ Layout.intText l.number ++ ":\n    " ++
    l.text ++ "\n" ++ errorReport coloured report

/-- How a run of a file can end. -/
inductive FileRun (g : Setting) (path : String) (ls : List LogicalLine) : Transcript → Prop where
  /-- The first line that cannot be parsed is reported, and no line is run. -/
  | unparsed {before after : List LogicalLine} {l : LogicalLine} {f : Failure} {report : Report}
      (lines_eq : ls = before ++ l :: after)
      (parsed : ∀ m ∈ before, ∃ e, Expr.parse m.text = .ok e)
      (fails : Expr.parse l.text = .error f) (report_eq : f.report? = some report) :
      FileRun g path ls ⟨lineReport g.coloured path l report, "", 1⟩
  /-- All lines are parsed, and the first one that fails is reported after the warnings of those
  before it. -/
  | failed {before after : List LogicalLine} {as : List Answer} {l : LogicalLine} {f : Failure}
      {report : Report} (parsed : ∀ m ∈ ls, ∃ e, Expr.parse m.text = .ok e)
      (lines_eq : ls = before ++ l :: after) (answers : g.Answers before as)
      (fails : g.lineAnswer l.text = .error f) (report_eq : f.report? = some report) :
      FileRun g path ls
        ⟨g.warnings path before as ++ lineReport g.coloured path l report, "", 1⟩
  /-- All lines are answered, and their results are printed after the warnings. -/
  | answered {as : List Answer} (answers : g.Answers ls as) :
      FileRun g path ls
        ⟨g.warnings path ls as ++ String.join (as.map fun a => a.result ++ "\n"), "", 0⟩

/-- A run succeeds exactly if all lines are answered. -/
theorem FileRun.exit_eq_zero_iff {ls : List LogicalLine} {t : Transcript}
    (h : FileRun g path ls t) : t.exit = 0 ↔ ∃ as, g.Answers ls as := by
  cases h with
  | @unparsed before after l f report hls hparsed hl hreport =>
      have hmem : l ∈ ls := by
        rw [hls]
        exact List.mem_append_cons_self
      constructor
      · intro hexit
        cases hexit
      · rintro ⟨as, has⟩
        obtain ⟨e, he⟩ := Setting.parsed_of_answers has l hmem
        rw [hl] at he
        cases he
  | @failed before after as l f report hparsed hls hanswers hl hreport =>
      have hmem : l ∈ ls := by
        rw [hls]
        exact List.mem_append_cons_self
      constructor
      · intro hexit
        cases hexit
      · rintro ⟨as, has⟩
        obtain ⟨a, ha⟩ := Setting.answered_of_mem has hmem
        rw [hl] at ha
        cases ha
  | answered has => exact ⟨fun _ => ⟨_, has⟩, fun _ => rfl⟩

/-! ### The actions of a run -/

theorem errorText_eq (r : Reporter) (report : Report) :
    r.errorText report = r.traceback.text ++ errorReport r.coloured report := by
  rw [Reporter.errorText, errorReport, Reporter.diagnosisText]
  simp only [String.append_assoc]

/-- The traceback shows the line in work with its number. -/
theorem tracebackText_fileReporter {l : LogicalLine} (h : l.text ≠ "") :
    (g.fileReporter path (some l)).traceback.text =
      "Traceback:\n  File '" ++ path ++ "', line " ++ Layout.intText l.number ++ ":\n    " ++
        l.text ++ "\n" := by
  have hempty : l.text.isEmpty = false := by
    rw [Bool.eq_false_iff]
    exact fun hnil => h (String.isEmpty_iff.mp hnil)
  have hhead : "Traceback:\n  File '" = "Traceback:\n" ++ "  File '" := rfl
  have hplace : (g.fileReporter path (some l)).traceback.map Traceback.placeText =
      ["  File '" ++ path ++ "', line " ++ Layout.intText l.number ++ ":\n    " ++ l.text ++
        "\n"] := by
    simp only [Setting.fileReporter, Option.map_some, List.map_cons, List.map_nil,
      Traceback.placeText, hempty, Bool.false_eq_true, ↓reduceIte, Traceback.numberText]
  have hshown : ("  File '" ++ path ++ "', line " ++ Layout.intText l.number ++ ":\n    " ++
      l.text ++ "\n").isEmpty = false := by
    simp
  rw [Traceback.text, hplace, String.join_cons, String.join_nil, String.append_empty, hshown, hhead]
  simp only [Bool.false_eq_true, ↓reduceIte, String.append_assoc]

theorem errorText_fileReporter {l : LogicalLine} (h : l.text ≠ "") (report : Report) :
    (g.fileReporter path (some l)).errorText report = lineReport g.coloured path l report := by
  rw [errorText_eq, tracebackText_fileReporter h]
  rfl

theorem RunsFile.strategy_mem (h : RunsFile files arguments settings path cs) :
    settings.strategy ∈ Strategy.listed :=
  (Settings.listed_of_ofArguments h.settled).1

/-- A session of a file starts by reading the file. -/
theorem run_start (h : RunsFile files arguments settings path cs)
    (hmake : Stack.make settings.stackSize = .ok stack) :
    (Session.start files (settings.fileSession path)).run (reporter coloured) =
      (((setting coloured settings).fileSession path none stack [] []).conduct
        (Session.load files)).run ((setting coloured settings).fileReporter path none) := by
  have hstart := Session.run_start_of_make files (settings.fileSession path) (reporter coloured)
    h.strategy_mem hmake
  rw [hstart, Settings.fileSession, h.assembly_eq]
  rfl

/-- How reading the lines of a file ends is how its session starts. -/
theorem run_start_of_addAll (h : RunsFile files arguments settings path cs)
    (hmake : Stack.make settings.stackSize = .ok stack) {s : Session}
    {answer : Except Failure Unit}
    (hadd : (Session.addAll (LogicalLine.ofText cs)).run
      ((setting coloured settings).fileSession path none stack [] []) =
      ⟨out, s, answer⟩) :
    (Session.start files (settings.fileSession path)).run (reporter coloured) =
      ⟨out, s.reporter, answer.map fun _ => s⟩ := by
  rw [run_start h hmake]
  apply Session.run_conduct
  rw [← hadd]
  exact Session.run_load_of_lines h.path_ne (Session.readLogicalLines_of_readFile h.readable)

/-- A run of a file whose lines are read runs them and prints the results if none fails. -/
theorem run_interpret_of_start {s s' : Session} {r' : Reporter} {path : String}
    {answer : Except Failure Unit}
    (h : (Session.start files (settings.fileSession path)).run r = ⟨"", r', .ok s⟩)
    (hrun : Session.run.run { s with reporter := r' } = ⟨out, s', answer⟩) :
    (interpret files settings path).run r =
      ⟨match answer with
        | .ok _ => out ++ String.join (s'.results.map (· ++ "\n"))
        | .error _ => out, s'.reporter, answer⟩ := by
  have hconduct := Session.run_conduct (r := r') hrun
  rw [interpret, Action.run_bind_of_silent h]
  cases answer with
  | error f => exact Action.run_bind_of_error hconduct
  | ok done => exact Action.run_bind_of_ok hconduct

theorem RunsFile.action_eq (h : RunsFile files arguments settings path cs) (input : String) :
    action files settings input = interpret files settings path := by
  rw [action, h.file_eq]

/-- A run that fails ends with the report of the failure. -/
theorem transcript_of_error (hsettled : Settings.ofArguments arguments = .ok settings)
    (hfatal : r.fatal = true) (hreport : f.report? = some report)
    (hdrawn : report.drawingFault? = none)
    (hrun : (action files settings input).run (reporter coloured) = ⟨out, r, .error f⟩) :
    transcript coloured files arguments input = ⟨out ++ r.errorText report, "", 1⟩ := by
  have hsettle := Reporter.run_settle_of_fatal hfatal hreport hdrawn
  have hguarded : (Reporter.guarded (action files settings input)).run (reporter coloured) =
      ⟨out ++ r.errorText report, r, .error (.exit Reporter.errorExit)⟩ := by
    rw [Reporter.guarded, Action.run_settling_of_error hrun, hsettle]
  rw [transcript, hsettled]
  simp only [hguarded]
  rfl

theorem transcript_of_ok (hsettled : Settings.ofArguments arguments = .ok settings)
    (hrun : (action files settings input).run (reporter coloured) = ⟨out, r, .ok ()⟩) :
    transcript coloured files arguments input = ⟨out, "", 0⟩ := by
  have hguarded : (Reporter.guarded (action files settings input)).run (reporter coloured) =
      ⟨out, r, .ok ()⟩ := Action.run_settling_of_ok hrun
  rw [transcript, hsettled]
  simp only [hguarded]
  rfl

/-! ### The three ways to end -/

theorem transcript_of_unparsed (h : RunsFile files arguments settings path cs)
    (hmake : Stack.make settings.stackSize = .ok stack) {before after : List LogicalLine}
    {l : LogicalLine} (hls : LogicalLine.ofText cs = before ++ l :: after)
    (hbefore : ∀ m ∈ before, ∃ e, Expr.parse m.text = .ok e)
    (hl : Expr.parse l.text = .error f) (hreport : f.report? = some report) (input : String) :
    transcript coloured files arguments input = ⟨lineReport coloured path l report, "", 1⟩ := by
  obtain ⟨qs, rfl, hqs⟩ := Setting.exists_queue hbefore
  have hnumbers : qs.Pairwise fun q q' => q.number < q'.number := by
    apply Setting.pairwise_queue cs
    rw [hls]
    exact List.sublist_append_left _ _
  have hmem : l ∈ LogicalLine.ofText cs := by
    rw [hls]
    exact List.mem_append_cons_self
  have hadd := Setting.run_addAll_error (g := setting coloured settings) path stack qs after hqs
    hnumbers hl
  rw [← hls] at hadd
  have hrun : (interpret files settings path).run (reporter coloured) = _ :=
    Action.run_bind_of_error (run_start_of_addAll h hmake hadd)
  rw [← h.action_eq input] at hrun
  have hdrawn := (Expr.usual_of_parse hl).drawn hreport
  rw [transcript_of_error h.settled rfl hreport hdrawn hrun, String.empty_append]
  simp only [Setting.fileSession, errorText_fileReporter (LogicalLine.text_ne_of_mem hmem)]
  rfl

/-- Once all lines are parsed they are queued. -/
theorem run_start_of_parsed (h : RunsFile files arguments settings path cs)
    (hmake : Stack.make settings.stackSize = .ok stack) {qs : List QueuedExpr}
    (hls : LogicalLine.ofText cs = qs.map Setting.lineOf)
    (hqs : ∀ q ∈ qs, Expr.parse q.text = .ok q.tree) :
    (Session.start files (settings.fileSession path)).run (reporter coloured) =
      ⟨"", (setting coloured settings).fileReporter path none,
        .ok ((setting coloured settings).fileSession path none stack qs [])⟩ := by
  have hnumbers : qs.Pairwise fun q q' => q.number < q'.number := by
    apply Setting.pairwise_queue cs
    rw [hls]
  have hadd := Setting.run_addAll (g := setting coloured settings) path stack [] qs hqs hnumbers
  rw [← hls] at hadd
  exact run_start_of_addAll h hmake hadd

theorem run_run_of_file (g : Setting) (path : String) (stack : Stack) (qs : List QueuedExpr) :
    Session.run.run (g.fileSession path none stack qs []) =
      (Session.runAll qs).run
        (g.fileSession path none stack qs []) := by
  rw [Session.run, Action.run_bind_of_silent (Action.run_get _)]
  rfl

theorem transcript_of_failed (h : RunsFile files arguments settings path cs)
    (hmake : Stack.make settings.stackSize = .ok stack)
    (hparsed : ∀ m ∈ LogicalLine.ofText cs, ∃ e, Expr.parse m.text = .ok e)
    {before after : List LogicalLine} {l : LogicalLine} {as : List Answer}
    (hls : LogicalLine.ofText cs = before ++ l :: after)
    (hanswers : (setting coloured settings).Answers before as)
    (hl : (setting coloured settings).lineAnswer l.text = .error f)
    (hreport : f.report? = some report) (input : String) :
    transcript coloured files arguments input =
      ⟨(setting coloured settings).warnings path before as ++ lineReport coloured path l report,
        "", 1⟩ := by
  obtain ⟨qs, hqs, hparse⟩ := Setting.exists_queue hparsed
  have hmem : l ∈ LogicalLine.ofText cs := by
    rw [hls]
    exact List.mem_append_cons_self
  -- the queue is divided as the lines are
  obtain ⟨ps, rest, rfl, rfl, hrest⟩ := List.map_eq_append_iff.mp (hqs.symm.trans hls)
  obtain ⟨q, qs', rfl, rfl, rfl⟩ := List.map_eq_cons_iff.mp hrest
  have hps := (List.forall_mem_append.mp hparse).1
  have hq := (List.forall_mem_cons.mp (List.forall_mem_append.mp hparse).2).1
  have hfails : (setting coloured settings).answerOf q.tree = .error f := by
    rw [← Setting.lineAnswer_of_parse hq]
    exact hl
  obtain ⟨t, results, hrunAll⟩ := Setting.run_runAll_error (Setting.fits_of_make hmake rfl) path
    (ps ++ q :: qs') ps qs' (Setting.answers_lineOf hps hanswers) hfails
  rw [← run_run_of_file] at hrunAll
  have hrun := run_interpret_of_start (run_start_of_parsed h hmake hqs hparse) hrunAll
  rw [← h.action_eq input] at hrun
  have hdrawn := (Setting.usual_of_lineAnswer hl).drawn hreport
  rw [transcript_of_error h.settled rfl hreport hdrawn hrun]
  simp only [Setting.fileSession, errorText_fileReporter (LogicalLine.text_ne_of_mem hmem)]
  rfl

theorem transcript_of_answers (h : RunsFile files arguments settings path cs)
    (hmake : Stack.make settings.stackSize = .ok stack) {as : List Answer}
    (hanswers : (setting coloured settings).Answers (LogicalLine.ofText cs) as)
    (input : String) :
    transcript coloured files arguments input =
      ⟨(setting coloured settings).warnings path (LogicalLine.ofText cs) as ++
        String.join (as.map fun a => a.result ++ "\n"), "", 0⟩ := by
  have hparsed : ∀ m ∈ LogicalLine.ofText cs, ∃ e, Expr.parse m.text = .ok e :=
    Setting.parsed_of_answers hanswers
  obtain ⟨qs, hqs, hparse⟩ := Setting.exists_queue hparsed
  obtain ⟨t, -, hrunAll⟩ := Setting.run_runAll (Setting.fits_of_make hmake rfl) path qs qs []
    (Setting.answers_lineOf hparse (hqs ▸ hanswers))
  rw [← run_run_of_file] at hrunAll
  have hrun := run_interpret_of_start (run_start_of_parsed h hmake hqs hparse) hrunAll
  rw [← h.action_eq input] at hrun
  rw [transcript_of_ok h.settled hrun]
  simp only [Setting.fileSession, List.nil_append, List.map_map, hqs]
  rfl

/-- What is printed of a stack that cannot be made. -/
def stackReport (coloured : Bool) (i : Internal) : String :=
  Ink.error.paint coloured "[internal] " ++ Ink.error.paint coloured "error: " ++
    "unknown error: '" ++ Ink.bold.paint coloured (i.kind ++ ": " ++ i.message) ++ "'\n"

/-- The report of an internal failure. -/
def internalReport (i : Internal) : Report :=
  { Report.onWhole (.text "unknown error: " :: Complaint.quotedSnippet 0)
      [i.kind ++ ": " ++ i.message] with internal := true }

theorem errorReport_internal (coloured : Bool) (i : Internal) :
    errorReport coloured (internalReport i) = stackReport coloured i := by
  have hopening : "unknown error: '" = "unknown error: " ++ "'" := rfl
  have hclosing : "'\n" = "'" ++ "\n" := rfl
  have hhidden : (internalReport i).showsDiagnosis = false := rfl
  have hstyled : (internalReport i).styled coloured =
      "unknown error: " ++
        ("'" ++ (Ink.bold.paint coloured (i.kind ++ ": " ++ i.message) ++ "'")) := by
    simp only [internalReport, Report.styled, Report.onWhole, Template.fill,
      Complaint.quotedSnippet, Piece.fill, List.map_cons, List.map_nil, List.getElem?_cons_zero,
      Option.map_some, Option.getD_some, String.join_cons, String.join_nil, String.append_empty]
  rw [errorReport, hhidden, hstyled, stackReport, hopening, hclosing]
  simp only [internalReport, Report.onWhole, ↓reduceIte, Bool.false_eq_true, String.append_empty,
    String.append_assoc]

/-- A session is not started without a stack, and then no line is in work. -/
theorem transcript_of_make_error (h : RunsFile files arguments settings path cs) {i : Internal}
    (hmake : Stack.make settings.stackSize = .error i) (input : String) :
    transcript coloured files arguments input = ⟨stackReport coloured i, "", 1⟩ := by
  have hreport : (Failure.internal i).report? = some (internalReport i) := rfl
  have hrun : (interpret files settings path).run (reporter coloured) = _ :=
    Action.run_bind_of_error
      (Session.run_start_of_make_error files (settings.fileSession path) _ h.strategy_mem hmake)
  rw [← h.action_eq input] at hrun
  have hdrawn : (internalReport i).drawingFault? = none := Report.drawingFault?_of_internal rfl
  rw [transcript_of_error h.settled rfl hreport hdrawn hrun, String.empty_append, errorText_eq]
  exact congrArg (fun out : String => (⟨out, "", 1⟩ : Transcript)) (errorReport_internal coloured i)

/-- With a stack the lines of the file decide how a run ends. -/
theorem fileRun_of_make (h : RunsFile files arguments settings path cs)
    (hmake : Stack.make settings.stackSize = .ok stack) (coloured : Bool) (input : String) :
    FileRun (setting coloured settings) path (LogicalLine.ofText cs)
      (transcript coloured files arguments input) := by
  rcases Setting.forall_ok_or_first_error (fun l => Expr.parse l.text) (LogicalLine.ofText cs) with
    hparsed | ⟨before, l, after, f, hls, hbefore, hl⟩
  · rcases Setting.forall_ok_or_first_error
      (fun l => (setting coloured settings).lineAnswer l.text) (LogicalLine.ofText cs) with
      hall | ⟨before, l, after, f, hls, hbefore, hl⟩
    · obtain ⟨as, hanswers⟩ := Setting.exists_answers hall
      rw [transcript_of_answers h hmake hanswers input]
      exact .answered hanswers
    · obtain ⟨as, hanswers⟩ := Setting.exists_answers hbefore
      obtain ⟨report, hreport, -⟩ := (Setting.usual_of_lineAnswer hl).exists_report
      rw [transcript_of_failed h hmake hparsed hls hanswers hl hreport input]
      exact .failed hparsed hls hanswers hl hreport
  · obtain ⟨report, hreport, -⟩ := (Expr.usual_of_parse hl).exists_report
    rw [transcript_of_unparsed h hmake hls hbefore hl hreport input]
    exact .unparsed hls hbefore hl hreport

/-- Main result: a run of a file stops at the first line that cannot be parsed, or at the first
line that fails, or it prints all results.  A stack beyond the memory is the one other way to
fail. -/
theorem file_all_or_nothing (h : RunsFile files arguments settings path cs) (coloured : Bool)
    (input : String) :
    ((∀ n, settings.stackSize = some n → n < Stack.memoryLimit) →
      FileRun (setting coloured settings) path (LogicalLine.ofText cs)
        (transcript coloured files arguments input)) ∧
    (∀ n, settings.stackSize = some n → Stack.memoryLimit ≤ n →
      ∃ i : Internal, (i = .capacityTooLarge ∨ i = .outOfMemory) ∧
        transcript coloured files arguments input = ⟨stackReport coloured i, "", 1⟩) := by
  constructor
  · intro hlt
    have hmake := Stack.make_of_lt (Settings.listed_of_ofArguments h.settled).2 hlt
    exact fileRun_of_make h hmake coloured input
  · intro n hn hle
    obtain ⟨i, hi, hmake⟩ := Stack.make_of_le hle
    rw [← hn] at hmake
    exact ⟨i, hi, transcript_of_make_error h hmake input⟩

/-- Files that all have one text, of characters below 128. -/
def filled (text : String) : Files :=
  fun _ => some (text.toList.map fun c => c.toNat.toUInt8)

/-- Two lines, of which the first is continued behind a comment, and the second is not parsed. -/
theorem file_all_or_nothing_two_lines :
    RunsFile (filled "1 + (2 ;; sum\n* 3)\n\n2 /\n") ["--stack-size", "3", "calc.ac"]
        ⟨some "calc.ac", .vm, some 3, false, false⟩ "calc.ac"
        "1 + (2 ;; sum\n* 3)\n\n2 /\n".toList ∧
      FileRun ⟨false, .vm, some 3, false⟩ "calc.ac" [⟨"1 + (2 * 3)", 1⟩, ⟨"2 /", 4⟩]
        (transcript false (filled "1 + (2 ;; sum\n* 3)\n\n2 /\n")
          ["--stack-size", "3", "calc.ac"] "") := by
  have h : RunsFile (filled "1 + (2 ;; sum\n* 3)\n\n2 /\n") ["--stack-size", "3", "calc.ac"]
      ⟨some "calc.ac", .vm, some 3, false, false⟩ "calc.ac"
      "1 + (2 ;; sum\n* 3)\n\n2 /\n".toList := ⟨rfl, rfl, rfl, by decide, rfl⟩
  have hsize : ∀ n, (some 3 : Option Int) = some n → n < Stack.memoryLimit := by
    rintro n ⟨⟩
    decide
  exact ⟨h, (file_all_or_nothing h false "").1 hsize⟩

/-- A stack that does not fit into memory ends even a run of a file that needs no stack. -/
theorem file_without_stack :
    ∃ settings : Settings,
      RunsFile (filled "1\n")
        ["--strategy", "tree", "--stack-size", "9223372036854775808", "calc.ac"] settings "calc.ac"
        ['1', '\n'] ∧
      (∃ as, (setting false settings).Answers (LogicalLine.ofText ['1', '\n']) as) ∧
      ¬ FileRun (setting false settings) "calc.ac" (LogicalLine.ofText ['1', '\n'])
        (transcript false (filled "1\n")
          ["--strategy", "tree", "--stack-size", "9223372036854775808", "calc.ac"] "") := by
  let settings : Settings := ⟨some "calc.ac", .tree, some 9223372036854775808, false, false⟩
  have h : RunsFile (filled "1\n")
      ["--strategy", "tree", "--stack-size", "9223372036854775808", "calc.ac"] settings "calc.ac"
      ['1', '\n'] := ⟨rfl, rfl, rfl, by decide, rfl⟩
  let one : Expr := .literal (Binary64.ofWord false 4607182418800017408)
  have hone : one.WellFormed := trivial
  have htext : one.text = "1" := by decide +kernel
  have hparse : Expr.parse "1" = .ok one := by
    rw [← htext]
    exact Expr.parseWithin_text hone (by decide)
  obtain ⟨a, ha⟩ : ∃ a, (setting false settings).lineAnswer "1" = .ok a := by
    rw [Setting.lineAnswer_of_parse hparse]
    exact ⟨_, rfl⟩
  have hanswers : ∃ as, (setting false settings).Answers (LogicalLine.ofText ['1', '\n']) as :=
    ⟨[a], .cons ha .nil⟩
  have hmake : Stack.make settings.stackSize = .error .capacityTooLarge := rfl
  refine ⟨settings, h, hanswers, ?_⟩
  intro hrun
  have hexit := hrun.exit_eq_zero_iff.mpr hanswers
  rw [transcript_of_make_error h hmake] at hexit
  cases hexit

end Run

end Calculator
