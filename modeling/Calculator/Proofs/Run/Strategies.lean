import Calculator.Proofs.Expr.Nesting
import Calculator.Proofs.Run.File
import Calculator.Proofs.Shell.Switching
import Calculator.Proofs.Text.Decoding

/-!
Runs under different strategies.  A strategy is chosen for a whole file, and may be changed between
the lines of a shell; where the stack has room for every program, and every tree is low enough for
all strategies or too high for all of them, nothing that is printed tells which one was chosen.  In
between there are trees that are evaluated but not compiled, and a sum of 993 ones is one of them.
-/
namespace Calculator

namespace Setting

variable {g : Setting} {ls : List LogicalLine} {as : List Answer}

/-- The strategy does not show in the answers to lines for which it does not matter. -/
theorem Answers.withStrategy (h : g.Answers ls as)
    (hneutral : ∀ l ∈ ls, g.NeutralLine l.text) (strategy : Strategy) :
    (g.withStrategy strategy).Answers ls as := by
  induction h with
  | nil => exact .nil
  | @cons l a ls as ha _ ih =>
      obtain ⟨hl, hls⟩ := List.forall_mem_cons.mp hneutral
      exact .cons ((lineAnswer_withStrategy hl strategy).trans ha) (ih hls)

end Setting

namespace Run

open Calculator.Expr (sumChars)
open Shell (Command Reached SameButStrategy isSwitch completed takeLine)

variable {coloured : Bool} {files : Files} {arguments arguments' : List String}
  {settings : Settings} {strategy : Strategy} {path input : String} {cs : List Char} {g : Setting}

/-- The strategy does not show in a run of a file if it does not matter for any of its lines. -/
theorem transcript_eq_of_neutral (h : RunsFile files arguments settings path cs)
    (h' : RunsFile files arguments' { settings with strategy } path cs)
    (hneutral : ∀ l ∈ LogicalLine.ofText cs, (setting coloured settings).NeutralLine l.text) :
    transcript coloured files arguments input = transcript coloured files arguments' input := by
  cases hmake : Stack.make settings.stackSize with
  | error i => rw [transcript_of_make_error h hmake, transcript_of_make_error h' hmake]
  | ok stack =>
      have hparses := Setting.forall_ok_or_first_error (fun l => Expr.parse l.text)
        (LogicalLine.ofText cs)
      rcases hparses with hparsed | ⟨before, l, after, f, hls, hbefore, hl⟩
      · have hanswers := Setting.forall_ok_or_first_error
          (fun l => (setting coloured settings).lineAnswer l.text) (LogicalLine.ofText cs)
        rcases hanswers with hall | ⟨before, l, after, f, hls, hbefore, hl⟩
        · obtain ⟨as, has⟩ := Setting.exists_answers hall
          have has' : (setting coloured { settings with strategy }).Answers _ as :=
            has.withStrategy hneutral strategy
          rw [transcript_of_answers h hmake has, transcript_of_answers h' hmake has']
          rfl
        · obtain ⟨as, has⟩ := Setting.exists_answers hbefore
          obtain ⟨report, hreport, -⟩ := (Setting.usual_of_lineAnswer hl).exists_report
          rw [hls] at hneutral
          obtain ⟨hearlier, hline⟩ := List.forall_mem_append.mp hneutral
          have has' : (setting coloured { settings with strategy }).Answers before as :=
            has.withStrategy hearlier strategy
          have hl' : (setting coloured { settings with strategy }).lineAnswer l.text = .error f :=
            (Setting.lineAnswer_withStrategy (hline l List.mem_cons_self) strategy).trans hl
          rw [transcript_of_failed h hmake hparsed hls has hl hreport,
            transcript_of_failed h' hmake hparsed hls has' hl' hreport]
          rfl
      · obtain ⟨report, hreport, -⟩ := (Expr.usual_of_parse hl).exists_report
        rw [transcript_of_unparsed h hmake hls hbefore hl hreport,
          transcript_of_unparsed h' hmake hls hbefore hl hreport]

/-- Main result: the choice of a strategy does not show for lines whose programs the stack has room
for, and whose trees are low enough for every strategy or too high for every one.  On such lines
shells that differ in the strategy print the same, line by line, and so do runs of a file; selecting
a strategy prints nothing.  In no state of a session, and on no stack, do the strategies disagree.
On a stack that is too small for some programs the machine overflows exactly on these, and walking
their trees still gives a value.  A tree that is evaluated but too high to be compiled has its value
by walking it, while every other strategy finds that it nests too deeply. -/
theorem strategy_unobservable (coloured : Bool) :
    (∀ sh sh' : Shell, Reached coloured sh → Reached coloured sh' → SameButStrategy sh sh' →
      (∀ line, isSwitch line = true → ((takeLine line).run sh).printed = "") ∧
      ∀ lines lines', lines.filter (!isSwitch ·) = lines'.filter (!isSwitch ·) →
        (∀ line ∈ lines, Command.ofLine line ≠ .strategy "") →
        (∀ text ∈ completed sh.pending lines, (Setting.ofSession sh.session).NeutralLine text) →
        sh.replies lines = sh'.replies lines') ∧
    (∀ (files : Files) (arguments arguments' : List String) (settings : Settings)
      (strategy : Strategy) (path : String) (cs : List Char) (input : String),
      RunsFile files arguments settings path cs →
      RunsFile files arguments' { settings with strategy } path cs →
      (∀ l ∈ LogicalLine.ofText cs, (setting coloured settings).NeutralLine l.text) →
      transcript coloured files arguments input = transcript coloured files arguments' input) ∧
    (∀ (s : Session) (a : Datum) (shown tree machine : String), s.stack.Reachable →
      ((Session.execute a).run s).result ≠
        .error (.complaint (.strategiesDisagree shown tree machine))) ∧
    (∀ (s : Session) (n : Nat) (e : Expr), s.stack.Reachable → s.stack.capacity = some n →
      (((Session.execute (.expr e)).run s).result = .error (.complaint (.stackOverflow n)) ↔
        s.strategy ≠ .tree ∧ e.Overflows n) ∧
      (e.WellFormed → s.strategy = .tree ∨ ¬ e.Overflows n ∧ e.WalkedAlike →
        ((Session.execute (.expr e)).run s).result = e.evaluate) ∧
      (e.Overflows n → ∃ x, e.evaluate = .ok x)) ∧
    ∀ (s : Session) (e : Expr), s.stack.Reachable → e.WellFormed → ¬ e.WalkedAlike →
      ∃ x, e.value = .ok x ∧ ((Session.execute (.expr e)).run s).result =
        if s.strategy = .tree then .ok x else .error .nestsTooDeeply := by
  refine ⟨?_, ?_, ?_, ?_, ?_⟩
  · intro sh sh' h h' hsame
    exact ⟨fun line => Shell.printed_of_isSwitch h,
      fun lines lines' hlines hasks hneutral => hsame.replies_eq h h' hlines hasks hneutral⟩
  · intro files arguments arguments' settings strategy path cs input h h' hneutral
    exact transcript_eq_of_neutral h h' hneutral
  · intro s a shown tree machine hs
    exact Session.execute_ne_disagreement hs.valid a shown tree machine
  · intro s n e hs hcapacity
    obtain ⟨hoverflow, hwalk⟩ := Session.result_execute_of_capacity hs.valid hcapacity e
    exact ⟨hoverflow, fun _ => hwalk, Expr.Overflows.evaluates⟩
  · intro s e hs he hnot
    obtain ⟨-, x, -, hvalue⟩ := he.code_value
    refine ⟨x, hvalue, ?_⟩
    rw [Session.result_execute_of_not_walkedAlike hs.valid hnot, hvalue]
    rfl

/-- The tree of `(1 + 2)`. -/
def onePlusTwo : Expr :=
  .binary .add (.literal (Binary64.ofWord false 4607182418800017408))
    (.literal (Binary64.ofWord false 4611686018427387904))

theorem neutralLine_onePlusTwo {g : Setting} (hcapacity : g.capacity = some 2) :
    g.NeutralLine "(1 + 2)" := by
  have hwell : onePlusTwo.WellFormed := ⟨trivial, trivial⟩
  have htext : onePlusTwo.text = "(1 + 2)" := by decide +kernel
  have hparse : Expr.parse "(1 + 2)" = .ok onePlusTwo := by
    rw [← htext]
    exact Expr.parseWithin_text hwell (by decide)
  intro e he
  obtain rfl := Except.ok.inj (hparse.symm.trans he)
  refine .inr ⟨.inl (by decide), ?_⟩
  rw [hcapacity]
  rintro n ⟨⟩ ⟨p, d, hcompile, hdepth, hfull⟩
  obtain ⟨is, x, rfl, hcode, -⟩ := Expr.exists_code_of_compile hcompile
  obtain rfl := Except.ok.inj ((Program.depth_code hcode).symm.trans hdepth)
  exact absurd hfull (Nat.lt_irrefl 2)

/-- The view of a shell of a strategy and a stack that was just started. -/
def startView (strategy : Strategy) (n : Nat) : View :=
  ⟨⟨false, strategy, some n, false⟩, "", 0⟩

theorem height_sum (n : Nat) : (Expr.sum n).height = n + 1 := by
  rw [Expr.sum, Expr.height_chain, List.length_replicate]

/-- A sum on a stack of two slots, typed and from a file, and on a stack of one slot; and a sum of
993 ones, which is evaluated but not compiled. -/
theorem strategy_unobservable_two_slots :
    ((startView .vm 2).shell (.fixed 2)).replies ["strategy tree", "(1 + 2)", "strategy both"] =
        ((startView .both 2).shell (.fixed 2)).replies ["(1 + 2)"] ∧
      transcript false (filled "(1 + 2)\n")
          ["--strategy", "tree", "--stack-size", "2", "calc.ac"] "" =
        transcript false (filled "(1 + 2)\n")
          ["--strategy", "both", "--stack-size", "2", "calc.ac"] "" ∧
      (∀ shown tree machine,
        ((Session.execute (.expr onePlusTwo)).run
          ((startView .both 2).shell (.fixed 2)).session).result ≠
            .error (.complaint (.strategiesDisagree shown tree machine))) ∧
      ((Session.execute (.expr onePlusTwo)).run
        ((startView .both 1).shell (.fixed 1)).session).result =
          .error (.complaint (.stackOverflow 1)) ∧
      ((Session.execute (.expr (Expr.sum 992))).run
        ((startView .both 1).shell (.fixed 1)).session).result = .error .nestsTooDeeply := by
  have hreached : ∀ strategy ∈ Strategy.listed,
      Reached false ((startView strategy 2).shell (.fixed 2)) := by
    intro strategy hstrategy
    have hstart : ((Session.start (fun _ => none)
        ⟨Session.interactivePath, strategy, some 2, true, false, false⟩).run
          ⟨true, false, []⟩).result = .ok ((startView strategy 2).shell (.fixed 2)).session := by
      cases strategy with
      | tree | vm | both => rfl
      | unlisted name => simp [Strategy.listed] at hstrategy
    exact .start rfl rfl rfl hstart
  have hruns : ∀ strategy arguments, Settings.ofArguments arguments =
      .ok ⟨some "calc.ac", strategy, some 2, false, false⟩ →
      RunsFile (filled "(1 + 2)\n") arguments ⟨some "calc.ac", strategy, some 2, false, false⟩
        "calc.ac" "(1 + 2)\n".toList := by
    intro strategy arguments hsettled
    exact ⟨hsettled, rfl, rfl, by decide, rfl⟩
  have hsmall : onePlusTwo.Overflows 1 := ⟨_, 2, rfl, rfl, by decide⟩
  have hnot : ¬ (Expr.sum 992).WalkedAlike := by
    rw [Expr.WalkedAlike, height_sum]
    decide
  obtain ⟨hshells, hfiles, hagree, hoverflow, hhigh⟩ := strategy_unobservable false
  refine ⟨?_, ?_, ?_, ?_, ?_⟩
  · have hprints := (hshells _ _ (hreached .vm (by decide)) (hreached .both (by decide))
      ⟨rfl, rfl, rfl, rfl⟩).2
    exact hprints _ _ (by decide) (by decide)
      (List.forall_mem_singleton.mpr (neutralLine_onePlusTwo rfl))
  · exact hfiles _ _ _ _ .both _ _ _ (hruns .tree _ rfl) (hruns .both _ rfl) (by
      intro l hl
      obtain rfl : l = ⟨"(1 + 2)", 1⟩ := List.mem_singleton.mp hl
      exact neutralLine_onePlusTwo rfl)
  · intro shown tree machine
    exact hagree _ _ shown tree machine (.fixed 2)
  · exact (hoverflow _ 1 onePlusTwo (.fixed 1) rfl).1.mpr ⟨by decide, hsmall⟩
  · have hsums : ∀ n, ¬ (Expr.sum n).WalkedAlike → ((Session.execute (.expr (Expr.sum n))).run
        ((startView .both 1).shell (.fixed 1)).session).result = .error .nestsTooDeeply := by
      intro n hn
      obtain ⟨x, -, hresult⟩ := hhigh ((startView .both 1).shell (.fixed 1)).session (Expr.sum n)
        (.fixed 1) (Expr.wellFormed_chain _ _) hn
      exact hresult.trans (if_neg (by decide))
    exact hsums 992 hnot

/-! ### A long sum -/

/-- A file of plain characters is read as it is. -/
theorem readFile_filled {text : String} (h : ∀ c ∈ text.toList, Text.Utf8.IsPlain c)
    (hpath : path.toList.contains '\x00' = false) :
    Session.readFile (filled text) path = .ok text.toList := by
  have hdecode : Text.Utf8.decode (text.toList.map fun c => c.toNat.toUInt8) = .ok text.toList :=
    Text.Utf8.decode_octets h
  rw [Session.readFile, hpath]
  simp only [filled, hdecode, Bool.false_eq_true, ↓reduceIte]
  rfl

/-- The line of a sum of ones with `n` signs. -/
def sumLine (n : Nat) : String :=
  String.ofList (sumChars n)

theorem parse_sumLine (n : Nat) : Expr.parse (sumLine n) = .ok (Expr.sum n) := by
  obtain ⟨ts, -, -, hlimit⟩ := (Expr.nests_sum n 0).parse_iff
  exact (hlimit Expr.nestingLimit).mpr (Nat.zero_le _)

theorem isWord_sumChars (n : Nat) : Text.IsWord (sumChars n) := by
  refine ⟨Expr.sumChars_ne_nil n, ?_⟩
  intro c hc
  rcases Expr.mem_sumChars hc with rfl | rfl <;> decide

theorem tidy_sumLine (n : Nat) : LogicalLine.Tidy (sumLine n) := by
  have hword := isWord_sumChars n
  have hflush : Text.Flush (sumChars n) := fun c hc => hword.no_blank c (List.mem_of_mem_head? hc)
  constructor
  · have hright := Text.trimRight_of_isWord hword (List.forall_mem_nil _) []
    rw [List.nil_append, List.append_nil, List.nil_append] at hright
    rw [sumLine, String.toList_ofList, Text.trim_of_flush hflush, hright]
  · rw [sumLine, String.toList_ofList]
    intro hcomment
    rcases Expr.mem_sumChars (hcomment.subset List.mem_cons_self) with hc | hc <;> cases hc

theorem isOpen_sumLine (n : Nat) : LogicalLine.isOpen (sumLine n) = false := by
  have hnone : (sumChars n).count '(' = 0 := by
    rw [List.count_eq_zero]
    intro hc
    rcases Expr.mem_sumChars hc with hc | hc <;> cases hc
  rw [LogicalLine.isOpen, sumLine, String.toList_ofList, hnone]
  exact decide_eq_false (Nat.not_lt_zero _)

/-- The sum is the only logical line of a file that holds its line. -/
theorem ofText_sumLine (n : Nat) :
    LogicalLine.ofText (sumChars n ++ ['\n']) = [⟨sumLine n, 1⟩] := by
  have hchars : (sumLine n).toList = sumChars n := String.toList_ofList
  have hline : Text.IsLine (sumLine n).toList := by
    rw [hchars]
    exact ⟨Expr.sumChars_ne_nil n, (isWord_sumChars n).no_end⟩
  have htext := LogicalLine.ofText_of_tidy (tidy_sumLine n) hline (isOpen_sumLine n)
  rwa [hchars] at htext

/-- Files that all hold that line. -/
def sumFiles (n : Nat) : Files :=
  filled (String.ofList (sumChars n ++ ['\n']))

theorem runsFile_sumFiles (n : Nat) (hsettled : Settings.ofArguments arguments = .ok settings)
    (hfile : settings.file = some "sum.ac") (hassembly : settings.assembly = false) :
    RunsFile (sumFiles n) arguments settings "sum.ac" (sumChars n ++ ['\n']) := by
  refine ⟨hsettled, hfile, hassembly, by decide, ?_⟩
  have hplain : ∀ c ∈ (String.ofList (sumChars n ++ ['\n'])).toList, Text.Utf8.IsPlain c := by
    intro c hc
    rw [String.toList_ofList] at hc
    rcases List.mem_append.mp hc with hc | hc
    · rcases Expr.mem_sumChars hc with rfl | rfl <;> decide
    · obtain rfl := List.mem_singleton.mp hc
      decide
  have hread : Session.readFile (sumFiles n) "sum.ac" =
      .ok (String.ofList (sumChars n ++ ['\n'])).toList := readFile_filled hplain (by decide)
  rwa [String.toList_ofList] at hread

theorem fits_sum (hcapacity : g.capacity = none) (n : Nat) : (Expr.sum n).Fits g.capacity := by
  rw [hcapacity]
  exact Expr.fits_growing _

/-- On a stack that grows, the sum is answered as long as the strategy takes trees of its height. -/
theorem exists_lineAnswer_sumLine {n : Nat} (hcapacity : g.capacity = none)
    (hlow : n + 1 ≤ g.heightLimit) : ∃ a, g.lineAnswer (sumLine n) = .ok a := by
  rw [← height_sum] at hlow
  rw [Setting.lineAnswer_of_parse (parse_sumLine n)]
  exact Setting.exists_answerOf_of_low (Expr.wellFormed_chain _ _) (fits_sum hcapacity n) hlow

theorem lineAnswer_sumLine_of_high {n : Nat} (hcapacity : g.capacity = none)
    (hhigh : g.heightLimit < n + 1) : g.lineAnswer (sumLine n) = .error .nestsTooDeeply := by
  rw [← height_sum] at hhigh
  rw [Setting.lineAnswer_of_parse (parse_sumLine n)]
  exact Setting.answerOf_of_high (Expr.wellFormed_chain _ _) (fits_sum hcapacity n) hhigh

/-- A sum of 993 ones, in a file, is answered by walking its tree, and the answer is printed.  The
machine never gets a program for it, so then only a report is printed. -/
theorem strategy_shows_in_long_sum :
    (∃ a : Answer, transcript false (sumFiles 992) ["--strategy", "tree", "sum.ac"] "" =
      ⟨a.warningAt false (LogicalLine.place "sum.ac" 1) (sumLine 992) ++ (a.result ++ "\n"), "",
        0⟩) ∧
    transcript false (sumFiles 992) ["--strategy", "vm", "sum.ac"] "" =
      ⟨lineReport false "sum.ac" ⟨sumLine 992, 1⟩
        (.general "expression nests too deeply: maximum recursion depth exceeded"), "", 1⟩ := by
  have hmake : Stack.make none = .ok .growing := rfl
  let tree : Settings := ⟨some "sum.ac", .tree, none, false, false⟩
  let machine : Settings := ⟨some "sum.ac", .vm, none, false, false⟩
  constructor
  · have h : RunsFile (sumFiles 992) ["--strategy", "tree", "sum.ac"] tree "sum.ac"
        (sumChars 992 ++ ['\n']) := runsFile_sumFiles 992 rfl rfl rfl
    have hanswered : ∃ a, (setting false tree).lineAnswer (sumLine 992) = .ok a :=
      exists_lineAnswer_sumLine rfl (by decide)
    obtain ⟨a, ha⟩ := hanswered
    have hanswers : (setting false tree).Answers (LogicalLine.ofText (sumChars 992 ++ ['\n']))
        [a] := by
      rw [ofText_sumLine]
      exact .cons ha .nil
    refine ⟨a, ?_⟩
    rw [transcript_of_answers h hmake hanswers, ofText_sumLine, Setting.warnings]
    simp only [List.zipWith_cons_cons, List.zipWith_nil_left, List.map_cons, List.map_nil,
      String.join_cons, String.join_nil, String.append_empty]
    rfl
  · have h : RunsFile (sumFiles 992) ["--strategy", "vm", "sum.ac"] machine "sum.ac"
        (sumChars 992 ++ ['\n']) := runsFile_sumFiles 992 rfl rfl rfl
    have hparsed : ∀ m ∈ LogicalLine.ofText (sumChars 992 ++ ['\n']),
        ∃ e, Expr.parse m.text = .ok e := by
      rw [ofText_sumLine]
      exact List.forall_mem_singleton.mpr ⟨_, parse_sumLine 992⟩
    have hfails : (setting false machine).lineAnswer (sumLine 992) = .error .nestsTooDeeply :=
      lineAnswer_sumLine_of_high rfl (by decide)
    have hls : LogicalLine.ofText (sumChars 992 ++ ['\n']) = [] ++ ⟨sumLine 992, 1⟩ :: [] :=
      ofText_sumLine 992
    rw [transcript_of_failed h hmake hparsed hls .nil hfails rfl]
    exact congrArg (Transcript.mk · "" 1) String.empty_append

end Run

end Calculator
