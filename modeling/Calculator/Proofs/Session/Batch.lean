import Calculator.Proofs.Session.LogicalLines
import Calculator.Proofs.Session.Setting

/-!
Sessions of a file.  All logical lines are read and queued before the first of them is run, and the
results are kept until the last one was run.  So a session of a file either stops at the first line
that cannot be read, or at the first line that cannot be run, or it has the answers to all lines.
-/
namespace Calculator

namespace Setting

variable (g : Setting)

/-- The reporter while a line of a file is in work, or while none is. -/
def fileReporter (path : String) (line : Option LogicalLine) : Reporter :=
  ⟨true, g.coloured, [⟨path, line.map LogicalLine.text, line.map LogicalLine.number⟩]⟩

/-- A session of a file while one of its lines is in work, or while none is. -/
def fileSession (path : String) (line : Option LogicalLine) (stack : Stack)
    (queue : List QueuedExpr) (results : List String) : Session :=
  { reporter := g.fileReporter path line, path, strategy := g.strategy, interactive := false,
    assembly := false, emitting := g.emitting, stack, queue, records := [], results }

/-- The answers to lines that are all answered. -/
def Answers (ls : List LogicalLine) (as : List Answer) : Prop :=
  List.Forall₂ (fun l a => g.lineAnswer l.text = .ok a) ls as

/-- The warnings that are printed with the answers. -/
def warnings (path : String) (ls : List LogicalLine) (as : List Answer) : String :=
  String.join (List.zipWith
    (fun l a => a.warningAt g.coloured (LogicalLine.place path l.number) l.text) ls as)

variable {g} {path text : String} {number : Int} {stack : Stack} {queue qs : List QueuedExpr}
  {q : QueuedExpr} {results : List String} {ls : List LogicalLine} {l : LogicalLine}
  {as : List Answer} {e : Expr} {f : Failure}

theorem governs_fileSession (h : g.Fits stack) (path : String) (line : Option LogicalLine)
    (queue : List QueuedExpr) (results : List String) :
    g.Governs (g.fileSession path line stack queue results) :=
  ⟨rfl, rfl, h⟩

/-- A warning stands at the line that is in work. -/
theorem warning_fileReporter (path : String) (l : LogicalLine) (a : Answer) :
    a.warning (g.fileReporter path (some l)) l.text =
      a.warningAt g.coloured (LogicalLine.place path l.number) l.text := by
  have hlocation : (g.fileReporter path (some l)).traceback.location =
      LogicalLine.place path l.number := by
    simp [fileReporter, Traceback.location, Traceback.numberText, LogicalLine.place]
  rw [Answer.warning_eq, hlocation]
  rfl

/-! ### Reading lines -/

/-- The line that a queued expression was read from. -/
def lineOf (q : QueuedExpr) : LogicalLine :=
  ⟨q.text, q.number⟩

/-- An expression with a number of its own is queued behind the others. -/
theorem enqueue_eq_append (h : ∀ q' ∈ queue, q'.number ≠ q.number) :
    Session.enqueue q queue = queue ++ [q] := by
  induction queue with
  | nil => rfl
  | cons q' queue ih =>
      rcases List.forall_mem_cons.mp h with ⟨hq', hqueue⟩
      rw [Session.enqueue, if_neg (by simpa using hq'), ih hqueue, List.cons_append]

/-- The place of a file is the only one of its traceback. -/
theorem run_registerFileLine (path : String) (line : Option LogicalLine) (l : LogicalLine)
    (stack : Stack) (queue : List QueuedExpr) (results : List String) :
    (Session.registerLine l.text l.number).run (g.fileSession path line stack queue results) =
      ⟨"", g.fileSession path (some l) stack queue results, .ok ()⟩ := by
  have hput : (g.fileReporter path line).registerLine path (some l.text) (some l.number) =
      g.fileReporter path (some l) := by
    simp [fileReporter, Reporter.registerLine, Traceback.put]
  rw [Session.registerLine, Action.run_modify]
  exact congrArg (fun r => (⟨"", { g.fileSession path (some l) stack queue results with
    reporter := r }, .ok ()⟩ : Outcome Session Unit)) hput

theorem run_removeFileLine (path : String) (line : Option LogicalLine) (stack : Stack)
    (queue : List QueuedExpr) (results : List String) :
    Session.removeLine.run (g.fileSession path line stack queue results) =
      ⟨"", g.fileSession path none stack queue results, .ok ()⟩ := by
  have hput : (g.fileReporter path line).removeLine path = g.fileReporter path none := by
    simp [fileReporter, Reporter.removeLine, Reporter.registerFile, Traceback.put]
  rw [Session.removeLine, Action.run_modify]
  exact congrArg (fun r => (⟨"", { g.fileSession path none stack queue results with
    reporter := r }, .ok ()⟩ : Outcome Session Unit)) hput

/-- A line is queued when it is read; a line that cannot be read stays in work. -/
theorem run_addLine (path : String) (l : LogicalLine) (stack : Stack) (queue : List QueuedExpr) :
    (Session.add l.text l.number).run (g.fileSession path none stack queue []) =
      match Expr.parse l.text with
      | .ok e =>
        ⟨"", g.fileSession path none stack (Session.enqueue ⟨l.number, l.text, e⟩ queue) [], .ok ()⟩
      | .error f => ⟨"", g.fileSession path (some l) stack queue [], .error f⟩ := by
  have haccept : (g.fileSession path (some l) stack queue []).accept l.text l.number =
      (Expr.parse l.text).map fun tree =>
        g.fileSession path (some l) stack (Session.enqueue ⟨l.number, l.text, tree⟩ queue) [] := rfl
  rw [Session.add, Action.run_bind_of_silent (run_registerFileLine path none l stack queue []),
    Action.run_bind_of_silent (Action.run_get _), haccept]
  cases Expr.parse l.text with
  | error f => rfl
  | ok e =>
      simp only [Except.map]
      rw [Action.run_bind_of_silent (Action.run_ofExcept (.ok _) _),
        Action.run_bind_of_silent (Action.run_modify _ _), run_removeFileLine]

/-- Lines that can all be read are queued in order. -/
theorem run_addAll (path : String) (stack : Stack) (queue qs : List QueuedExpr)
    (hparse : ∀ q ∈ qs, Expr.parse q.text = .ok q.tree)
    (hnumbers : (queue ++ qs).Pairwise fun q q' => q.number < q'.number) :
    (Session.addAll (qs.map lineOf)).run (g.fileSession path none stack queue []) =
      ⟨"", g.fileSession path none stack (queue ++ qs) [], .ok ()⟩ := by
  induction qs generalizing queue with
  | nil =>
      rw [List.append_nil]
      rfl
  | cons q qs ih =>
      rcases List.forall_mem_cons.mp hparse with ⟨hq, hqs⟩
      have hfresh : ∀ q' ∈ queue, q'.number ≠ q.number := by
        intro q' hq'
        have hlt := (List.pairwise_append.mp hnumbers).2.2 q' hq' q List.mem_cons_self
        exact Int.ne_of_lt hlt
      have hqueue : Session.enqueue ⟨q.number, q.text, q.tree⟩ queue = queue ++ [q] :=
        enqueue_eq_append hfresh
      have hadd := run_addLine (g := g) path (lineOf q) stack queue
      simp only [lineOf, hq, hqueue] at hadd
      simp only [List.map_cons, Session.addAll, lineOf]
      rw [Action.run_bind_of_silent hadd, ih (queue ++ [q]) hqs]
      · rw [List.append_assoc, List.singleton_append]
      · rwa [List.append_assoc, List.singleton_append]

theorem addAll_append (ls ms : List LogicalLine) :
    Session.addAll (ls ++ ms) = (Session.addAll ls >>= fun _ => Session.addAll ms) := by
  induction ls with
  | nil => exact (pure_bind () fun _ => Session.addAll ms).symm
  | cons l ls ih =>
      rw [List.cons_append, Session.addAll, Session.addAll, ih, bind_assoc]

/-- Reading stops at a line that cannot be read. -/
theorem run_addAll_error (path : String) (stack : Stack) (qs : List QueuedExpr)
    (after : List LogicalLine) (hparse : ∀ q ∈ qs, Expr.parse q.text = .ok q.tree)
    (hnumbers : qs.Pairwise fun q q' => q.number < q'.number)
    (hl : Expr.parse l.text = .error f) :
    (Session.addAll (qs.map lineOf ++ l :: after)).run (g.fileSession path none stack [] []) =
      ⟨"", g.fileSession path (some l) stack qs [], .error f⟩ := by
  have hbefore := run_addAll (g := g) path stack [] qs hparse hnumbers
  have hadd := run_addLine (g := g) path l stack qs
  rw [hl] at hadd
  rw [addAll_append, Action.run_bind_of_silent hbefore, Session.addAll]
  exact Action.run_bind_of_error hadd

/-! ### Lines that are parsed and answered -/

/-- A list is worked off without an error, or it has a first element with one. -/
theorem forall_ok_or_first_error {ε α β : Type} (f : β → Except ε α) (bs : List β) :
    (∀ b ∈ bs, ∃ a, f b = .ok a) ∨
      ∃ before b after e, bs = before ++ b :: after ∧ (∀ b ∈ before, ∃ a, f b = .ok a) ∧
        f b = .error e := by
  induction bs with
  | nil => exact .inl (List.forall_mem_nil _)
  | cons b bs ih =>
      cases hb : f b with
      | error e => exact .inr ⟨[], b, bs, e, rfl, List.forall_mem_nil _, hb⟩
      | ok a =>
          rcases ih with hall | ⟨before, b', after, e, rfl, hbefore, hb'⟩
          · exact .inl (List.forall_mem_cons.mpr ⟨⟨a, hb⟩, hall⟩)
          · exact .inr ⟨b :: before, b', after, e, rfl,
              List.forall_mem_cons.mpr ⟨⟨a, hb⟩, hbefore⟩, hb'⟩

theorem exists_queue (h : ∀ l ∈ ls, ∃ e, Expr.parse l.text = .ok e) :
    ∃ qs : List QueuedExpr, ls = qs.map lineOf ∧
      ∀ q ∈ qs, Expr.parse q.text = .ok q.tree := by
  induction ls with
  | nil => exact ⟨[], rfl, List.forall_mem_nil _⟩
  | cons l ls ih =>
      rcases List.forall_mem_cons.mp h with ⟨⟨e, he⟩, hls⟩
      rcases ih hls with ⟨qs, rfl, hqs⟩
      exact ⟨⟨l.number, l.text, e⟩ :: qs, rfl, List.forall_mem_cons.mpr ⟨he, hqs⟩⟩

theorem exists_answers {ls : List LogicalLine}
    (h : ∀ l ∈ ls, ∃ a, g.lineAnswer l.text = .ok a) : ∃ as, g.Answers ls as := by
  induction ls with
  | nil => exact ⟨[], .nil⟩
  | cons l ls ih =>
      rcases List.forall_mem_cons.mp h with ⟨⟨a, ha⟩, hls⟩
      rcases ih hls with ⟨as, has⟩
      exact ⟨a :: as, .cons ha has⟩

theorem lineAnswer_of_parse (h : Expr.parse text = .ok e) :
    g.lineAnswer text = g.answerOf e := by
  rw [lineAnswer, h]
  rfl

/-- Lines are answered as the trees that they were parsed to. -/
theorem answers_lineOf (hparse : ∀ q ∈ qs, Expr.parse q.text = .ok q.tree)
    (h : g.Answers (qs.map lineOf) as) :
    List.Forall₂ (fun q a => g.answerOf q.tree = .ok a) qs as := by
  induction qs generalizing as with
  | nil =>
      cases h
      exact .nil
  | cons q qs ih =>
      rcases List.forall_mem_cons.mp hparse with ⟨hq, hqs⟩
      cases h with
      | cons ha has =>
          rw [lineOf, lineAnswer_of_parse hq] at ha
          exact .cons ha (ih hqs has)

theorem parse_of_lineAnswer {a : Answer} (h : g.lineAnswer text = .ok a) :
    ∃ e, Expr.parse text = .ok e := by
  rw [lineAnswer] at h
  cases hparse : Expr.parse text with
  | error f =>
      rw [hparse] at h
      cases h
  | ok e => exact ⟨e, rfl⟩

theorem answered_of_mem (h : g.Answers ls as) (hl : l ∈ ls) :
    ∃ a, g.lineAnswer l.text = .ok a := by
  induction h with
  | nil => cases hl
  | @cons m a ls as ha _ ih =>
      rcases List.mem_cons.mp hl with rfl | hl
      · exact ⟨a, ha⟩
      · exact ih hl

theorem answers_unique {bs : List Answer} (h : g.Answers ls as) (h' : g.Answers ls bs) :
    as = bs := by
  induction h generalizing bs with
  | nil =>
      cases h'
      rfl
  | @cons l a ls as ha _ ih =>
      cases h' with
      | cons hb hbs =>
          obtain rfl := Except.ok.inj (ha.symm.trans hb)
          rw [ih hbs]

theorem parsed_of_answers (h : g.Answers ls as) : ∀ m ∈ ls, ∃ e, Expr.parse m.text = .ok e := by
  intro m hm
  obtain ⟨a, ha⟩ := answered_of_mem h hm
  exact parse_of_lineAnswer ha

/-- The lines of a text that are queued are numbered in increasing order. -/
theorem pairwise_queue (cs : List Char)
    (h : (qs.map lineOf).Sublist (LogicalLine.ofText cs)) :
    qs.Pairwise fun q q' => q.number < q'.number := by
  have hlines : (LogicalLine.ofText cs).Pairwise fun l m => l.number < m.number :=
    LogicalLine.pairwise_number (by simp)
  have hmapped := hlines.sublist h
  rwa [List.pairwise_map] at hmapped

/-! ### Running lines -/

/-- A queued line is run while it is in work, and it stays in work if it fails. -/
theorem run_runLineOf (h : g.Fits stack) (path : String) (queue : List QueuedExpr)
    (results : List String) (q : QueuedExpr) :
    ∃ t, g.Fits t ∧ (Session.runQueued q).run (g.fileSession path none stack queue results) =
      match g.answerOf q.tree with
      | .ok a =>
        ⟨a.warningAt g.coloured (LogicalLine.place path q.number) q.text,
          g.fileSession path none t queue (results ++ [a.result]), .ok ()⟩
      | .error f => ⟨"", g.fileSession path (some (lineOf q)) t queue results, .error f⟩ := by
  obtain ⟨t, ht, hrun⟩ := run_runTree_answerOf
    (governs_fileSession h path (some (lineOf q)) queue results) q.text q.tree
  refine ⟨t, ht, ?_⟩
  have hregister : (Session.registerLine q.text q.number).run
      (g.fileSession path none stack queue results) =
      ⟨"", g.fileSession path (some (lineOf q)) stack queue results, .ok ()⟩ :=
    run_registerFileLine path none (lineOf q) stack queue results
  rw [Session.runQueued, Action.run_bind_of_silent hregister,
    Action.run_bind_of_silent (Action.run_get _)]
  -- a session of a file keeps its queue
  have hlastly : ((Session.runTree q.text q.tree).lastly fun s' =>
      if (g.fileSession path (some (lineOf q)) stack queue results).interactive then
        s'.dequeue q.number else s') = Session.runTree q.text q.tree := rfl
  rw [hlastly]
  cases hanswer : g.answerOf q.tree with
  | error f =>
      rw [hanswer] at hrun
      exact Action.run_bind_of_error hrun
  | ok a =>
      rw [hanswer] at hrun
      have hwarning : a.warning (g.fileReporter path (some (lineOf q))) q.text =
          a.warningAt g.coloured (LogicalLine.place path q.number) q.text :=
        warning_fileReporter path (lineOf q) a
      have hran : (Session.runTree q.text q.tree).run
          (g.fileSession path (some (lineOf q)) stack queue results) =
          ⟨a.warningAt g.coloured (LogicalLine.place path q.number) q.text,
            g.fileSession path (some (lineOf q)) t queue (results ++ [a.result]), .ok ()⟩ := by
        rw [← hwarning]
        exact hrun
      rw [Action.run_bind_of_ok hran, run_removeFileLine, String.append_empty]

/-- Lines that can all be run leave their answers: the warnings are printed, the results kept. -/
theorem run_runAll (h : g.Fits stack) (path : String) (queue qs : List QueuedExpr)
    (results : List String)
    (hanswers : List.Forall₂ (fun q a => g.answerOf q.tree = .ok a) qs as) :
    ∃ t, g.Fits t ∧ (Session.runAll qs).run (g.fileSession path none stack queue results) =
      ⟨g.warnings path (qs.map lineOf) as,
        g.fileSession path none t queue (results ++ as.map Answer.result), .ok ()⟩ := by
  induction hanswers generalizing stack results with
  | nil =>
      refine ⟨stack, h, ?_⟩
      rw [List.map_nil, List.map_nil, List.append_nil]
      rfl
  | @cons q a qs as hq hqs ih =>
      obtain ⟨t, ht, hrun⟩ := run_runLineOf h path queue results q
      rw [hq] at hrun
      obtain ⟨u, hu, hrest⟩ := ih ht (results ++ [a.result])
      refine ⟨u, hu, ?_⟩
      rw [Session.runAll, Action.run_bind_of_ok hrun, hrest]
      simp only [List.map_cons, List.append_assoc, List.singleton_append, warnings,
        List.zipWith_cons_cons, lineOf, String.join_cons]

theorem runAll_append (qs ps : List QueuedExpr) :
    Session.runAll (qs ++ ps) = (Session.runAll qs >>= fun _ => Session.runAll ps) := by
  induction qs with
  | nil => exact (pure_bind () fun _ => Session.runAll ps).symm
  | cons q qs ih =>
      rw [List.cons_append, Session.runAll, Session.runAll, ih, bind_assoc]

/-- Running stops at a line that cannot be run, after the warnings of the lines before it. -/
theorem run_runAll_error (h : g.Fits stack) (path : String) (queue qs after : List QueuedExpr)
    (hanswers : List.Forall₂ (fun q a => g.answerOf q.tree = .ok a) qs as)
    (hq : g.answerOf q.tree = .error f) :
    ∃ t results, (Session.runAll (qs ++ q :: after)).run (g.fileSession path none stack queue []) =
      ⟨g.warnings path (qs.map lineOf) as,
        g.fileSession path (some (lineOf q)) t queue results, .error f⟩ := by
  obtain ⟨t, ht, hbefore⟩ := run_runAll h path queue qs [] hanswers
  obtain ⟨u, -, hrun⟩ := run_runLineOf ht path queue ([] ++ as.map Answer.result) q
  rw [hq] at hrun
  have hrest : (Session.runAll (q :: after)).run
      (g.fileSession path none t queue ([] ++ as.map Answer.result)) =
      ⟨"", g.fileSession path (some (lineOf q)) u queue ([] ++ as.map Answer.result), .error f⟩ :=
    Action.run_bind_of_error hrun
  refine ⟨u, [] ++ as.map Answer.result, ?_⟩
  rw [runAll_append, Action.run_bind_of_ok hbefore, hrest, String.append_empty]

end Setting

end Calculator
