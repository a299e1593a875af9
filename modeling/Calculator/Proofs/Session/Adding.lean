import Calculator.Proofs.Session.Queue

/-!
Adding one line.  A line that cannot be read leaves the session as it was, but for the traceback,
which names the line.  A line that can be read adds one expression or one record and nothing else,
and no line is in work after it.  When the queue is run, the traceback names the expression that
fails, whatever has been run before it.
-/
namespace Calculator

namespace Traceback

variable {t : Traceback} {place : Place}

/-- The place of an input, if the input is registered. -/
def place? (path : String) (t : Traceback) : Option Place :=
  t.find? (·.path == path)

/-- An input has this place now.  The places of the others are as before, in the same order; an
input that was not registered stands at the end. -/
structure Placed (t : Traceback) (place : Place) (t' : Traceback) : Prop where
  entry : t'.place? place.path = some place
  others : t'.filter (·.path != place.path) = t.filter (·.path != place.path)
  paths : t'.map Place.path =
    if place.path ∈ t.map Place.path then t.map Place.path
    else t.map Place.path ++ [place.path]

theorem place?_put (place : Place) (t : Traceback) :
    (t.put place).place? place.path = some place := by
  induction t with
  | nil => simp [put, place?]
  | cons p t ih =>
      by_cases hsame : p.path = place.path
      · simp [put, place?, hsame]
      · simpa [put, place?, hsame] using ih

theorem filter_put (place : Place) (t : Traceback) :
    (t.put place).filter (·.path != place.path) = t.filter (·.path != place.path) := by
  induction t with
  | nil => simp [put]
  | cons p t ih =>
      by_cases hsame : p.path = place.path
      · simp [put, hsame]
      · simpa [put, hsame] using ih

theorem placed_put (place : Place) (t : Traceback) : t.Placed place (t.put place) where
  entry := place?_put place t
  others := filter_put place t
  paths := map_path_put place t

/-- Only the latest place of an input counts. -/
theorem put_put (place place' : Place) (h : place'.path = place.path) (t : Traceback) :
    (t.put place').put place = t.put place := by
  induction t with
  | nil => simp [put, h]
  | cons p t ih =>
      by_cases hsame : p.path = place.path
      · simp [put, h, hsame]
      · simpa [put, h, hsame] using ih

end Traceback

namespace Session

variable {s s' : Session} {q : QueuedExpr} {qs queue : List QueuedExpr} {text out : String}
  {number : Int} {f : Failure} {files : Files}

/-! ### The line in work -/

theorem traceback_withLine (s : Session) (line : Option String) (number : Option Int) :
    s.reporter.traceback.Placed ⟨s.path, line, number⟩
      (s.withLine line number).reporter.traceback :=
  Traceback.placed_put ⟨s.path, line, number⟩ s.reporter.traceback

theorem withLine_withLine (s : Session) (line line' : Option String) (number number' : Option Int) :
    (s.withLine line' number').withLine line number = s.withLine line number := by
  have hput := Traceback.put_put ⟨s.path, line, number⟩ ⟨s.path, line', number'⟩ rfl
    s.reporter.traceback
  simp only [withLine, Reporter.registerLine, hput]

/-- Whether a line is accepted does not depend on the line in work. -/
theorem accept_withLine (s : Session) (line : Option String) (number' : Option Int) (text : String)
    (number : Int) :
    (s.withLine line number').accept text number =
      (s.accept text number).map (withLine line number') := by
  cases hassembly : s.assembly with
  | false =>
      simp only [accept, withLine, hassembly, Bool.false_eq_true, ↓reduceIte]
      cases Expr.parse text <;> rfl
  | true =>
      simp only [accept, withLine, hassembly, ↓reduceIte]
      cases hline : Record.ofLine text with
      | error c => rfl
      | ok r =>
          simp only
          cases Record.instr r.toDatum <;> rfl

/-- A line is in work after it only if it is not accepted. -/
theorem run_add (s : Session) (text : String) (number : Int) :
    (add text number).run s =
      match s.accept text number with
      | .ok s' => ⟨"", s'.withLine none none, .ok ()⟩
      | .error f => ⟨"", s.withLine (some text) (some number), .error f⟩ := by
  rw [add, registerLine_eq, removeLine_eq, Action.run_bind_of_silent (Action.run_modify _ _),
    Action.run_bind_of_silent (Action.run_get _), accept_withLine]
  cases s.accept text number with
  | error f => exact Action.run_bind_of_error (Action.run_ofExcept _ _)
  | ok s' =>
      simp only [Except.map]
      rw [Action.run_bind_of_silent (Action.run_ofExcept _ _),
        Action.run_bind_of_silent (Action.run_modify _ _), Action.run_modify, withLine_withLine]

/-! ### What one line adds -/

/-- One expression is new: it stands in the place of the one with its number, or at the end if there
is none. -/
inductive Enqueued (q : QueuedExpr) : List QueuedExpr → List QueuedExpr → Prop where
  | atEnd {queue : List QueuedExpr} (hnew : ∀ p ∈ queue, p.number ≠ q.number) :
      Enqueued q queue (queue ++ [q])
  | inPlace {before after : List QueuedExpr} {old : QueuedExpr} (hold : old.number = q.number)
      (hothers : ∀ p ∈ before ++ after, p.number ≠ q.number) :
      Enqueued q (before ++ old :: after) (before ++ q :: after)

theorem Enqueued.cons {p : QueuedExpr} {queue queue' : List QueuedExpr}
    (h : Enqueued q queue queue') (hp : p.number ≠ q.number) :
    Enqueued q (p :: queue) (p :: queue') := by
  cases h with
  | atEnd hnew => exact .atEnd (List.forall_mem_cons.mpr ⟨hp, hnew⟩)
  | @inPlace before after old hold hothers =>
      rw [← List.cons_append, ← List.cons_append]
      exact .inPlace hold (List.forall_mem_cons.mpr ⟨hp, hothers⟩)

theorem enqueued_enqueue (q : QueuedExpr) (hnodup : (queue.map QueuedExpr.number).Nodup) :
    Enqueued q queue (enqueue q queue) := by
  induction queue with
  | nil => exact .atEnd (List.forall_mem_nil _)
  | cons p queue ih =>
      simp only [List.map_cons, List.nodup_cons] at hnodup
      by_cases hsame : p.number = q.number
      · have hothers : ∀ p' ∈ queue, p'.number ≠ q.number := by
          intro p' hp' heq
          apply hnodup.1
          rw [hsame, ← heq]
          exact List.mem_map_of_mem hp'
        simp only [enqueue, hsame, beq_self_eq_true, ↓reduceIte]
        rw [← List.nil_append (p :: queue), ← List.nil_append (q :: queue)]
        exact .inPlace hsame hothers
      · simp only [enqueue, beq_iff_eq, hsame, ↓reduceIte]
        exact (ih hnodup.2).cons hsame

/-- What adding a line comes to.  A line that is refused stays in work, and nothing else is changed.
An expression joins the queue of a session of expressions, and a record the records of a listing;
then no line is in work, and nothing else is changed. -/
inductive Adds (s : Session) (text : String) (number : Int) : Outcome Session Unit → Prop where
  | refused {f : Failure} {t : Traceback} (hrefused : s.accept text number = .error f)
      (hplaced : s.reporter.traceback.Placed ⟨s.path, some text, some number⟩ t) :
      Adds s text number
        ⟨"", { s with reporter := { s.reporter with traceback := t } }, .error f⟩
  | queued {tree : Expr} {queue : List QueuedExpr} {t : Traceback} (hassembly : s.assembly = false)
      (hparse : Expr.parse text = .ok tree) (hqueue : Enqueued ⟨number, text, tree⟩ s.queue queue)
      (hplaced : s.reporter.traceback.Placed ⟨s.path, none, none⟩ t) :
      Adds s text number
        ⟨"", { s with queue, reporter := { s.reporter with traceback := t } }, .ok ()⟩
  | recorded {r : Record} {i : Instr} {t : Traceback} (hassembly : s.assembly = true)
      (hline : Record.ofLine text = .ok r) (hinstr : Record.instr r.toDatum = .ok i)
      (hplaced : s.reporter.traceback.Placed ⟨s.path, none, none⟩ t) :
      Adds s text number
        ⟨"", { s with
          records := s.records ++ [r], reporter := { s.reporter with traceback := t } }, .ok ()⟩

/-- An accepted line of a session of expressions is an expression, which is queued. -/
theorem queued_of_accept (h : s.accept text number = .ok s') (hassembly : s.assembly = false) :
    ∃ tree, Expr.parse text = .ok tree ∧
      s' = { s with queue := enqueue ⟨number, text, tree⟩ s.queue } := by
  rw [accept, if_neg (by simp [hassembly])] at h
  cases hparse : Expr.parse text with
  | error f =>
      rw [hparse] at h
      cases h
  | ok tree =>
      rw [hparse] at h
      exact ⟨tree, rfl, (Except.ok.inj h).symm⟩

/-- An accepted line of a listing is a record of an instruction, which joins the others. -/
theorem recorded_of_accept (h : s.accept text number = .ok s') (hassembly : s.assembly = true) :
    ∃ r i, Record.ofLine text = .ok r ∧ Record.instr r.toDatum = .ok i ∧
      s' = { s with records := s.records ++ [r] } := by
  rw [accept, if_pos hassembly] at h
  cases hline : Record.ofLine text with
  | error c =>
      rw [hline] at h
      cases h
  | ok r =>
      simp only [hline] at h
      cases hinstr : Record.instr r.toDatum with
      | error c =>
          rw [hinstr] at h
          cases h
      | ok i =>
          rw [hinstr] at h
          exact ⟨r, i, rfl, hinstr, (Except.ok.inj h).symm⟩

theorem adds_add (hnodup : (s.queue.map QueuedExpr.number).Nodup) (text : String) (number : Int) :
    s.Adds text number ((add text number).run s) := by
  have hplaced := s.traceback_withLine none none
  rw [run_add]
  cases haccept : s.accept text number with
  | error f => exact .refused haccept (s.traceback_withLine (some text) (some number))
  | ok s' =>
      cases hassembly : s.assembly with
      | false =>
          obtain ⟨tree, hparse, rfl⟩ := queued_of_accept haccept hassembly
          exact .queued hassembly hparse (enqueued_enqueue ⟨number, text, tree⟩ hnodup) hplaced
      | true =>
          obtain ⟨r, i, hline, hinstr, rfl⟩ := recorded_of_accept haccept hassembly
          exact .recorded hassembly hline hinstr hplaced

/-! ### The expression at which a run stops -/

/-- Running expressions in order comes to one that fails. -/
inductive StopsAt : Session → List QueuedExpr → QueuedExpr → Failure → Prop where
  | here {s : Session} {q : QueuedExpr} {qs : List QueuedExpr} {f : Failure}
      (hfailed : ((runQueued q).run s).result = .error f) : StopsAt s (q :: qs) q f
  | later {s s' : Session} {p q : QueuedExpr} {qs : List QueuedExpr} {out : String} {f : Failure}
      (hran : (runQueued p).run s = ⟨out, s', .ok ()⟩) (hstops : StopsAt s' qs q f) :
      StopsAt s (p :: qs) q f

/-- Of what says where a line of the input stands, the second session has all that the first one
has, but for the line in work. -/
structure Resumes (s s' : Session) : Prop where
  stack : s'.stack.Valid
  path_eq : s'.path = s.path
  reporter_eq : ∀ line number,
    (s'.withLine line number).reporter = (s.withLine line number).reporter

/-- An expression is in work while it is run, and stays in work if it fails. -/
theorem ends_runQueued_withLine (hs : s.stack.Valid) (q : QueuedExpr) :
    (runQueued q).Ends s (fun _ s' => s.Resumes s') fun _ s' =>
      s'.reporter = (s.withLine (some q.text) (some q.number)).reporter := by
  have hgoverns : (Setting.ofSession s).Governs (s.withLine (some q.text) (some q.number)) :=
    ⟨rfl, rfl, hs, rfl⟩
  obtain ⟨t, ht, hrun⟩ := Setting.run_runTree_answerOf hgoverns q.text q.tree
  simp only [runQueued, registerLine_eq, removeLine_eq, Action.ends_bind, Action.ends_modify,
    Action.ends_get, Action.ends_lastly]
  cases hanswer : (Setting.ofSession s).answerOf q.tree with
  | error f =>
      rw [hanswer] at hrun
      rw [Action.ends_of_run_error hrun]
      split <;> rfl
  | ok a =>
      rw [hanswer] at hrun
      rw [Action.ends_of_run_ok hrun]
      -- whether or not the expression leaves the queue, of the reporter only the line is another
      have hreporter : ∀ line number, (((s.withLine (some q.text) (some q.number)).withLine none
          none).withLine line number).reporter = (s.withLine line number).reporter := by
        intro line number
        rw [withLine_withLine, withLine_withLine]
      split
      · exact ⟨ht.1, rfl, hreporter⟩
      · exact ⟨ht.1, rfl, hreporter⟩

/-- The expression at which a run stops is the one in work. -/
theorem StopsAt.run (h : s.StopsAt qs q f) (hs : s.stack.Valid) :
    ((runAll qs).run s).result = .error f ∧
      ((runAll qs).run s).state.reporter =
        (s.withLine (some q.text) (some q.number)).reporter := by
  induction h with
  | @here s q qs f hfailed =>
      have hends := ends_runQueued_withLine hs q
      rcases hrun : (runQueued q).run s with ⟨out, s', result⟩
      rw [hrun] at hfailed
      obtain rfl : result = .error f := hfailed
      rw [runAll, Action.run_bind_of_error hrun]
      exact ⟨rfl, (Action.ends_of_run_error hrun).mp hends⟩
  | @later s s' p q qs out f hran hstops ih =>
      have hresumes := (Action.ends_of_run_ok hran).mp (ends_runQueued_withLine hs p)
      obtain ⟨hresult, hreporter⟩ := ih hresumes.stack
      rw [runAll, Action.run_bind_of_ok hran]
      exact ⟨hresult, hreporter.trans (hresumes.reporter_eq _ _)⟩

theorem exists_stopsAt (h : ((runAll qs).run s).result = .error f) : ∃ q, s.StopsAt qs q f := by
  induction qs generalizing s with
  | nil => cases h
  | cons p qs ih =>
      rcases hrun : (runQueued p).run s with ⟨out, s', result⟩
      rw [runAll] at h
      cases result with
      | error f' =>
          rw [Action.run_bind_of_error hrun] at h
          obtain rfl := Except.error.inj h
          exact ⟨p, .here (by rw [hrun])⟩
      | ok x =>
          rw [Action.run_bind_of_ok hrun] at h
          obtain ⟨q, hstops⟩ := ih h
          exact ⟨q, .later hrun hstops⟩

/-- Main result: adding a line to a session that a program can come to have either leaves the
session as it was, but for the traceback, which names the line, or adds one expression or one record
and nothing else, and then no line is in work.  A run of expressions fails just if it comes to one
that fails, and then the traceback names that one. -/
theorem add_changes_nothing_or_adds_one (h : Reachable files s) (text : String) (number : Int) :
    s.Adds text number ((add text number).run s) ∧
      (s.assembly = false → ∀ f,
        ((run.run s).result = .error f ↔ ∃ q, s.StopsAt s.queue q f) ∧
          ∀ q, s.StopsAt s.queue q f → ∃ t,
            (run.run s).state.reporter = { s.reporter with traceback := t } ∧
              s.reporter.traceback.Placed ⟨s.path, some q.text, some q.number⟩ t) := by
  refine ⟨adds_add h.orderly.nodup text number, ?_⟩
  intro hassembly f
  rw [run_eq_runAll hassembly]
  refine ⟨⟨exists_stopsAt, ?_⟩, ?_⟩
  · rintro ⟨q, hstops⟩
    exact (hstops.run h.orderly.stack).1
  · intro q hstops
    exact ⟨_, (hstops.run h.orderly.stack).2, s.traceback_withLine (some q.text) (some q.number)⟩

/-- A session of typed expressions on a machine with one slot. -/
def oneSlotSession : Session :=
  fresh oneSlot (reporterAtStart oneSlot ⟨true, false, []⟩) (.fixed 1)

/-- The sum of two numbers, as a line that is queued. -/
def queuedSum : QueuedExpr where
  number := 1
  text := "2+3"
  tree := .binary .add (.literal ((Numeral.decimal [2] [] 0).value false))
    (.literal ((Numeral.decimal [3] [] 0).value false))

theorem parse_queuedSum : Expr.parse "2+3" = .ok queuedSum.tree := by
  have hscan : Token.scan "2+3" = .ok [⟨.number (.decimal [2] [] 0), ['2'], 0⟩,
      ⟨.operator .add, ['+'], 1⟩, ⟨.number (.decimal [3] [] 0), ['3'], 2⟩] := by
    cbv
  rw [Expr.parse, Expr.parseWithin, hscan]
  rfl

/-- A machine with one slot has no room for the sum.  A line that ends too early is added to a
session that has the sum queued, and the run of that session stops at the sum. -/
theorem add_changes_nothing_or_adds_one_sum :
    ∃ s, Reachable (fun _ => none) s ∧ s.assembly = false ∧
      s.StopsAt s.queue queuedSum (.complaint (.stackOverflow 1)) ∧
      s.Adds "1 +" 2 ((add "1 +" 2).run s) ∧
      (run.run s).result = .error (.complaint (.stackOverflow 1)) ∧
      ∃ t, (run.run s).state.reporter = { s.reporter with traceback := t } ∧
        s.reporter.traceback.Placed ⟨s.path, some "2+3", some 1⟩ t := by
  have hstarted : ((start (fun _ => none) oneSlot).run ⟨true, false, []⟩).result =
      .ok oneSlotSession := by
    rw [run_start_of_make (fun _ => none) oneSlot ⟨true, false, []⟩ (by decide) rfl]
    rfl
  obtain ⟨r, hadd⟩ : ∃ r, (add "2+3" 1).run oneSlotSession =
      ⟨"", { oneSlotSession with reporter := r, queue := [queuedSum] }, .ok ()⟩ :=
    run_add_of_parse rfl parse_queuedSum 1
  have hreachable := (Reachable.start hstarted).add "2+3" 1
  simp only [hadd] at hreachable
  have hstops : StopsAt { oneSlotSession with reporter := r, queue := [queuedSum] } [queuedSum]
      queuedSum (.complaint (.stackOverflow 1)) :=
    .here (result_runQueued hreachable.orderly.stack queuedSum)
  obtain ⟨hadds, hruns⟩ := add_changes_nothing_or_adds_one hreachable "1 +" 2
  obtain ⟨hfails, hplaced⟩ := hruns rfl (.complaint (.stackOverflow 1))
  exact ⟨_, hreachable, rfl, hstops, hadds, hfails.mpr ⟨queuedSum, hstops⟩,
    hplaced queuedSum hstops⟩

end Session

end Calculator
