import Calculator.Proofs.Session.Grouping
import Calculator.Proofs.Session.Resting
import Calculator.Proofs.Session.Sound

/-!
The queue of a session.  A session of typed input runs every expression that was added to it just
once, in the order in which they were added, however adding and running are mixed and wherever a
run fails: an expression leaves the queue when it has been run, with or without success, and those
behind a failure wait for the next run.  Any other session keeps its queue.
-/
namespace Calculator.Session

variable {s s' t : Session} {q : QueuedExpr} {qs queue done rest : List QueuedExpr}
  {results results' : List String} {text out : String} {number : Int} {f : Failure}
  {files : Files}

/-! ### Numbers in the queue -/

theorem map_number_enqueue (q : QueuedExpr) (qs : List QueuedExpr) :
    (enqueue q qs).map QueuedExpr.number =
      if q.number ∈ qs.map QueuedExpr.number then qs.map QueuedExpr.number
      else qs.map QueuedExpr.number ++ [q.number] := by
  induction qs with
  | nil => rfl
  | cons q' qs ih =>
      by_cases hsame : q'.number = q.number
      · simp [enqueue, hsame]
      · have hother : q.number ≠ q'.number := fun heq => hsame heq.symm
        simp only [enqueue, beq_iff_eq, hsame, ↓reduceIte, List.map_cons, ih, List.mem_cons, hother,
          false_or]
        split <;> rfl

/-- The stack is well kept, and every expression in the queue has a number of its own. -/
structure Orderly (s : Session) : Prop where
  stack : s.stack.Valid
  nodup : (s.queue.map QueuedExpr.number).Nodup

theorem lasting_orderly : Lasting Orderly where
  valid _ hs := hs.stack
  withReporter _ _ _ hs := ⟨hs.stack, hs.nodup⟩
  withStack _ _ ht hs := ⟨ht, hs.nodup⟩
  withResults _ _ hs := ⟨hs.stack, hs.nodup⟩
  dequeue _ _ hs := ⟨hs.stack, hs.nodup.sublist (List.filter_sublist.map _)⟩
  accept s text number s' h hs := by
    rcases accept_cases h with ⟨-, r, i, -, rfl⟩ | ⟨-, tree, rfl⟩
    · exact ⟨hs.stack, hs.nodup⟩
    · refine ⟨hs.stack, ?_⟩
      rw [map_number_enqueue]
      split
      · exact hs.nodup
      · rename_i hnew
        exact List.nodup_append.mpr ⟨hs.nodup, by simp, by simpa using hnew⟩

theorem Reachable.orderly (h : Reachable files s) : s.Orderly :=
  h.of_lasting lasting_orderly (fun _ _ _ hstack => ⟨hstack, .nil⟩)
    fun _ _ _ _ hs => ⟨hs.stack, hs.nodup⟩

/-! ### Running one expression -/

/-- What running expressions makes of a session: it has another queue and more results, and what
decides how expressions are run is as before. -/
structure Follows (s : Session) (queue : List QueuedExpr) (results : List String) (s' : Session) :
    Prop where
  setting_eq : Setting.ofSession s' = Setting.ofSession s
  stack : s'.stack.Valid
  interactive_eq : s'.interactive = s.interactive
  assembly_eq : s'.assembly = s.assembly
  queue_eq : s'.queue = queue
  results_eq : s'.results = s.results ++ results

/-- What is queued once the expressions `done` have been run. -/
def remaining (s : Session) (done : List QueuedExpr) : List QueuedExpr :=
  if s.interactive then s.queue.filter fun q => q.number ∉ done.map QueuedExpr.number else s.queue

theorem follows_self (h : s.stack.Valid) : s.Follows (s.remaining []) [] s := by
  refine ⟨rfl, h, rfl, rfl, ?_, (List.append_nil _).symm⟩
  simp [remaining]

/-- Running one expression and then others is running them all. -/
theorem Follows.trans (h : s.Follows (s.remaining [q]) results s')
    (h' : s'.Follows (s'.remaining done) results' t) :
    s.Follows (s.remaining (q :: done)) (results ++ results') t where
  setting_eq := h'.setting_eq.trans h.setting_eq
  stack := h'.stack
  interactive_eq := h'.interactive_eq.trans h.interactive_eq
  assembly_eq := h'.assembly_eq.trans h.assembly_eq
  queue_eq := by
    rw [h'.queue_eq, remaining, h.interactive_eq, h.queue_eq, remaining, remaining]
    split
    · rw [List.filter_filter]
      refine List.filter_congr fun p _ => ?_
      simp only [List.map_cons, List.map_nil, List.mem_cons, List.not_mem_nil, or_false, not_or,
        Bool.decide_and, Bool.and_comm]
    · rfl
  results_eq := by rw [h'.results_eq, h.results_eq, List.append_assoc]

theorem remaining_of_not_interactive (h : s.interactive = false) (done : List QueuedExpr) :
    s.remaining done = s.queue := by
  simp [remaining, h]

/-- The expressions behind those that have been run are what remains. -/
theorem remaining_of_append (hs : s.Orderly) (hinteractive : s.interactive = true)
    (hqueue : s.queue = done ++ rest) : s.remaining done = rest := by
  have hnodup := hs.nodup
  rw [hqueue, List.map_append] at hnodup
  have hapart := (List.nodup_append.mp hnodup).2.2
  rw [remaining, if_pos hinteractive, hqueue, List.filter_append]
  have hdone : done.filter (fun q => q.number ∉ done.map QueuedExpr.number) = [] := by
    simp only [List.filter_eq_nil_iff, decide_eq_true_eq, not_not]
    exact fun q hq => List.mem_map_of_mem hq
  have hrest : rest.filter (fun q => q.number ∉ done.map QueuedExpr.number) = rest := by
    simp only [List.filter_eq_self, decide_eq_true_eq]
    exact fun q hq hmem => hapart _ hmem _ (List.mem_map_of_mem hq) rfl
  rw [hdone, hrest, List.nil_append]

theorem Follows.withLine (h : s.Follows queue results s') (line : Option String)
    (number : Option Int) : s.Follows queue results (s'.withLine line number) :=
  ⟨h.setting_eq, h.stack, h.interactive_eq, h.assembly_eq, h.queue_eq, h.results_eq⟩

/-- An expression leaves the queue of a session of typed input, and stays in that of any other. -/
theorem follows_dequeued {stack : Stack} (hstack : (Setting.ofSession s).Fits stack)
    (q : QueuedExpr) (results : List String) (line : Option String) (number : Option Int) :
    s.Follows (s.remaining [q]) results
      (if s.interactive then
        (((s.withLine line number).withStack stack).withResults results).dequeue q.number
      else ((s.withLine line number).withStack stack).withResults results) := by
  have hsetting : Setting.ofSession (s.withStack stack) = Setting.ofSession s := by
    have hcapacity : stack.capacity = s.stack.capacity := hstack.2
    simp only [Setting.ofSession, withStack, hcapacity]
  cases hinteractive : s.interactive with
  | true =>
      refine ⟨hsetting, hstack.1, rfl, rfl, ?_, rfl⟩
      rw [remaining, if_pos hinteractive]
      refine List.filter_congr fun p _ => ?_
      rw [Bool.eq_iff_iff]
      simp
  | false =>
      refine ⟨hsetting, hstack.1, rfl, rfl, ?_, rfl⟩
      rw [remaining_of_not_interactive hinteractive]
      rfl

/-- An expression that is run is answered as the setting says, or it fails so. -/
theorem ends_runQueued (hs : s.stack.Valid) (q : QueuedExpr) :
    (runQueued q).Ends s
      (fun _ s' => ∃ a, (Setting.ofSession s).answerOf q.tree = .ok a ∧
        s.Follows (s.remaining [q]) [a.result] s')
      fun f s' => (Setting.ofSession s).answerOf q.tree = .error f ∧
        s.Follows (s.remaining [q]) [] s' := by
  have hgoverns : (Setting.ofSession s).Governs (s.withLine (some q.text) (some q.number)) :=
    ⟨rfl, rfl, hs, rfl⟩
  obtain ⟨t, ht, hrun⟩ := Setting.run_runTree_answerOf hgoverns q.text q.tree
  simp only [runQueued, registerLine_eq, removeLine_eq, Action.ends_bind, Action.ends_modify,
    Action.ends_get, Action.ends_lastly]
  cases hanswer : (Setting.ofSession s).answerOf q.tree with
  | ok a =>
      rw [hanswer] at hrun
      rw [Action.ends_of_run_ok hrun]
      exact ⟨a, rfl, (follows_dequeued ht q [a.result] _ _).withLine none none⟩
  | error f =>
      rw [hanswer, ← Setting.withResults_nil ((s.withLine _ _).withStack t)] at hrun
      rw [Action.ends_of_run_error hrun]
      exact ⟨rfl, follows_dequeued ht q [] _ _⟩

/-- Whether an expression is run without a failure depends on the setting only. -/
theorem result_runQueued (hs : s.stack.Valid) (q : QueuedExpr) :
    ((runQueued q).run s).result = ((Setting.ofSession s).answerOf q.tree).map fun _ => () := by
  obtain ⟨hok, hfailed⟩ := Action.ends_iff.mp (ends_runQueued hs q)
  cases hresult : ((runQueued q).run s).result with
  | ok x =>
      obtain ⟨a, ha, -⟩ := hok x hresult
      rw [ha]
      rfl
  | error f =>
      rw [(hfailed f hresult).1]
      rfl

/-! ### Running the queue -/

/-- The expressions that are run if `qs` are to be run in order: all up to the first that fails. -/
def executed (s : Session) : List QueuedExpr → List QueuedExpr
  | [] => []
  | q :: qs =>
    match (runQueued q).run s with
    | ⟨_, s', .ok ()⟩ => q :: s'.executed qs
    | ⟨_, _, .error _⟩ => [q]

/-- The result that a session leaves for an expression. -/
def Answers (s : Session) (q : QueuedExpr) (result : String) : Prop :=
  ∃ a, (Setting.ofSession s).answerOf q.tree = .ok a ∧ a.result = result

/-- How running expressions in order ends: all are answered, or all before one that fails. -/
inductive RunsThrough (s : Session) : List QueuedExpr → Except Failure Unit → Session → Prop where
  | answered {qs : List QueuedExpr} {results : List String} {s' : Session}
      (hexecuted : s.executed qs = qs) (hanswers : List.Forall₂ s.Answers qs results)
      (hfollows : s.Follows (s.remaining qs) results s') : RunsThrough s qs (.ok ()) s'
  | stopped {before after : List QueuedExpr} {q : QueuedExpr} {results : List String} {f : Failure}
      {s' : Session} (hexecuted : s.executed (before ++ q :: after) = before ++ [q])
      (hanswers : List.Forall₂ s.Answers before results)
      (hfailed : (Setting.ofSession s).answerOf q.tree = .error f)
      (hfollows : s.Follows (s.remaining (before ++ [q])) results s') :
      RunsThrough s (before ++ q :: after) (.error f) s'

theorem Follows.answers (h : s.Follows queue results s') {result : String}
    (hanswers : s'.Answers q result) : s.Answers q result := by
  rwa [Answers, ← h.setting_eq]

theorem executed_cons_of_ok (h : (runQueued q).run s = ⟨out, s', .ok ()⟩) (qs : List QueuedExpr) :
    s.executed (q :: qs) = q :: s'.executed qs := by
  rw [executed, h]

theorem executed_cons_of_error (h : (runQueued q).run s = ⟨out, s', .error f⟩)
    (qs : List QueuedExpr) : s.executed (q :: qs) = [q] := by
  rw [executed, h]

/-- Expressions that are run in order are answered up to the first that fails. -/
theorem runsThrough_runAll (hs : s.stack.Valid) (qs : List QueuedExpr) :
    s.RunsThrough qs ((runAll qs).run s).result ((runAll qs).run s).state := by
  induction qs generalizing s with
  | nil => exact .answered rfl .nil (follows_self hs)
  | cons q qs ih =>
      have hends := ends_runQueued hs q
      rcases hrun : (runQueued q).run s with ⟨out, s', result⟩
      rw [runAll]
      cases result with
      | error f =>
          obtain ⟨hfailed, hfollows⟩ := (Action.ends_of_run_error hrun).mp hends
          rw [Action.run_bind_of_error hrun]
          change s.RunsThrough ([] ++ q :: qs) _ _
          exact .stopped (executed_cons_of_error hrun qs) .nil hfailed hfollows
      | ok x =>
          obtain ⟨a, ha, hfollows⟩ := (Action.ends_of_run_ok hrun).mp hends
          have hexecuted := executed_cons_of_ok hrun
          rw [Action.run_bind_of_ok hrun]
          have htail := ih hfollows.stack
          generalize ((runAll qs).run s').result = ending at htail
          generalize ((runAll qs).run s').state = t at htail
          cases htail with
          | answered hall hanswers hrest =>
              refine .answered ?_ (.cons ⟨a, ha, rfl⟩ ?_) (hfollows.trans hrest)
              · rw [hexecuted, hall]
              · exact hanswers.imp fun _ _ => hfollows.answers
          | @stopped before after q' results f t hpart hanswers hfailed hrest =>
              rw [hfollows.setting_eq] at hfailed
              rw [← List.cons_append]
              refine .stopped ?_ (.cons ⟨a, ha, rfl⟩ ?_) hfailed
                (hfollows.trans hrest)
              · rw [List.cons_append, hexecuted, hpart]
                rfl
              · exact hanswers.imp fun _ _ => hfollows.answers

/-- The expressions that are run leave the queue of a session of typed input. -/
theorem RunsThrough.follows {result : Except Failure Unit} (h : s.RunsThrough qs result s') :
    ∃ results, s.Follows (s.remaining (s.executed qs)) results s' := by
  cases h with
  | answered hexecuted hanswers hfollows =>
      rw [hexecuted]
      exact ⟨_, hfollows⟩
  | stopped hexecuted hanswers hfailed hfollows =>
      rw [hexecuted]
      exact ⟨_, hfollows⟩

/-- How a run of the queue ends: with an answer to every expression, or at one that fails; then
those behind it are left. -/
inductive Drains (s : Session) (o : Outcome Session Unit) : Prop where
  | all {results : List String} (hresult : o.result = .ok ()) (hexecuted : s.executed s.queue = s.queue)
      (hanswers : List.Forall₂ s.Answers s.queue results)
      (hresults : o.state.results = s.results ++ results) (hqueue : o.state.queue = [])
  | upTo {before after : List QueuedExpr} {q : QueuedExpr} {results : List String} {f : Failure}
      (hsplit : s.queue = before ++ q :: after) (hresult : o.result = .error f)
      (hexecuted : s.executed s.queue = before ++ [q])
      (hanswers : List.Forall₂ s.Answers before results)
      (hfailed : (Setting.ofSession s).answerOf q.tree = .error f)
      (hresults : o.state.results = s.results ++ results) (hqueue : o.state.queue = after)

theorem run_eq_runAll (hassembly : s.assembly = false) : run.run s = (runAll s.queue).run s := by
  rw [run, Action.run_bind_of_silent (Action.run_get s), hassembly]
  rfl

/-- A session of typed input runs its queue empty, or up to a failure. -/
theorem drains_run (hs : s.Orderly) (hinteractive : s.interactive = true)
    (hassembly : s.assembly = false) : s.Drains (run.run s) := by
  have hruns := runsThrough_runAll hs.stack s.queue
  rw [← run_eq_runAll hassembly] at hruns
  generalize hqs : s.queue = qs at hruns
  generalize hresult : (run.run s).result = result at hruns
  generalize hstate : (run.run s).state = s' at hruns
  cases hruns with
  | answered hexecuted hanswers hfollows =>
      subst hqs
      refine .all hresult hexecuted hanswers ?_ ?_
      · rw [hstate, hfollows.results_eq]
      · rw [hstate, hfollows.queue_eq]
        exact remaining_of_append hs hinteractive (List.append_nil _).symm
  | stopped hexecuted hanswers hfailed hfollows =>
      refine .upTo hqs hresult ?_ hanswers hfailed ?_ ?_
      · rw [hqs, hexecuted]
      · rw [hstate, hfollows.results_eq]
      · rw [hstate, hfollows.queue_eq]
        refine remaining_of_append hs hinteractive ?_
        rw [hqs, List.append_assoc, List.singleton_append]

theorem Drains.executed_append (h : s.Drains (run.run s)) :
    s.executed s.queue ++ (run.run s).state.queue = s.queue := by
  cases h with
  | all hresult hexecuted hanswers hresults hqueue => rw [hexecuted, hqueue, List.append_nil]
  | upTo hsplit hresult hexecuted hanswers hfailed hresults hqueue =>
      rw [hexecuted, hqueue, hsplit, List.append_assoc, List.singleton_append]

/-- A run of a listing leaves the queue alone. -/
theorem keeps_queue_runListing (queue : List QueuedExpr) :
    Keeps (fun s => s.queue = queue) (fun _ => True) runListing := by
  refine keeps_get.bind fun s => (keeps_ofExcept fun _ _ => trivial).bind fun p => ?_
  split
  · exact keeps_modify fun _ hs => hs
  · refine Keeps.bind ?_ fun x s hs => ?_
    · intro s hs
      exact Action.ends_iff.mpr ⟨fun _ _ => hs, fun _ _ => ⟨trivial, hs⟩⟩
    · exact (Action.ends_of_run_ok (Setting.run_record _ x s)).mpr hs

/-- A session that is not of typed input keeps its queue. -/
theorem queue_run_of_not_interactive (hs : s.stack.Valid) (hinteractive : s.interactive = false) :
    (run.run s).state.queue = s.queue := by
  cases hassembly : s.assembly with
  | true =>
      have hrun : run.run s = runListing.run s := by
        rw [run, Action.run_bind_of_silent (Action.run_get s), hassembly]
        rfl
      rw [hrun]
      exact (keeps_queue_runListing s.queue).state rfl
  | false =>
      obtain ⟨results, hfollows⟩ := (runsThrough_runAll hs s.queue).follows
      rw [run_eq_runAll hassembly, hfollows.queue_eq, remaining_of_not_interactive hinteractive]

/-! ### Calls -/

/-- What a program may do to a session: add an expression, or run what is queued. -/
inductive Call where
  | add (text : String) (number : Int)
  | run

/-- The session after a call, however it ends. -/
def next (s : Session) : Call → Session
  | .add text number => ((add text number).run s).state
  | .run => (run.run s).state

/-- The expression that a call adds, if it can be read. -/
def Call.added : Call → List QueuedExpr
  | .add text number =>
    match Expr.parse text with
    | .ok tree => [⟨number, text, tree⟩]
    | .error _ => []
  | .run => []

/-- The number that a call gives to an expression. -/
def Call.number? : Call → Option Int
  | .add _ number => some number
  | .run => none

/-- The expressions that a call runs. -/
def Call.executed (s : Session) : Call → List QueuedExpr
  | .add _ _ => []
  | .run => s.executed s.queue

/-- The session after calls. -/
def after (s : Session) : List Call → Session
  | [] => s
  | c :: cs => (s.next c).after cs

/-- All expressions that are run by calls, in order and as often as they are run. -/
def executedAll (s : Session) : List Call → List QueuedExpr
  | [] => []
  | c :: cs => c.executed s ++ (s.next c).executedAll cs

/-- No call adds an expression with a number that is in the queue at the time. -/
def Distinct (s : Session) : List Call → Prop
  | [] => True
  | c :: cs => (∀ q ∈ c.added, ∀ q' ∈ s.queue, q'.number ≠ q.number) ∧ (s.next c).Distinct cs

/-- A session of typed expressions in which every queued one has a number of its own. -/
structure Typed (s : Session) : Prop extends s.Orderly where
  interactive_eq : s.interactive = true
  assembly_eq : s.assembly = false

/-- Adding an expression answers exactly if it can be read, and then it is queued. -/
theorem add_cases (hassembly : s.assembly = false) (text : String) (number : Int) :
    ∃ r, (add text number).run s = ⟨"", { s with
      reporter := r
      queue := match Expr.parse text with
        | .ok tree => enqueue ⟨number, text, tree⟩ s.queue
        | .error _ => s.queue }, (Expr.parse text).map fun _ => ()⟩ := by
  cases hparse : Expr.parse text with
  | ok tree => exact run_add_of_parse hassembly hparse number
  | error f =>
      refine ⟨s.reporter.registerLine s.path text number, ?_⟩
      rw [add, registerLine, Action.run_bind_of_silent (Action.run_modify _ _),
        Action.run_bind_of_silent (Action.run_get _)]
      simp only [accept, hassembly, Bool.false_eq_true, ↓reduceIte, hparse, Except.map]
      exact Action.run_bind_of_error (Action.run_ofExcept _ _)

/-- A call runs expressions from the front of the queue or adds one at its end. -/
theorem Typed.step (hs : s.Typed) (c : Call)
    (hnew : ∀ q ∈ c.added, ∀ q' ∈ s.queue, q'.number ≠ q.number) :
    (s.next c).Typed ∧ c.executed s ++ (s.next c).queue = s.queue ++ c.added := by
  cases c with
  | run =>
      have hdrains := drains_run hs.toOrderly hs.interactive_eq hs.assembly_eq
      have horderly : (s.next .run).Orderly := lasting_orderly.keeps_run.state hs.toOrderly
      obtain ⟨results, hfollows⟩ := (runsThrough_runAll hs.stack s.queue).follows
      rw [← run_eq_runAll hs.assembly_eq] at hfollows
      refine ⟨⟨horderly, hfollows.interactive_eq.trans hs.interactive_eq,
        hfollows.assembly_eq.trans hs.assembly_eq⟩, ?_⟩
      rw [Call.added, List.append_nil]
      exact hdrains.executed_append
  | add text number =>
      have horderly : (s.next (.add text number)).Orderly :=
        (lasting_orderly.keeps_add text number).state hs.toOrderly
      obtain ⟨r, hadd⟩ := add_cases hs.assembly_eq text number
      have hnext := congrArg Outcome.state hadd
      rw [next] at horderly ⊢
      refine ⟨⟨horderly, ?_, ?_⟩, ?_⟩
      · rw [hnext, hs.interactive_eq]
      · rw [hnext, hs.assembly_eq]
      · rw [hnext, Call.executed, List.nil_append]
        cases hparse : Expr.parse text with
        | error f => simp [Call.added, hparse]
        | ok tree =>
            simp only [Call.added, hparse, List.forall_mem_singleton] at hnew ⊢
            exact Setting.enqueue_eq_append hnew

/-- However calls are mixed, what has been run and what is still queued is what was queued and
added, in the same order. -/
theorem Typed.executedAll_append (hs : s.Typed) (cs : List Call) (hdistinct : s.Distinct cs) :
    (s.after cs).Typed ∧
      s.executedAll cs ++ (s.after cs).queue = s.queue ++ cs.flatMap Call.added := by
  induction cs generalizing s with
  | nil => exact ⟨hs, (List.append_nil _).symm⟩
  | cons c cs ih =>
      obtain ⟨hnext, hstep⟩ := hs.step c hdistinct.1
      obtain ⟨hafter, hrest⟩ := ih hnext hdistinct.2
      refine ⟨hafter, ?_⟩
      rw [executedAll, after, List.append_assoc, hrest, ← List.append_assoc, hstep,
        List.append_assoc, List.flatMap_cons]

/-- Numbers that are all different are different from those in the queue at any time. -/
theorem Typed.distinct (hs : s.Typed) (cs : List Call)
    (h : (s.queue.map QueuedExpr.number ++ cs.filterMap Call.number?).Nodup) : s.Distinct cs := by
  induction cs generalizing s with
  | nil => trivial
  | cons c cs ih =>
      have hadded : (c.added.map QueuedExpr.number).Sublist (c.number?.toList) := by
        cases c with
        | run => exact .slnil
        | add text number =>
            rw [Call.added]
            split
            · exact .refl _
            · exact List.nil_sublist _
      have hcons : (c :: cs).filterMap Call.number? =
          c.number?.toList ++ cs.filterMap Call.number? := by
        rw [List.filterMap_cons]
        cases c.number? <;> rfl
      rw [hcons] at h
      have hnew : ∀ q ∈ c.added, ∀ q' ∈ s.queue, q'.number ≠ q.number := by
        intro q hq q' hq'
        have hmem : q.number ∈ c.number?.toList := hadded.subset (List.mem_map_of_mem hq)
        exact (List.nodup_append.mp h).2.2 _ (List.mem_map_of_mem hq') _
          (List.mem_append_left _ hmem)
      obtain ⟨hnext, hstep⟩ := hs.step c hnew
      have hqueue : ((s.next c).queue.map QueuedExpr.number).Sublist
          (s.queue.map QueuedExpr.number ++ c.number?.toList) := by
        have hlater := (List.sublist_append_right (c.executed s) (s.next c).queue).map
          QueuedExpr.number
        rw [hstep, List.map_append] at hlater
        exact hlater.trans (hadded.append_left _)
      refine ⟨hnew, ih hnext (h.sublist ?_)⟩
      rw [← List.append_assoc]
      exact hqueue.append_right _

/-- Main result: in a session of typed expressions, however adding and running are mixed, every
expression that was added has been run just once or is still queued, in the order in which they
were added.  An expression is added if it can be read.  A run answers all that is queued and leaves
nothing, or it stops at an expression that fails, and leaves those behind it.  A session that is not
of typed input has the same queue after a run. -/
theorem queued_run_once_in_order (h : Reachable files s) :
    (s.interactive = true → s.assembly = false → ∀ cs, s.Distinct cs →
      s.executedAll cs ++ (s.after cs).queue = s.queue ++ cs.flatMap Call.added ∧
        (∀ text number, ((add text number).run (s.after cs)).result =
          (Expr.parse text).map fun _ => ()) ∧
        (s.after cs).Drains (run.run (s.after cs))) ∧
      (s.interactive = false → (run.run s).state.queue = s.queue) := by
  refine ⟨?_, queue_run_of_not_interactive h.orderly.stack⟩
  intro hinteractive hassembly cs hdistinct
  have hs : s.Typed := ⟨h.orderly, hinteractive, hassembly⟩
  obtain ⟨hafter, hqueue⟩ := hs.executedAll_append cs hdistinct
  refine ⟨hqueue, ?_, drains_run hafter.toOrderly hafter.interactive_eq hafter.assembly_eq⟩
  intro text number
  obtain ⟨r, hadd⟩ := add_cases hafter.assembly_eq text number
  rw [hadd]

/-- Typed expressions on a machine with one slot. -/
def oneSlot : SessionOptions :=
  { path := interactivePath, stackSize := some 1, interactive := true }

/-- Three expressions, of which a machine with one slot cannot run the second, and then two runs. -/
def retried : List Call :=
  [.add "1" 1, .add "2+3" 2, .add "4" 3, .run, .run]

/-- Three expressions are added to such a session, which then runs twice. -/
theorem queued_run_once_in_order_retried :
    ∃ s, Reachable (fun _ => none) s ∧ s.stack.capacity = some 1 ∧ s.interactive = true ∧
      s.assembly = false ∧ s.queue = [] ∧ s.Distinct retried ∧
      s.executedAll retried ++ (s.after retried).queue = retried.flatMap Call.added ∧
      (s.after retried).Drains (run.run (s.after retried)) := by
  have hmake : Stack.make oneSlot.stackSize = .ok (.fixed 1) := rfl
  have hstart := run_start_of_make (fun _ => none) oneSlot ⟨true, false, []⟩ (by decide) hmake
  have hstarted : ((start (fun _ => none) oneSlot).run ⟨true, false, []⟩).result =
      .ok (fresh oneSlot (reporterAtStart oneSlot ⟨true, false, []⟩) (.fixed 1)) := by
    rw [hstart]
    rfl
  have hreachable := Reachable.start hstarted
  have hdistinct := (Typed.mk hreachable.orderly rfl rfl).distinct retried (by decide)
  obtain ⟨hcalls, -⟩ := queued_run_once_in_order hreachable
  obtain ⟨honce, -, hdrains⟩ := hcalls rfl rfl retried hdistinct
  exact ⟨_, hreachable, rfl, rfl, rfl, rfl, hdistinct, honce, hdrains⟩

end Calculator.Session
