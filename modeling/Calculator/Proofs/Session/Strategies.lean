import Calculator.Proofs.Binary64.Identity
import Calculator.Proofs.Machine.Lowering
import Calculator.Proofs.Session.Idle

/-!
Strategies compared.  With room for the code of a tree the machine gives the value that walking the
tree gives, so no strategy shows in the answer to a line; without it the machine overflows, and the
walk goes on giving the value.  The two values never differ, so none is ever complained about.  Only
the height of a tree may tell the strategies apart, since compiling is refused somewhat earlier than
evaluating.
-/
namespace Calculator

open Stack (HasRoom)

namespace Expr

variable {e : Expr} {f : Failure}

/-- A walk over a tree complains of foreign nodes only. -/
theorem ne_complaint_of_walk {c : Complaint} (hc : ∀ shown, c ≠ .unknownNode shown)
    (h : (∃ shown, f = .complaint (.unknownNode shown)) ∨ f = .nestsTooDeeply) :
    f ≠ .complaint c := by
  rintro rfl
  rcases h with ⟨shown, hnode⟩ | hdeep
  · exact hc shown (Failure.complaint.inj hnode)
  · cases hdeep

/-- Compiling and evaluating walk the tree alike: it is low enough for both, or too high for
both. -/
def WalkedAlike (e : Expr) : Prop :=
  e.height ≤ compileLimit ∨ evaluateLimit < e.height

/-- Walked alike, a tree that is not compiled is not evaluated either, for the same reason. -/
theorem WalkedAlike.evaluate_of_compile_error (h : e.WalkedAlike)
    (hcompile : e.compile = .error f) : e.evaluate = .error f := by
  rcases evaluate_or_high_of_compile_error hcompile with hevaluate | ⟨hhigh, rfl⟩
  · exact hevaluate
  · have hheight := h.resolve_left (Nat.not_le_of_lt hhigh)
    rw [evaluate, within, if_neg (Nat.not_le_of_lt hheight)]

/-- Otherwise it is not compiled, but evaluated. -/
theorem of_not_walkedAlike (h : ¬ e.WalkedAlike) :
    e.compile = .error .nestsTooDeeply ∧ e.evaluate = e.value.mapError .complaint := by
  obtain ⟨hhigh, hlow⟩ := not_or.mp h
  exact ⟨if_neg hhigh, within_of_le (Nat.le_of_not_lt hlow) _⟩

/-- A stack of `n` slots is too small for the program of the tree. -/
def Overflows (n : Nat) (e : Expr) : Prop :=
  ∃ p d, e.compile = .ok p ∧ p.depth = .ok d ∧ n < d

/-- A stack of the capacity has room for the program of the tree, if the tree has one.  A stack
that grows has room for every program. -/
def Fits (capacity : Option Nat) (e : Expr) : Prop :=
  ∀ n, capacity = some n → ¬ e.Overflows n

/-- What is compiled can be walked. -/
theorem Overflows.evaluates {n : Nat} (h : e.Overflows n) : ∃ x, e.evaluate = .ok x := by
  obtain ⟨p, d, hcompile, -⟩ := h
  obtain ⟨is, x, -, -, -, hevaluate⟩ := exists_code_of_compile hcompile
  exact ⟨x, hevaluate⟩

theorem fits_growing (e : Expr) : e.Fits none := by
  intro n hn
  cases hn

theorem Fits.hasRoom {capacity : Option Nat} {p : Program} {d : Nat} (h : e.Fits capacity)
    (hcompile : e.compile = .ok p) (hdepth : p.depth = .ok d) : HasRoom capacity d := by
  intro n hcapacity
  by_contra hlt
  exact h n hcapacity ⟨p, d, hcompile, hdepth, Nat.lt_of_not_le hlt⟩

theorem fits_or_overflows (capacity : Option Nat) (e : Expr) :
    e.Fits capacity ∨ ∃ n, capacity = some n ∧ e.Overflows n := by
  by_cases h : ∃ n, capacity = some n ∧ e.Overflows n
  · exact .inr h
  · exact .inl fun n hcapacity hoverflows => h ⟨n, hcapacity, hoverflows⟩

end Expr

namespace Setting

/-- The strategy does not matter for the tree: its program is only shown, or it is walked alike and
the stack has room for its program. -/
def Neutral (g : Setting) (e : Expr) : Prop :=
  g.emitting = true ∨ e.WalkedAlike ∧ e.Fits g.capacity

/-- The strategy does not matter for the tree of the line, if the line has one. -/
def NeutralLine (g : Setting) (text : String) : Prop :=
  ∀ e, Expr.parse text = .ok e → g.Neutral e

variable {g : Setting} {e : Expr} {f : Failure} {n : Nat} {text : String}

/-- The setting with another strategy. -/
def withStrategy (g : Setting) (strategy : Strategy) : Setting :=
  { g with strategy }

theorem machineValue_of_compile_error (hcompile : e.compile = .error f) (compared : Bool) :
    g.machineValue compared e = .error f := by
  rw [machineValue, hcompile]

/-- With enough room the machine gives the value of the tree and no comparison fails. -/
theorem machineValue_of_compile {p : Program} (hcompile : e.compile = .ok p)
    (h : e.Fits g.capacity) (compared : Bool) : g.machineValue compared e = e.evaluate := by
  obtain ⟨is, x, rfl, hcode, hvalue, hevaluate⟩ := Expr.exists_code_of_compile hcompile
  have hroom := h.hasRoom hcompile (Program.depth_code hcode)
  have hunused := Stack.holds_unused g.capacity
  have hrun := hunused.valid.run_snd_of_code hcode hvalue (by rwa [hunused.capacity_eq])
  simp only [machineValue, hcompile, hrun, hevaluate, Binary64.identical_self, ↓reduceIte,
    ite_self]

/-- With less room the machine overflows before anything is compared. -/
theorem machineValue_of_overflows (hcapacity : g.capacity = some n) (h : e.Overflows n)
    (compared : Bool) : g.machineValue compared e = .error (.complaint (.stackOverflow n)) := by
  obtain ⟨p, d, hcompile, hdepth, hfull⟩ := h
  obtain ⟨is, x, rfl, hcode, hvalue, -⟩ := Expr.exists_code_of_compile hcompile
  obtain rfl := Except.ok.inj ((Program.depth_code hcode).symm.trans hdepth)
  have hunused := Stack.holds_unused g.capacity
  have hrun := hunused.valid.run_snd_of_code_overflow hcode hvalue
    (hunused.capacity_eq.trans hcapacity) hfull
  simp only [machineValue, hcompile, hrun]

/-- One strategy walks the tree, and all others run the machine. -/
theorem value_cases (g : Setting) (e : Expr) :
    g.strategy = .tree ∧ g.value e = e.evaluate ∨
      g.strategy ≠ .tree ∧ ∃ compared, g.value e = g.machineValue compared e := by
  rw [value]
  split
  · rename_i htree
    exact .inl ⟨htree, rfl⟩
  · rename_i hother
    exact .inr ⟨hother, _, rfl⟩

theorem value_of_tree (h : g.strategy = .tree) : g.value e = e.evaluate := by
  rw [value, h]

/-- A value is that of walking the tree, unless the machine is to run it and it is not compiled or
overflows the stack. -/
theorem value_ends (g : Setting) (e : Expr) :
    g.value e = e.evaluate ∨ g.strategy ≠ .tree ∧ ∃ f, g.value e = .error f ∧
      (e.compile = .error f ∨
        ∃ n, g.capacity = some n ∧ e.Overflows n ∧ f = .complaint (.stackOverflow n)) := by
  rcases g.value_cases e with ⟨-, hvalue⟩ | ⟨hmachine, compared, hvalue⟩
  · exact .inl hvalue
  · rcases e.fits_or_overflows g.capacity with hfits | ⟨n, hcapacity, hoverflows⟩
    · cases hcompile : e.compile with
      | error f =>
          have hrefused := machineValue_of_compile_error (g := g) hcompile compared
          exact .inr ⟨hmachine, f, hvalue.trans hrefused, .inl rfl⟩
      | ok p => exact .inl (hvalue.trans (machineValue_of_compile hcompile hfits compared))
    · have hfull := machineValue_of_overflows hcapacity hoverflows compared
      exact .inr ⟨hmachine, _, hvalue.trans hfull, .inr ⟨n, hcapacity, hoverflows, rfl⟩⟩

/-- With enough room every strategy gives the value of walking the tree, if it is walked alike. -/
theorem value_of_fits (halike : e.WalkedAlike) (h : e.Fits g.capacity) :
    g.value e = e.evaluate := by
  rcases g.value_ends e with hvalue | ⟨-, f, hvalue, hcompile | ⟨n, hcapacity, hoverflows, -⟩⟩
  · exact hvalue
  · rw [hvalue, halike.evaluate_of_compile_error hcompile]
  · exact absurd hoverflows (h n hcapacity)

theorem value_of_overflows (hstrategy : g.strategy ≠ .tree) (hcapacity : g.capacity = some n)
    (h : e.Overflows n) : g.value e = .error (.complaint (.stackOverflow n)) := by
  rcases g.value_cases e with ⟨htree, -⟩ | ⟨-, compared, hvalue⟩
  · exact absurd htree hstrategy
  · exact hvalue.trans (machineValue_of_overflows hcapacity h compared)

/-- A tree that is not walked alike has its value by walking it only. -/
theorem value_of_not_walkedAlike (h : ¬ e.WalkedAlike) :
    g.value e = if g.strategy = .tree then e.value.mapError .complaint
      else .error .nestsTooDeeply := by
  obtain ⟨hcompile, hevaluate⟩ := Expr.of_not_walkedAlike h
  rcases g.value_cases e with ⟨htree, hvalue⟩ | ⟨hmachine, compared, hvalue⟩
  · rw [if_pos htree, hvalue, hevaluate]
  · rw [if_neg hmachine, hvalue, machineValue_of_compile_error hcompile]

/-- Greatest height of a tree that is run: it is evaluated by one strategy, and compiled by the
others and to be shown. -/
def heightLimit (g : Setting) : Nat :=
  if g.emitting = false ∧ g.strategy = .tree then Expr.evaluateLimit else Expr.compileLimit

theorem heightLimit_of_walked (hemitting : ¬ g.emitting = true) (htree : g.strategy = .tree) :
    g.heightLimit = Expr.evaluateLimit :=
  if_pos ⟨Bool.eq_false_iff.mpr hemitting, htree⟩

theorem heightLimit_of_compiled (h : g.emitting = true ∨ g.strategy ≠ .tree) :
    g.heightLimit = Expr.compileLimit := by
  rw [heightLimit, if_neg]
  rintro ⟨hemitting, htree⟩
  rcases h with hemitting' | hmachine
  · rw [hemitting] at hemitting'
    cases hemitting'
  · exact hmachine htree

/-- With enough room a tree of literals and operators that is not too high leaves an answer. -/
theorem answerOf_of_fits (he : e.WellFormed) (hfits : e.Fits g.capacity) :
    (g.answerOf e).map (fun _ => ()) =
      if e.height ≤ g.heightLimit then .ok () else .error .nestsTooDeeply := by
  obtain ⟨is, x, hcode, hvalue⟩ := he.code_value
  have hcompile : e.compile = if e.height ≤ Expr.compileLimit then .ok (Program.ofInstrs is)
      else .error .nestsTooDeeply := by
    rw [Expr.compile, Expr.within, hcode]
    rfl
  have hevaluate : e.evaluate = if e.height ≤ Expr.evaluateLimit then .ok x
      else .error .nestsTooDeeply := by
    rw [Expr.evaluate, Expr.within, hvalue]
    rfl
  rw [answerOf]
  by_cases hemitting : g.emitting = true
  · rw [if_pos hemitting, heightLimit_of_compiled (.inl hemitting), hcompile]
    split <;> rfl
  · rw [if_neg hemitting]
    rcases g.value_cases e with ⟨htree, hvalue⟩ | ⟨hmachine, compared, hvalue⟩
    · rw [heightLimit_of_walked hemitting htree, hvalue, hevaluate]
      split <;> rfl
    · rw [heightLimit_of_compiled (.inr hmachine), hvalue]
      by_cases hheight : e.height ≤ Expr.compileLimit
      · rw [if_pos hheight] at hcompile ⊢
        rw [machineValue_of_compile hcompile hfits, hevaluate,
          if_pos (Nat.le_trans hheight Expr.compileLimit_le_evaluateLimit)]
        rfl
      · rw [if_neg hheight] at hcompile ⊢
        rw [machineValue_of_compile_error hcompile]
        rfl

theorem exists_answerOf_of_low (he : e.WellFormed) (hfits : e.Fits g.capacity)
    (hlow : e.height ≤ g.heightLimit) : ∃ a, g.answerOf e = .ok a := by
  have hanswer := answerOf_of_fits he hfits
  rw [if_pos hlow] at hanswer
  obtain ⟨a, ha, -⟩ := exists_of_map_eq_ok hanswer
  exact ⟨a, ha⟩

theorem answerOf_of_high (he : e.WellFormed) (hfits : e.Fits g.capacity)
    (hhigh : g.heightLimit < e.height) : g.answerOf e = .error .nestsTooDeeply := by
  have hanswer := answerOf_of_fits he hfits
  rw [if_neg (Nat.not_le_of_lt hhigh)] at hanswer
  exact eq_error_of_map hanswer

/-- No strategy complains that two strategies disagree. -/
theorem value_ne_disagreement (g : Setting) (e : Expr) (shown tree machine : String) :
    g.value e ≠ .error (.complaint (.strategiesDisagree shown tree machine)) := by
  have hnode : ∀ node, Complaint.strategiesDisagree shown tree machine ≠ .unknownNode node := by
    rintro node ⟨⟩
  intro h
  rcases g.value_ends e with hvalue | ⟨-, f, hvalue, hcompile | ⟨n, -, -, rfl⟩⟩
  · exact Expr.ne_complaint_of_walk hnode (Expr.of_evaluate_error (hvalue.symm.trans h)) rfl
  · obtain rfl := Except.error.inj (hvalue.symm.trans h)
    exact Expr.ne_complaint_of_walk hnode (Expr.of_compile_error hcompile) rfl
  · cases hvalue.symm.trans h

/-- The strategy does not show in what a tree leaves for which it does not matter. -/
theorem answerOf_withStrategy (h : g.Neutral e) (strategy : Strategy) :
    (g.withStrategy strategy).answerOf e = g.answerOf e := by
  rw [answerOf, answerOf]
  rcases h with hemitting | ⟨halike, hfits⟩
  · have hemitting' : (g.withStrategy strategy).emitting = true := hemitting
    rw [if_pos hemitting, if_pos hemitting']
  · have hvalue : (g.withStrategy strategy).value e = g.value e := by
      rw [value_of_fits halike hfits, value_of_fits (g := g.withStrategy strategy) halike hfits]
    rw [hvalue]
    rfl

/-- Nor in what a line leaves for which it does not matter. -/
theorem lineAnswer_withStrategy (h : g.NeutralLine text) (strategy : Strategy) :
    (g.withStrategy strategy).lineAnswer text = g.lineAnswer text := by
  rw [lineAnswer, lineAnswer]
  cases hparse : Expr.parse text with
  | error f => rfl
  | ok e => exact answerOf_withStrategy (h e hparse) strategy

/-- Nor in what is printed of such a line. -/
theorem answer_withStrategy (h : g.NeutralLine text) (strategy : Strategy)
    (number : Nat) : (g.withStrategy strategy).answer text number = g.answer text number := by
  have hresult : (g.withStrategy strategy).lineResult text number = g.lineResult text number := by
    rw [lineResult, lineResult]
    cases hparse : Expr.parse text with
    | error f => rfl
    | ok e =>
        have hanswer := answerOf_withStrategy (h e hparse) strategy
        simp only [shown_eq, hanswer]
        rfl
  rw [answer, answer, hresult]
  rfl

/-- The setting of a session in work. -/
def ofSession (s : Session) : Setting :=
  ⟨s.reporter.coloured, s.strategy, s.stack.capacity, s.emitting⟩

theorem governs_ofSession {s : Session} (h : s.stack.Valid) : (ofSession s).Governs s :=
  ⟨rfl, rfl, h, rfl⟩

end Setting

namespace Session

variable {s : Session} {e : Expr} {n : Nat}

/-- What a session makes of a tree depends on its setting only. -/
theorem result_execute (h : s.stack.Valid) (e : Expr) :
    ((execute (.expr e)).run s).result = (Setting.ofSession s).value e := by
  obtain ⟨t, -, hrun⟩ := Setting.run_execute (Setting.governs_ofSession h) e
  rw [hrun]

/-- What is no tree is not run, by no strategy. -/
theorem execute_of_tree_error {a : Datum} {f : Failure} (h : a.tree = .error f) (s : Session) :
    ((execute a).run s).result = .error f := by
  have hcompile : a.compile = .error f := by
    rw [Datum.compile, h]
    rfl
  have hevaluate : a.evaluate = .error f := by
    rw [Datum.evaluate, h]
    rfl
  rw [execute, Action.run_bind_of_silent (Action.run_get _), hcompile, hevaluate]
  cases s.strategy <;> rfl

/-- No session ever complains that the strategies disagree. -/
theorem execute_ne_disagreement (h : s.stack.Valid) (a : Datum) (shown tree machine : String) :
    ((execute a).run s).result ≠
      .error (.complaint (.strategiesDisagree shown tree machine)) := by
  cases a with
  | expr e =>
      rw [result_execute h]
      exact (Setting.ofSession s).value_ne_disagreement e shown tree machine
  | _ =>
      rw [execute_of_tree_error rfl]
      rintro ⟨⟩

/-- On a fixed stack the machine overflows exactly on the trees that need more slots; all else is
as if the tree was walked, if it is walked alike. -/
theorem result_execute_of_capacity (h : s.stack.Valid) (hcapacity : s.stack.capacity = some n)
    (e : Expr) :
    (((execute (.expr e)).run s).result = .error (.complaint (.stackOverflow n)) ↔
      s.strategy ≠ .tree ∧ e.Overflows n) ∧
    (s.strategy = .tree ∨ ¬ e.Overflows n ∧ e.WalkedAlike →
      ((execute (.expr e)).run s).result = e.evaluate) := by
  rw [result_execute h]
  have hnode : ∀ node, Complaint.stackOverflow n ≠ .unknownNode node := by
    rintro node ⟨⟩
  refine ⟨⟨?_, ?_⟩, ?_⟩
  · intro hoverflow
    rcases (Setting.ofSession s).value_ends e with
      hvalue | ⟨hmachine, f, hvalue, hcompile | ⟨m, hm, hoverflows, -⟩⟩
    · have hevaluate := Expr.of_evaluate_error (hvalue.symm.trans hoverflow)
      exact absurd rfl (Expr.ne_complaint_of_walk hnode hevaluate)
    · obtain rfl := Except.error.inj (hvalue.symm.trans hoverflow)
      exact absurd rfl (Expr.ne_complaint_of_walk hnode (Expr.of_compile_error hcompile))
    · obtain rfl := Option.some.inj (hcapacity.symm.trans hm)
      exact ⟨hmachine, hoverflows⟩
  · rintro ⟨hmachine, hoverflows⟩
    exact Setting.value_of_overflows hmachine hcapacity hoverflows
  · rintro (htree | ⟨hroom, halike⟩)
    · exact Setting.value_of_tree htree
    · have hfits : e.Fits s.stack.capacity := by
        rw [hcapacity]
        rintro m ⟨⟩
        exact hroom
      exact Setting.value_of_fits halike hfits

/-- A tree that is not walked alike has a value under one strategy, and none under the others. -/
theorem result_execute_of_not_walkedAlike (h : s.stack.Valid) (hnot : ¬ e.WalkedAlike) :
    ((execute (.expr e)).run s).result =
      if s.strategy = .tree then e.value.mapError .complaint else .error .nestsTooDeeply := by
  rw [result_execute h, Setting.value_of_not_walkedAlike hnot]
  rfl

end Session

end Calculator
