import Calculator.Proofs.Session.Strategies

/-!
Mistakes.  A failure that is reported, and not as an internal one, tells the user of a mistake in
the input, in full if its span can be drawn.  Reading a line, running a tree and running a listing
fail in no other way: every complaint that they make is worded for the user, and the one that is
not, about strategies that disagree, is never made.
-/
namespace Calculator

namespace Failure

/-- The user is told of the failure, in full, as of a mistake in the input. -/
def Mistake (f : Failure) : Prop :=
  ∃ report, f.report? = some report ∧ report.internal = false ∧ report.drawingFault? = none

theorem mistake_complaint {c : Complaint} (h : c.Told) : (complaint c).Mistake :=
  ⟨c.report, rfl, h.visible, h.drawn⟩

theorem mistake_nestsTooDeeply : nestsTooDeeply.Mistake :=
  ⟨_, rfl, rfl, rfl⟩

end Failure

open Failure (mistake_complaint mistake_nestsTooDeeply)

namespace Expr

variable {source : String} {f : Failure} {e : Expr}

theorem mistake_of_parse (h : parse source = .error f) : f.Mistake := by
  rcases parseWithin_eq_error h with ⟨c, rfl⟩ | ⟨rfl, -⟩
  · exact mistake_complaint (told_of_parse_error h)
  · exact mistake_nestsTooDeeply

/-- A walk over a tree fails by a mistake. -/
theorem mistake_of_walk
    (h : (∃ shown, f = .complaint (.unknownNode shown)) ∨ f = .nestsTooDeeply) : f.Mistake := by
  rcases h with ⟨shown, rfl⟩ | rfl
  · exact mistake_complaint (told_unknownNode shown)
  · exact mistake_nestsTooDeeply

theorem mistake_of_evaluate (h : e.evaluate = .error f) : f.Mistake :=
  mistake_of_walk (of_evaluate_error h)

theorem mistake_of_compile (h : e.compile = .error f) : f.Mistake :=
  mistake_of_walk (of_compile_error h)

end Expr

namespace Setting

variable {g : Setting} {e : Expr} {f : Failure} {text : String}

/-- A value fails as a walk over the tree does, or because the stack is full. -/
theorem mistake_of_value (h : g.value e = .error f) : f.Mistake := by
  rcases g.value_ends e with hvalue | ⟨-, f', hvalue, hend⟩
  · exact Expr.mistake_of_evaluate (hvalue.symm.trans h)
  · obtain rfl := Except.error.inj (hvalue.symm.trans h)
    rcases hend with hcompile | ⟨n, -, -, rfl⟩
    · exact Expr.mistake_of_compile hcompile
    · exact mistake_complaint (Complaint.told_of_not_diagnosed rfl rfl)

theorem mistake_of_answerOf (h : g.answerOf e = .error f) : f.Mistake := by
  rw [answerOf] at h
  split at h
  · exact Expr.mistake_of_compile (eq_error_of_map h)
  · exact mistake_of_value (eq_error_of_map h)

end Setting

end Calculator
