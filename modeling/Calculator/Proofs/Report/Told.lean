import Calculator.Proofs.Action.Binding
import Calculator.Proofs.Expr.Blame
import Calculator.Proofs.Machine.Lowering
import Calculator.Proofs.Report.Settling

/-!
Complaints that the user is told of.  Reading a text, walking its tree and running a program fail
with complaints that are worded for the user; and they blame a part of what was read, or no part, so
that nothing keeps their span from being drawn.
-/
namespace Calculator

namespace Report

variable {r : Report} {before part after : List Char}

theorem Blames.length_subject (h : r.Blames before part after) :
    r.subject.length = before.length + (part.length + after.length) := by
  rw [← String.length_toList, h.subject_eq, List.length_append, List.length_append]

/-- A span that is a part of the subject is drawn without fault. -/
theorem Blames.drawingFault?_eq (h : r.Blames before part after) : r.drawingFault? = none := by
  have hlength := h.length_subject
  have hstart := h.start_eq
  have hstop := h.stop_eq
  apply drawingFault?_of_within
  · omega
  · omega
  · omega

end Report

/-- The complaint is made to the user, and its span is drawn without fault. -/
structure Complaint.Told (c : Complaint) : Prop where
  visible : c.report.internal = false
  drawn : c.report.drawingFault? = none

theorem Complaint.told_of_not_diagnosed {c : Complaint} (hhidden : c.report.diagnosed = false)
    (hvisible : c.report.internal = false) : c.Told :=
  ⟨hvisible, Report.drawingFault?_of_hidden (Report.showsDiagnosis_of_not_diagnosed hhidden)⟩

open Complaint (told_of_not_diagnosed)

namespace Expr

variable {source : String} {e : Expr} {c : Complaint} {f : Failure}

/-! ### Texts and trees -/

theorem Rejected.exists_blames (h : Rejected source c) :
    ∃ before part after, c.report.Blames before part after := by
  cases h with
  | stuck hstuck => exact ⟨_, _, _, (Rejected.stuck hstuck).marksPiece.stuck _ _ _ hstuck⟩
  | blank hblanks => exact ⟨_, _, _, (Rejected.blank hblanks).marksPiece.blank hblanks⟩
  | token hcut habout =>
      obtain ⟨-, us, t, vs, before, after, -, -, hblames, -⟩ := habout.exists_blames hcut
      exact ⟨_, _, _, hblames⟩

theorem told_of_parse_error (h : parse source = .error (.complaint c)) : c.Told := by
  have hrejected := rejected_of_parse_error h
  obtain ⟨before, part, after, hblames⟩ := hrejected.exists_blames
  exact ⟨hrejected.not_internal, hblames.drawingFault?_eq⟩

/-- A walk over a tree meets nothing worse than a foreign node. -/
theorem of_value_error {c : Complaint} (h : e.value = .error c) :
    ∃ shown, c = .unknownNode shown := by
  induction e with
  | literal x => cases h
  | binary op left right ihLeft ihRight =>
      cases hleft : left.value with
      | error c' =>
          simp only [value, hleft] at h
          obtain rfl := Except.error.inj h
          exact ihLeft hleft
      | ok x =>
          cases hright : right.value with
          | error c' =>
              simp only [value, hleft, hright] at h
              obtain rfl := Except.error.inj h
              exact ihRight hright
          | ok y =>
              simp only [value, hleft, hright] at h
              cases h
  | foreign shown => exact ⟨shown, (Except.error.inj h).symm⟩

theorem of_evaluate_error (h : e.evaluate = .error f) :
    (∃ shown, f = .complaint (.unknownNode shown)) ∨ f = .nestsTooDeeply := by
  rw [evaluate, within] at h
  split at h
  · cases hvalue : e.value with
    | error c =>
        rw [hvalue] at h
        obtain ⟨shown, rfl⟩ := of_value_error hvalue
        exact .inl ⟨shown, (Except.error.inj h).symm⟩
    | ok x =>
        rw [hvalue] at h
        cases h
  · exact .inr (Except.error.inj h).symm

theorem of_compile_error (h : e.compile = .error f) :
    (∃ shown, f = .complaint (.unknownNode shown)) ∨ f = .nestsTooDeeply := by
  rcases evaluate_or_high_of_compile_error h with hevaluate | ⟨-, rfl⟩
  · exact of_evaluate_error hevaluate
  · exact .inr rfl

theorem told_unknownNode (shown : String) : (Complaint.unknownNode shown).Told :=
  told_of_not_diagnosed rfl rfl

end Expr

/-! ### Listings -/

namespace Record

variable {line : String} {d : Datum} {c : Complaint}

theorem MarksPiece.exists_blames (h : MarksPiece line c) :
    ∃ before part after, c.report.Blames before part after := by
  by_cases htwo : (Text.words line.toList).length = 2
  · obtain ⟨front, mnemonic, between, operand, after, -, -, -, -, -, -, -, hblames⟩ :=
      h.second htwo
    exact ⟨_, _, _, hblames⟩
  · exact ⟨_, _, _, h.whole htwo⟩

theorem told_of_ofLine (h : ofLine line = .error c) : c.Told := by
  obtain ⟨before, part, after, hblames⟩ := (marksPiece_of_ofLine_error h).exists_blames
  refine ⟨?_, hblames.drawingFault?_eq⟩
  rcases ofLine_eq_error h with ⟨-, rfl⟩ | ⟨mnemonic, operand, -, rfl⟩
  · rfl
  · rfl

theorem told_of_instr (h : instr d = .error c) : c.Told := by
  unfold instr at h
  split at h
  · split at h
    · unfold Instr.pushOf at h
      split at h
      · cases h
      · obtain rfl := Except.error.inj h
        exact told_of_not_diagnosed rfl rfl
    · split at h
      · split at h
        · cases h
        · obtain rfl := Except.error.inj h
          exact told_of_not_diagnosed rfl rfl
      · obtain rfl := Except.error.inj h
        exact told_of_not_diagnosed rfl rfl
  · obtain rfl := Except.error.inj h
    exact told_of_not_diagnosed rfl rfl

end Record

theorem Program.told_of_ofRecords {ds : List Datum} {c : Complaint}
    (h : ofRecords ds = .error c) : c.Told := by
  have hread := eq_error_of_map h
  clear h
  induction ds with
  | nil => cases hread
  | cons d ds ih =>
      rw [List.mapM_cons] at hread
      rcases eq_error_of_bind hread with hd | ⟨i, -, hrest⟩
      · exact Record.told_of_instr hd
      · rcases eq_error_of_bind hrest with hds | ⟨is, -, hdone⟩
        · exact ih hds
        · cases hdone

namespace Stack

variable {s : Stack} {x : Float} {op : Operator} {d : Datum} {c : Complaint}

theorem told_of_push (h : s.push x = .error c) : c.Told := by
  unfold push at h
  split at h
  · cases h
  · split at h
    · obtain rfl := Except.error.inj h
      exact told_of_not_diagnosed rfl rfl
    · cases h

theorem told_of_step (h : s.step d = .error c) : c.Told := by
  rw [step_eq_task] at h
  split at h
  · exact told_of_push h
  · split at h
    · obtain rfl := Except.error.inj h
      exact told_of_not_diagnosed rfl rfl
    · unfold combine at h
      split at h
      · split at h
        · exact told_of_push h
        · cases h
      · cases h
  · obtain rfl := Except.error.inj h
    exact told_of_not_diagnosed rfl rfl

theorem told_of_steps {ds : List Datum} (h : (s.steps ds).2 = some c) :
    c.Told := by
  induction ds generalizing s with
  | nil => cases h
  | cons d ds ih =>
      rw [steps] at h
      cases hstep : s.step d with
      | ok t =>
          rw [hstep] at h
          exact ih h
      | error c' =>
          rw [hstep] at h
          obtain rfl := Option.some.inj h
          exact told_of_step hstep

theorem told_of_finish (h : s.finish.2 = .error c) : c.Told := by
  unfold finish at h
  split at h
  · obtain rfl := Except.error.inj h
    exact told_of_not_diagnosed rfl rfl
  · split at h
    · cases h
    · obtain rfl := Except.error.inj h
      exact told_of_not_diagnosed rfl rfl
  · obtain rfl := Except.error.inj h
    exact told_of_not_diagnosed rfl rfl

/-- Whatever the program, the machine complains of the program and of the room on the stack. -/
theorem told_of_run {p : Program} (h : (s.run p).2 = .error c) :
    c.Told := by
  unfold run at h
  split at h
  · exact told_of_finish h
  · rename_i c' hsteps
    obtain rfl := Except.error.inj h
    exact told_of_steps (congrArg Prod.snd hsteps)

end Stack

end Calculator
