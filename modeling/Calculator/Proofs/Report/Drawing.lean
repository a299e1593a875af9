import Calculator.Proofs.Report.Containment
import Calculator.Proofs.Report.Told

/-!
What is drawn of a span.  The subject is cut into three parts to set the span in colour; together
they are the subject, wherever the span lies.  Below it stand blanks up to the first column of the
span, and marks up to its last one; there is one mark at least.  Where a rejected text is blamed,
the marks stand below the part that is blamed and nowhere else.
-/
namespace Calculator

namespace Report

variable {r : Report} {cs before part after : List Char} {i j : Int}

instance (r : Report) (n : Int) : Decidable (r.Repeatable n) :=
  inferInstanceAs (Decidable (_ ∧ _))

/-! ### Parts of the subject -/

theorem column_of_nonneg (hi : 0 ≤ i) (n : Nat) : column n i = min i.toNat n :=
  if_neg (Int.not_lt.mpr hi)

/-- Up to a column, from there to a later one, and from that one on: these are all characters. -/
theorem slice_append_slices (hi : 0 ≤ i) (hij : i ≤ j) (cs : List Char) :
    slice cs 0 i ++ (slice cs i j ++ slice cs j cs.length) = cs := by
  have hle : column cs.length i ≤ column cs.length j := by
    rw [column_of_nonneg hi, column_of_nonneg (hi.trans hij)]
    omega
  have hall : column cs.length cs.length = cs.length := by
    rw [column_of_nonneg (Int.natCast_nonneg _)]
    omega
  have hnone : column cs.length 0 = 0 := by
    rw [column_of_nonneg le_rfl]
    omega
  have hfront : cs.take (column cs.length i) =
      (cs.take (column cs.length j)).take (column cs.length i) := by
    rw [List.take_take, Nat.min_eq_left hle]
  simp only [slice, hall, hnone, List.drop_zero, List.take_length]
  rw [← List.append_assoc, hfront, List.take_append_drop, List.take_append_drop]

/-! ### The drawing -/

/-- The line below a subject: blanks up to a column, a mark, and so many more marks. -/
def markLine (start more : Nat) : String :=
  "  " ++ String.ofList (List.replicate start ' ' ++ '^' :: List.replicate more '~')

/-- The two lines of a drawing: the subject, and below it marks from the column where the span
starts up to the one where it ends, or one mark if it has no columns. -/
structure Underlines (r : Report) (upper lower : String) : Prop where
  upper_eq : upper = "  " ++ r.subject
  lower_eq : ∃ start more : Nat, r.start = start ∧ max r.stop (r.start + 1) = start + 1 + more ∧
    lower = markLine start more
  upper_line : '\n' ∉ upper.toList
  lower_line : '\n' ∉ lower.toList

theorem newline_notMem_markLine (start more : Nat) : '\n' ∉ (markLine start more).toList := by
  simp [markLine, List.mem_replicate]

/-- Without colour the span stands unchanged in the subject. -/
theorem diagnosis_eq (hstart : 0 ≤ r.start) (warning : Bool) :
    r.diagnosis false warning = "  " ++ r.subject ++ "\n" ++
      markLine r.start.toNat (r.markedStop - r.start - 1).toNat := by
  have hstop : r.start ≤ r.markedStop := by
    rw [markedStop]
    omega
  have hsubject : String.ofList (slice r.subject.toList 0 r.start) ++
      (String.ofList (slice r.subject.toList r.start r.markedStop) ++
        String.ofList (slice r.subject.toList r.markedStop r.subject.toList.length)) =
      r.subject := by
    rw [← String.ofList_append, ← String.ofList_append, slice_append_slices hstart hstop,
      String.ofList_toList]
  simp only [diagnosis, Ink.paint_false, markLine, String.ofList_append]
  conv_rhs => rw [← hsubject]
  simp only [String.append_assoc]

theorem spanFault?_eq_none_iff :
    r.spanFault? = none ↔
      r.Repeatable r.start ∧ r.Repeatable (r.markedStop - r.start - 1) := by
  rw [spanFault?, ← repeatFault?_eq_none_iff, ← repeatFault?_eq_none_iff]
  simp

theorem eq_of_repeatFault? {n : Int} {i : Internal} (h : r.repeatFault? n = some i) :
    i = .capacityTooLarge ∨ i = .outOfMemory := by
  unfold repeatFault? at h
  split at h
  · exact .inl (Option.some.inj h).symm
  · split at h
    · cases h
    · split at h
      · exact .inl (Option.some.inj h).symm
      · split at h
        · exact .inr (Option.some.inj h).symm
        · cases h

theorem eq_of_spanFault? {i : Internal} (h : r.spanFault? = some i) :
    i = .capacityTooLarge ∨ i = .outOfMemory := by
  rcases Option.or_eq_some_iff.mp h with hblanks | ⟨-, hmarks⟩
  · exact eq_of_repeatFault? hblanks
  · exact eq_of_repeatFault? hmarks

theorem draw_eq (hdrawn : r.spanFault? = none) (coloured warning : Bool) :
    r.draw coloured warning = .ok (r.diagnosis coloured warning) := by
  rw [draw, hdrawn]

theorem underlines (hstart : 0 ≤ r.start) (hsubject : '\n' ∉ r.subject.toList) :
    r.Underlines ("  " ++ r.subject)
      (markLine r.start.toNat (r.markedStop - r.start - 1).toNat) where
  upper_eq := rfl
  lower_eq := by
    refine ⟨_, _, (Int.toNat_of_nonneg hstart).symm, ?_, rfl⟩
    rw [markedStop]
    omega
  upper_line := by simpa using hsubject
  lower_line := newline_notMem_markLine _ _

/-- The span is drawn in two lines just if there is room for the blanks and for the marks. -/
structure DrawsSpan (r : Report) : Prop where
  drawn : r.Repeatable r.start ∧ r.Repeatable (r.markedStop - r.start - 1) → ∀ warning,
    ∃ upper lower, r.draw false warning = .ok (upper ++ "\n" ++ lower) ∧ r.Underlines upper lower
  refused : ¬ (r.Repeatable r.start ∧ r.Repeatable (r.markedStop - r.start - 1)) → ∀ warning,
    r.draw false warning = .error .capacityTooLarge ∨ r.draw false warning = .error .outOfMemory

theorem drawsSpan (hstart : 0 ≤ r.start) (hsubject : '\n' ∉ r.subject.toList) : r.DrawsSpan where
  drawn := by
    intro hroom warning
    refine ⟨_, _, ?_, underlines hstart hsubject⟩
    rw [draw_eq (spanFault?_eq_none_iff.mpr hroom), diagnosis_eq hstart]
  refused := by
    intro hroom warning
    rw [← spanFault?_eq_none_iff] at hroom
    obtain ⟨i, hi⟩ := Option.ne_none_iff_exists'.mp hroom
    rw [draw, hi]
    rcases eq_of_spanFault? hi with rfl | rfl
    · exact .inl rfl
    · exact .inr rfl

/-! ### Rejected texts -/

/-- The part that is blamed is not empty, and the marks stand just below it. -/
theorem Blames.draw_eq (h : r.Blames before part after) (hne : part ≠ []) (warning : Bool) :
    r.draw false warning = .ok ("  " ++ r.subject ++ "\n" ++
      markLine before.length (part.length - 1)) := by
  have hpart : 0 < part.length := List.length_pos_iff.mpr hne
  have hlength := h.length_subject
  have hstart := h.start_eq
  have hstop := h.stop_eq
  have hmarks : r.markedStop - r.start - 1 = (part.length - 1 : Nat) := by
    rw [markedStop]
    omega
  have hdrawn : r.spanFault? = none := by
    rw [spanFault?, repeatFault?_of_le (by omega) (by omega),
      repeatFault?_of_le (by omega) (by omega)]
    rfl
  rw [Report.draw_eq hdrawn, diagnosis_eq (by omega), hmarks, hstart, Int.toNat_natCast,
    Int.toNat_natCast]

/-- The report is about the text, and the marks stand below the part of it that is blamed and
nowhere else. -/
def MarksJust (r : Report) (source : String) : Prop :=
  r.subject = source ∧ ∃ before part after, part ≠ [] ∧ r.Blames before part after ∧
    ∀ warning, r.draw false warning =
      .ok ("  " ++ source ++ "\n" ++ markLine before.length (part.length - 1))

theorem Blames.marksJust {source : String} (h : r.Blames before part after) (hne : part ≠ [])
    (hsubject : r.subject = source) : r.MarksJust source := by
  refine ⟨hsubject, before, part, after, hne, h, ?_⟩
  intro warning
  rw [h.draw_eq hne warning, hsubject]

end Report

/-- What is marked of a text that is not empty is not empty. -/
theorem Expr.MarksPiece.marksJust {source : String} {c : Complaint} (h : MarksPiece source c)
    (hne : source ≠ "") : c.report.MarksJust source := by
  by_cases hblanks : Text.Blanks source.toList
  · exact (h.blank hblanks).marksJust (by simpa using hne) h.subject_eq
  · by_cases hstuck : ∃ before ch after, Token.Stuck source.toList before ch after
    · obtain ⟨before, ch, after, hstuck⟩ := hstuck
      exact (h.stuck before ch after hstuck).marksJust (List.cons_ne_nil ch []) h.subject_eq
    · have hscans : ∀ before ch after, ¬ Token.Stuck source.toList before ch after := by
        intro before ch after hat
        exact hstuck ⟨before, ch, after, hat⟩
      obtain ⟨us, t, vs, before, after, hcut, -, hblames, -⟩ := h.token hscans hblanks
      obtain ⟨-, -, -, -, hspelled, -⟩ := hcut.exists_around
      exact hblames.marksJust hspelled.isWord.ne_nil h.subject_eq

theorem Record.MarksPiece.marksJust {line : String} {c : Complaint} (h : MarksPiece line c)
    (hne : line ≠ "") : c.report.MarksJust line := by
  by_cases htwo : (Text.words line.toList).length = 2
  · obtain ⟨front, mnemonic, between, operand, after, -, -, -, -, -, hoperand, -, hblames⟩ :=
      h.second htwo
    exact hblames.marksJust hoperand.ne_nil h.subject_eq
  · exact (h.whole htwo).marksJust (by simpa using hne) h.subject_eq

end Calculator
