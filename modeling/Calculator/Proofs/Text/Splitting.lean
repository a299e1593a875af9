import Calculator.Text.Blank
import Calculator.Text.Line
import Mathlib.Data.List.Basic

/-!
Texts split again.  Words that are joined by single blanks are the words of what is joined, and
lines that are joined by line feeds are its lines.
-/
namespace Calculator.Text

variable {w cs rest : List Char} {c : Char}

/-- The text is not empty and has no blank in it. -/
structure IsWord (w : List Char) : Prop where
  ne_nil : w ≠ []
  no_blank : ∀ c ∈ w, isBlank c = false

theorem isWord_of_all (hne : w ≠ []) (h : w.all (!isBlank ·) = true) : IsWord w := by
  refine ⟨hne, ?_⟩
  intro c hc
  simpa using List.all_eq_true.mp h c hc

/-- A blank begins the text, or the text is empty. -/
def EndsWord (cs : List Char) : Prop :=
  ∀ c ∈ cs.head?, isBlank c = true

theorem words_cons (c : Char) (cs : List Char) :
    words (c :: cs) =
      if isBlank c then words cs
      else match cs, words cs with
        | d :: _, w :: ws => if isBlank d then [c] :: w :: ws else (c :: w) :: ws
        | _, ws => [c] :: ws := by
  exact words.eq_def (c :: cs)

theorem words_cons_of_isBlank (hc : isBlank c = true) (cs : List Char) :
    words (c :: cs) = words cs := by
  rw [words_cons, if_pos hc]

/-- A single character that is no blank is a word before a blank. -/
theorem words_cons_of_endsWord (hc : isBlank c = false) (hrest : EndsWord rest) :
    words (c :: rest) = [c] :: words rest := by
  rw [words_cons, hc]
  cases rest with
  | nil => rfl
  | cons b rest =>
      have hb : isBlank b = true := hrest b rfl
      cases words (b :: rest) with
      | nil => rfl
      | cons v vs => simp [hb]

/-- A word is split off whole. -/
theorem words_append (h : IsWord w) (hrest : EndsWord rest) :
    words (w ++ rest) = w :: words rest := by
  obtain ⟨hne, hblank⟩ := h
  induction w with
  | nil => exact absurd rfl hne
  | cons c w ih =>
      obtain ⟨hc, hw⟩ := List.forall_mem_cons.mp hblank
      cases w with
      | nil => exact words_cons_of_endsWord hc hrest
      | cons d w =>
          have hd : isBlank d = false := hw d List.mem_cons_self
          have htail := ih (List.cons_ne_nil d w) hw
          rw [List.cons_append, words_cons, hc, htail]
          simp [hd]

/-- Words that are joined by single blanks are split again. -/
theorem words_intercalate {ws : List (List Char)} (h : ∀ w ∈ ws, IsWord w) :
    words ([' '].intercalate ws) = ws := by
  induction ws with
  | nil => rfl
  | cons w ws ih =>
      obtain ⟨hw, hws⟩ := List.forall_mem_cons.mp h
      cases ws with
      | nil =>
          have hends : EndsWord [] := by simp [EndsWord]
          have hword := words_append hw hends
          simpa [words] using hword
      | cons v ws =>
          have hends : EndsWord (' ' :: [' '].intercalate (v :: ws)) := by
            intro c hc
            obtain rfl := Option.some.inj hc
            decide
          rw [List.intercalate_cons_cons, List.append_assoc, List.singleton_append,
            words_append hw hends, words_cons_of_isBlank (by decide), ih hws]

/-- The text is not empty and nothing in it ends a line. -/
structure IsLine (cs : List Char) : Prop where
  ne_nil : cs ≠ []
  no_end : ∀ c ∈ cs, c ≠ '\n' ∧ c ≠ '\r'

/-- The ends of lines are blanks, so there is none in a word. -/
theorem IsWord.no_end (h : IsWord w) : ∀ c ∈ w, c ≠ '\n' ∧ c ≠ '\r' := by
  intro c hc
  have hblank := h.no_blank c hc
  constructor
  · rintro rfl
    exact absurd hblank (by decide)
  · rintro rfl
    exact absurd hblank (by decide)

theorem linesFrom_cons (current cs : List Char) (hc : c ≠ '\n' ∧ c ≠ '\r') :
    linesFrom current (c :: cs) = linesFrom (c :: current) cs := by
  obtain ⟨hfeed, hreturn⟩ := hc
  rw [linesFrom]
  · rintro cs' rfl
    contradiction
  · exact hreturn
  · exact hfeed

/-- The characters of a line are collected, the last one first. -/
theorem linesFrom_append (current : List Char) (h : ∀ c ∈ cs, c ≠ '\n' ∧ c ≠ '\r')
    (rest : List Char) :
    linesFrom current (cs ++ rest) = linesFrom (cs.reverse ++ current) rest := by
  induction cs generalizing current with
  | nil => rfl
  | cons c cs ih =>
      obtain ⟨hc, hcs⟩ := List.forall_mem_cons.mp h
      rw [List.cons_append, linesFrom_cons _ _ hc, ih (c :: current) hcs, List.reverse_cons,
        List.append_assoc, List.singleton_append]

theorem lines_of_isLine (h : IsLine cs) : lines cs = [cs] := by
  have hlines := linesFrom_append [] h.no_end []
  rw [List.append_nil, List.append_nil] at hlines
  rw [lines, hlines, linesFrom, List.isEmpty_reverse, List.isEmpty_eq_false_iff.mpr h.ne_nil,
    List.reverse_reverse]
  rfl

theorem lines_append (h : IsLine cs) (rest : List Char) :
    lines (cs ++ '\n' :: rest) = cs :: lines rest := by
  have hlines := linesFrom_append [] h.no_end ('\n' :: rest)
  rw [List.append_nil] at hlines
  rw [lines, hlines, linesFrom, List.reverse_reverse]
  rfl

/-- Lines that are joined by line feeds are split again. -/
theorem lines_intercalate {ls : List (List Char)} (h : ∀ l ∈ ls, IsLine l) :
    lines (['\n'].intercalate ls) = ls := by
  induction ls with
  | nil => rfl
  | cons l ls ih =>
      obtain ⟨hl, hls⟩ := List.forall_mem_cons.mp h
      cases ls with
      | nil =>
          have hline := lines_of_isLine hl
          simpa using hline
      | cons m ls =>
          rw [List.intercalate_cons_cons, List.append_assoc, List.singleton_append,
            lines_append hl, ih hls]

end Calculator.Text
