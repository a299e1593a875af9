import Calculator.Proofs.Text.Splitting
import Calculator.Proofs.Text.Trimming

/-!
Words of texts that are put together.  Where a blank begins the second of two texts, no word reaches
from one into the other; so blanks at the ends of a text do not matter to its words, and every other
character is in one of them.
-/
namespace Calculator.Text

variable {as bs cs : List Char} {c : Char}

theorem Blanks.endsWord (h : Blanks bs) : EndsWord bs := by
  intro c hc
  exact h c (List.mem_of_mem_head? hc)

theorem endsWord_cons (hc : isBlank c = true) (cs : List Char) : EndsWord (c :: cs) := by
  intro c' hc'
  obtain rfl := Option.some.inj hc'
  exact hc

/-- A character that is no blank begins a word. -/
theorem exists_words_cons (hc : isBlank c = false) (cs : List Char) :
    ∃ w ws, words (c :: cs) = (c :: w) :: ws := by
  rw [words_cons, hc]
  simp only [Bool.false_eq_true, ↓reduceIte]
  split
  · split <;> exact ⟨_, _, rfl⟩
  · exact ⟨_, _, rfl⟩

/-- A character belongs to the word that begins right after it. -/
theorem words_cons_cons {d : Char} {w : List Char} {ws : List (List Char)}
    (hc : isBlank c = false) (hd : isBlank d = false) (h : words (d :: cs) = w :: ws) :
    words (c :: d :: cs) = (c :: w) :: ws := by
  rw [words_cons, hc, h]
  simp [hd]

/-- No word reaches across a blank. -/
theorem words_append_of_endsWord (as : List Char) (h : EndsWord bs) :
    words (as ++ bs) = words as ++ words bs := by
  have hends : EndsWord [] := by simp [EndsWord]
  induction as with
  | nil => rfl
  | cons a as ih =>
      cases ha : isBlank a with
      | true => rw [List.cons_append, words_cons_of_isBlank ha, ih, words_cons_of_isBlank ha]
      | false =>
          cases as with
          | nil =>
              rw [List.singleton_append, words_cons_of_endsWord ha h,
                words_cons_of_endsWord ha hends]
              rfl
          | cons b as =>
              cases hb : isBlank b with
              | true =>
                  rw [List.cons_append, List.cons_append,
                    words_cons_of_endsWord ha (endsWord_cons hb (as ++ bs)), ← List.cons_append,
                    ih, words_cons_of_endsWord ha (endsWord_cons hb as), List.cons_append]
              | false =>
                  obtain ⟨w, ws, hwords⟩ := exists_words_cons hb as
                  rw [hwords, List.cons_append] at ih
                  rw [words_cons_cons ha hb hwords, List.cons_append]
                  exact words_cons_cons ha hb ih

theorem words_of_blanks (h : Blanks bs) : words bs = [] := by
  induction bs with
  | nil => rfl
  | cons b bs ih =>
      obtain ⟨hb, hbs⟩ := List.forall_mem_cons.mp h
      rw [words_cons_of_isBlank hb, ih hbs]

theorem words_blanks_append (h : Blanks bs) (cs : List Char) : words (bs ++ cs) = words cs := by
  induction bs with
  | nil => rfl
  | cons b bs ih =>
      obtain ⟨hb, hbs⟩ := List.forall_mem_cons.mp h
      rw [List.cons_append, words_cons_of_isBlank hb, ih hbs]

/-- Trimming a text keeps its words. -/
theorem words_trim (cs : List Char) : words (trim cs) = words cs := by
  obtain ⟨front, hfront, hleft, -⟩ := exists_trimLeft cs
  obtain ⟨back, hback, hright⟩ := exists_trimRight (trimLeft cs)
  have hinner : words (trimLeft cs) = words (trim cs) := by
    conv_lhs => rw [hright, words_append_of_endsWord _ hback.endsWord, words_of_blanks hback,
      List.append_nil]
    rfl
  conv_rhs => rw [hleft, words_blanks_append hfront, hinner]

/-- Only blanks have no words. -/
theorem words_eq_nil_iff : words cs = [] ↔ Blanks cs := by
  constructor
  · intro h
    induction cs with
    | nil => exact List.forall_mem_nil _
    | cons c cs ih =>
        cases hc : isBlank c with
        | false =>
            obtain ⟨w, ws, hwords⟩ := exists_words_cons hc cs
            rw [hwords] at h
            cases h
        | true =>
            rw [words_cons_of_isBlank hc] at h
            exact List.forall_mem_cons.mpr ⟨hc, ih h⟩
  · exact words_of_blanks

/-- The words are the text without its blanks. -/
theorem flatten_words (cs : List Char) : (words cs).flatten = cs.filter (!isBlank ·) := by
  induction cs with
  | nil => rfl
  | cons c cs ih =>
      cases hc : isBlank c with
      | true => rw [words_cons_of_isBlank hc, ih, List.filter_cons_of_neg (by simp [hc])]
      | false =>
          rw [List.filter_cons_of_pos (by simp [hc]), ← ih]
          cases cs with
          | nil => rw [words_cons_of_endsWord hc (by simp [EndsWord]), List.flatten_cons,
              List.singleton_append]
          | cons d cs =>
              cases hd : isBlank d with
              | true =>
                  rw [words_cons_of_endsWord hc (endsWord_cons hd cs), List.flatten_cons,
                    List.singleton_append]
              | false =>
                  obtain ⟨w, ws, hwords⟩ := exists_words_cons hd cs
                  rw [words_cons_cons hc hd hwords, hwords, List.flatten_cons, List.flatten_cons,
                    List.cons_append]

/-- Every character that is no blank is in a word. -/
theorem exists_mem_words (h : c ∈ cs) (hc : isBlank c = false) : ∃ w ∈ words cs, c ∈ w := by
  have hmem : c ∈ (words cs).flatten := by
    rw [flatten_words]
    exact List.mem_filter.mpr ⟨h, by simp [hc]⟩
  exact List.mem_flatten.mp hmem

theorem isWord_of_mem_words {w : List Char} (h : w ∈ words cs) : IsWord w := by
  constructor
  · induction cs generalizing w with
    | nil => cases h
    | cons c cs ih =>
        rw [words_cons] at h
        split at h
        · exact ih h
        · split at h
          · rename_i hwords
            rw [hwords] at ih
            split at h
            · rcases List.mem_cons.mp h with rfl | h
              · exact List.cons_ne_nil _ _
              · exact ih h
            · rcases List.mem_cons.mp h with rfl | h
              · exact List.cons_ne_nil _ _
              · exact ih (List.mem_cons_of_mem _ h)
          · rcases List.mem_cons.mp h with rfl | h
            · exact List.cons_ne_nil _ _
            · exact ih h
  · intro c hc
    have hmem : c ∈ (words cs).flatten := List.mem_flatten.mpr ⟨w, h, hc⟩
    rw [flatten_words] at hmem
    simpa using (List.mem_filter.mp hmem).2

/-- Trimming the end of a text stops at a word. -/
theorem trimRight_of_isWord {w : List Char} (hw : IsWord w) (hbs : Blanks bs) (as : List Char) :
    trimRight (as ++ (w ++ bs)) = as ++ w := by
  have hflush : Flush w.reverse := by
    intro c hc
    exact hw.no_blank c (List.mem_reverse.mp (List.mem_of_mem_head? hc))
  have hword : trimRight w = w := by
    rw [trimRight, ← trimLeft, trimLeft_of_flush hflush, List.reverse_reverse]
  rw [← List.append_assoc, trimRight_append hbs,
    trimRight_append_of_ne_nil as (by rw [hword]; exact hw.ne_nil), hword]

/-- The first word stands between blanks and what ends it. -/
theorem exists_of_words_cons {w : List Char} {ws : List (List Char)} (h : words cs = w :: ws) :
    ∃ bs rest, cs = bs ++ (w ++ rest) ∧ Blanks bs ∧ EndsWord rest ∧ words rest = ws := by
  have hends : EndsWord [] := by simp [EndsWord]
  induction cs generalizing w ws with
  | nil => cases h
  | cons c cs ih =>
      cases hc : isBlank c with
      | true =>
          rw [words_cons_of_isBlank hc] at h
          obtain ⟨bs, rest, rfl, hbs, hrest, hws⟩ := ih h
          exact ⟨c :: bs, rest, rfl, List.forall_mem_cons.mpr ⟨hc, hbs⟩, hrest, hws⟩
      | false =>
          cases cs with
          | nil =>
              rw [words_cons_of_endsWord hc hends] at h
              obtain ⟨rfl, rfl⟩ := List.cons.inj h
              exact ⟨[], [], rfl, List.forall_mem_nil _, hends, rfl⟩
          | cons d cs =>
              cases hd : isBlank d with
              | true =>
                  have hrest : EndsWord (d :: cs) := endsWord_cons hd cs
                  rw [words_cons_of_endsWord hc hrest] at h
                  obtain ⟨rfl, rfl⟩ := List.cons.inj h
                  exact ⟨[], d :: cs, rfl, List.forall_mem_nil _, hrest, rfl⟩
              | false =>
                  obtain ⟨v, vs, hwords⟩ := exists_words_cons hd cs
                  obtain ⟨bs, rest, hsplit, hbs, hrest, hvs⟩ := ih hwords
                  rw [words_cons_cons hc hd hwords] at h
                  obtain ⟨rfl, rfl⟩ := List.cons.inj h
                  -- no blank stands before the word, since a character that is none follows it
                  cases bs with
                  | nil =>
                      refine ⟨[], rest, ?_, List.forall_mem_nil _, hrest, hvs⟩
                      rw [hsplit]
                      rfl
                  | cons b bs =>
                      obtain rfl : d = b := (List.cons.inj hsplit).1
                      rw [hbs d List.mem_cons_self] at hd
                      cases hd

/-- Two words stand apart, with blanks around them. -/
theorem exists_of_words_pair {v w : List Char} (h : words cs = [v, w]) :
    ∃ front between back, cs = front ++ (v ++ (between ++ (w ++ back))) ∧ Blanks front ∧
      IsWord v ∧ Blanks between ∧ between ≠ [] ∧ IsWord w ∧ Blanks back := by
  have hv : IsWord v := isWord_of_mem_words (h ▸ List.mem_cons_self)
  have hw : IsWord w := isWord_of_mem_words (h ▸ List.mem_cons_of_mem v List.mem_cons_self)
  obtain ⟨front, rest, rfl, hfront, hrest, hwords⟩ := exists_of_words_cons h
  obtain ⟨between, back, rfl, hbetween, -, hback⟩ := exists_of_words_cons hwords
  refine ⟨front, between, back, rfl, hfront, hv, hbetween, ?_, hw, words_eq_nil_iff.mp hback⟩
  rintro rfl
  obtain ⟨c, w, rfl⟩ := List.exists_cons_of_ne_nil hw.ne_nil
  have hc := hw.no_blank c List.mem_cons_self
  rw [hrest c rfl] at hc
  cases hc

/-- The last place where a text occurs in another one. -/
structure IsLast (w cs : List Char) (n : Nat) : Prop where
  occurs : w <+: cs.drop n
  le : ∀ m, w <+: cs.drop m → m ≤ n

/-- A word that only blanks follow occurs nowhere behind, where its last character would be one of
them. -/
theorem isLast_of_blanks {w : List Char} (hw : IsWord w) (hbs : Blanks bs) (as : List Char) :
    IsLast w (as ++ (w ++ bs)) as.length := by
  constructor
  · rw [List.drop_left]
    exact List.prefix_append w bs
  · intro m hm
    by_contra hlt
    obtain ⟨rest, hrest⟩ := hm
    obtain ⟨v, c, rfl⟩ := (List.eq_nil_or_concat' w).resolve_left hw.ne_nil
    have hbehind : (as ++ (v ++ [c] ++ bs)).drop (m + v.length) = c :: rest := by
      rw [← List.drop_drop, ← hrest, List.append_assoc, List.drop_left]
      rfl
    have hlength : m + v.length = as.length + ((v ++ [c]).length + (m - as.length - 1)) := by
      rw [List.length_append, List.length_singleton]
      omega
    rw [hlength, List.drop_length_add_append, List.drop_length_add_append] at hbehind
    have hmem : c ∈ bs := by
      apply List.mem_of_mem_drop (i := m - as.length - 1)
      rw [hbehind]
      exact List.mem_cons_self
    have hblank := hw.no_blank c List.mem_concat_self
    rw [hbs c hmem] at hblank
    cases hblank

end Calculator.Text
