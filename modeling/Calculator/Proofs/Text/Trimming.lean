import Calculator.LogicalLine
import Mathlib.Data.List.Infix

/-!
Trimming and cutting comments.  A text is its trimmed part between two runs of blanks, and none of
these matters to what is trimmed later.  So it does not matter whether a line is trimmed before or
after its comment is cut, nor before or after it is joined to a text.
-/
namespace Calculator.Text

variable {as bs cs : List Char}

/-- Every character is a blank. -/
def Blanks (bs : List Char) : Prop :=
  ∀ c ∈ bs, isBlank c = true

/-- No blank begins the text. -/
def Flush (cs : List Char) : Prop :=
  ∀ c ∈ cs.head?, isBlank c = false

theorem Blanks.reverse (h : Blanks bs) : Blanks bs.reverse := by
  intro c hc
  exact h c (List.mem_reverse.mp hc)

theorem trimLeft_append (h : Blanks bs) (cs : List Char) : trimLeft (bs ++ cs) = trimLeft cs := by
  induction bs with
  | nil => rfl
  | cons c bs ih =>
      rcases List.forall_mem_cons.mp h with ⟨hc, hbs⟩
      rw [List.cons_append, trimLeft, List.dropWhile_cons_of_pos hc]
      exact ih hbs

theorem trimLeft_of_flush (h : Flush cs) : trimLeft cs = cs := by
  cases cs with
  | nil => rfl
  | cons c cs =>
      have hc : isBlank c = false := h c rfl
      exact List.dropWhile_cons_of_neg (by simp [hc])

/-- A text is its part from the first character on that is no blank, after blanks. -/
theorem exists_trimLeft (cs : List Char) :
    ∃ bs, Blanks bs ∧ cs = bs ++ trimLeft cs ∧ Flush (trimLeft cs) := by
  induction cs with
  | nil => exact ⟨[], List.forall_mem_nil _, rfl, by simp [Flush, trimLeft]⟩
  | cons c cs ih =>
      cases hc : isBlank c with
      | false =>
          have hflush : Flush (c :: cs) := by
            intro c' hc'
            obtain rfl : c = c' := by simpa using hc'
            exact hc
          rw [trimLeft_of_flush hflush]
          exact ⟨[], List.forall_mem_nil _, rfl, hflush⟩
      | true =>
          rcases ih with ⟨bs, hbs, hsplit, hflush⟩
          have hdrop : trimLeft (c :: cs) = trimLeft cs := List.dropWhile_cons_of_pos hc
          rw [hdrop]
          exact ⟨c :: bs, List.forall_mem_cons.mpr ⟨hc, hbs⟩, congrArg (c :: ·) hsplit, hflush⟩

theorem trimRight_append (h : Blanks bs) (cs : List Char) :
    trimRight (cs ++ bs) = trimRight cs := by
  rw [trimRight, List.reverse_append, ← trimLeft, trimLeft_append h.reverse]
  rfl

/-- A text is its part up to the last character that is no blank, before blanks. -/
theorem exists_trimRight (cs : List Char) : ∃ bs, Blanks bs ∧ cs = trimRight cs ++ bs := by
  rcases exists_trimLeft cs.reverse with ⟨bs, hbs, hsplit, -⟩
  refine ⟨bs.reverse, hbs.reverse, ?_⟩
  have hreverse := congrArg List.reverse hsplit
  rwa [List.reverse_reverse, List.reverse_append] at hreverse

theorem trimRight_append_trimRight (as bs : List Char) :
    trimRight (as ++ trimRight bs) = trimRight (as ++ bs) := by
  rcases exists_trimRight bs with ⟨tail, htail, hsplit⟩
  conv_rhs => rw [hsplit, ← List.append_assoc, trimRight_append htail]

theorem Flush.of_isPrefix (h : Flush cs) (hfront : as <+: cs) : Flush as := by
  rcases hfront with ⟨bs, rfl⟩
  cases as with
  | nil =>
      intro c hc
      cases hc
  | cons c as => exact h

theorem trimRight_isPrefix (cs : List Char) : trimRight cs <+: cs := by
  rcases exists_trimRight cs with ⟨bs, -, hsplit⟩
  exact ⟨bs, hsplit.symm⟩

theorem flush_trim (cs : List Char) : Flush (trim cs) := by
  rcases exists_trimLeft cs with ⟨-, -, -, hflush⟩
  exact hflush.of_isPrefix (trimRight_isPrefix _)

theorem Flush.of_trim (h : trim cs = cs) : Flush cs := by
  rw [← h]
  exact flush_trim cs

theorem trim_of_flush (h : Flush cs) : trim cs = trimRight cs := by
  rw [trim, trimLeft_of_flush h]

theorem trimRight_trimRight (cs : List Char) : trimRight (trimRight cs) = trimRight cs :=
  trimRight_append_trimRight [] cs

theorem trim_trim (cs : List Char) : trim (trim cs) = trim cs := by
  rw [trim_of_flush (flush_trim cs), trim, trimRight_trimRight]

theorem trim_append_left (h : Blanks bs) (cs : List Char) : trim (bs ++ cs) = trim cs := by
  rw [trim, trimLeft_append h, trim]

theorem Flush.append (h : Flush cs) (hne : cs ≠ []) (bs : List Char) : Flush (cs ++ bs) := by
  cases cs with
  | nil => exact absurd rfl hne
  | cons c cs => exact h

theorem trim_append_right (h : Blanks bs) (cs : List Char) : trim (cs ++ bs) = trim cs := by
  rcases exists_trimLeft cs with ⟨front, hfront, hsplit, hflush⟩
  rw [hsplit, List.append_assoc, trim_append_left hfront, trim_append_left hfront]
  by_cases hnil : trimLeft cs = []
  · have hblank := trim_append_left h []
    rw [List.append_nil] at hblank
    rw [hnil, List.nil_append, hblank]
  · rw [trim_of_flush (hflush.append hnil bs), trim_of_flush hflush, trimRight_append h]

theorem trimRight_append_of_ne_nil (as : List Char) (h : trimRight bs ≠ []) :
    trimRight (as ++ bs) = as ++ trimRight bs := by
  have hne : ¬ (bs.reverse.dropWhile isBlank).isEmpty = true := by
    rw [List.isEmpty_iff]
    intro hnil
    exact h (by rw [trimRight, hnil, List.reverse_nil])
  rw [trimRight, List.reverse_append, List.dropWhile_append, if_neg hne, List.reverse_append,
    List.reverse_reverse, trimRight]

/-- Trimmed texts with a blank between them are trimmed. -/
theorem trim_append_cons (ha : trim as = as) (hne : as ≠ []) (hb : trim bs = bs) (hne' : bs ≠ []) :
    trim (as ++ ' ' :: bs) = as ++ ' ' :: bs := by
  have hright : trimRight bs = bs := by
    rw [← trim_of_flush (Flush.of_trim hb), hb]
  rw [trim_of_flush ((Flush.of_trim ha).append hne _), List.append_cons,
    trimRight_append_of_ne_nil _ (by rwa [hright]), hright]

/-- Trimmed text is a part of the text. -/
theorem trim_isInfix (cs : List Char) : trim cs <:+: cs := by
  rcases exists_trimLeft cs with ⟨bs, -, hsplit, -⟩
  have hsuffix : trimLeft cs <:+ cs := ⟨bs, hsplit.symm⟩
  exact (trimRight_isPrefix _).isInfix.trans hsuffix.isInfix

/-- Trimming drops blanks only. -/
theorem mem_trim {c : Char} (h : c ∈ cs) (hc : isBlank c = false) : c ∈ trim cs := by
  have hnot : ∀ {bs : List Char}, Blanks bs → c ∉ bs := by
    intro bs hbs hmem
    rw [hbs c hmem] at hc
    cases hc
  rcases exists_trimLeft cs with ⟨front, hfront, hsplit, -⟩
  rw [hsplit] at h
  have hleft := (List.mem_append.mp h).resolve_left (hnot hfront)
  rcases exists_trimRight (trimLeft cs) with ⟨back, hback, hsplit'⟩
  rw [hsplit'] at hleft
  exact (List.mem_append.mp hleft).resolve_right (hnot hback)

end Calculator.Text

namespace Calculator.LogicalLine

open Text

variable {as bs cs : List Char}

/-- No comment begins in the text. -/
def CommentFree (cs : List Char) : Prop :=
  ¬ [';', ';'] <:+: cs

theorem CommentFree.of_isInfix (h : CommentFree cs) (hinner : as <:+: cs) : CommentFree as :=
  fun hcomment => h (hcomment.trans hinner)

theorem cutComment_cons {c : Char} (h : ¬ (c = ';' ∧ cs.head? = some ';')) :
    cutComment (c :: cs) = c :: cutComment cs := by
  rw [cutComment, if_neg (by simpa using h)]

theorem cutComment_comment {c : Char} (h : c = ';' ∧ cs.head? = some ';') :
    cutComment (c :: cs) = [] := by
  rw [cutComment, if_pos (by simpa using h)]

theorem cutComment_isPrefix (cs : List Char) : cutComment cs <+: cs := by
  induction cs with
  | nil => exact List.prefix_refl []
  | cons c cs ih =>
      by_cases hcomment : c = ';' ∧ cs.head? = some ';'
      · rw [cutComment_comment hcomment]
        exact List.nil_prefix
      · rw [cutComment_cons hcomment]
        exact (List.prefix_cons_inj c).mpr ih

/-- The text before a comment has no comment. -/
theorem commentFree_cutComment (cs : List Char) : CommentFree (cutComment cs) := by
  induction cs with
  | nil => simp [CommentFree, cutComment]
  | cons c cs ih =>
      by_cases hcomment : c = ';' ∧ cs.head? = some ';'
      · rw [cutComment_comment hcomment]
        simp [CommentFree]
      · rw [cutComment_cons hcomment]
        intro hinner
        rcases List.infix_cons_iff.mp hinner with hfront | hbehind
        · rcases List.cons_prefix_cons.mp hfront with ⟨hc, hnext⟩
          rcases hnext.trans (cutComment_isPrefix cs) with ⟨rest, hrest⟩
          refine hcomment ⟨hc.symm, ?_⟩
          rw [← hrest]
          rfl
        · exact ih hbehind

/-- A text without a comment is cut nowhere. -/
theorem cutComment_of_commentFree (h : CommentFree cs) : cutComment cs = cs := by
  induction cs with
  | nil => rfl
  | cons c cs ih =>
      have hnone : ¬ (c = ';' ∧ cs.head? = some ';') := by
        rintro ⟨rfl, hhead⟩
        obtain ⟨rest, rfl⟩ := List.head?_eq_some_iff.mp hhead
        exact h ⟨[], rest, rfl⟩
      rw [cutComment_cons hnone, ih (h.of_isInfix (List.suffix_cons c cs).isInfix)]

/-- Characters up to one that is no semicolon come before the comment. -/
theorem takeWhile_prefix_cutComment {p : Char → Bool} (h : p ';' = false) (cs : List Char) :
    cs.takeWhile p <+: cutComment cs := by
  induction cs with
  | nil => exact List.prefix_refl []
  | cons c cs ih =>
      cases hc : p c with
      | false =>
          rw [List.takeWhile_cons_of_neg (by simp [hc])]
          exact List.nil_prefix
      | true =>
          have hcomment : ¬ (c = ';' ∧ cs.head? = some ';') := by
            rintro ⟨rfl, -⟩
            rw [h] at hc
            cases hc
          rw [List.takeWhile_cons_of_pos hc, cutComment_cons hcomment]
          exact (List.prefix_cons_inj c).mpr ih

/-- A blank keeps a text without a comment apart from the comments after it. -/
theorem cutComment_append (h : CommentFree as) (cs : List Char) :
    cutComment (as ++ ' ' :: cs) = as ++ ' ' :: cutComment cs := by
  induction as with
  | nil =>
      exact cutComment_cons (by simp)
  | cons a as ih =>
      have hnone : ¬ (a = ';' ∧ (as ++ ' ' :: cs).head? = some ';') := by
        rintro ⟨rfl, hhead⟩
        cases as with
        | nil => simp at hhead
        | cons b as =>
            obtain rfl : b = ';' := by simpa using hhead
            exact h ⟨[], as, rfl⟩
      rw [List.cons_append, cutComment_cons hnone,
        ih (h.of_isInfix (List.suffix_cons a as).isInfix), List.cons_append]

theorem not_comment_of_isBlank {c : Char} (h : isBlank c = true) : c ≠ ';' := by
  rintro rfl
  exact absurd h (by decide)

theorem cutComment_blanks_append (h : Blanks bs) (cs : List Char) :
    cutComment (bs ++ cs) = bs ++ cutComment cs := by
  induction bs with
  | nil => rfl
  | cons b bs ih =>
      rcases List.forall_mem_cons.mp h with ⟨hb, hbs⟩
      have hnone : ¬ (b = ';' ∧ (bs ++ cs).head? = some ';') :=
        fun hcomment => not_comment_of_isBlank hb hcomment.1
      rw [List.cons_append, cutComment_cons hnone, ih hbs, List.cons_append]

/-- Blanks at the end of a text are kept, or they are part of a comment. -/
theorem exists_cutComment_append (h : Blanks bs) (cs : List Char) :
    ∃ tail, Blanks tail ∧ cutComment (cs ++ bs) = cutComment cs ++ tail := by
  induction cs with
  | nil =>
      have hblanks := cutComment_blanks_append h []
      rw [List.append_nil] at hblanks
      exact ⟨bs, h, by rw [List.nil_append, hblanks]; simp [cutComment]⟩
  | cons c cs ih =>
      have hhead : (c = ';' ∧ (cs ++ bs).head? = some ';') ↔ (c = ';' ∧ cs.head? = some ';') := by
        cases cs with
        | nil =>
            constructor
            · rintro ⟨-, hb⟩
              exact absurd rfl (not_comment_of_isBlank (h ';' (List.mem_of_mem_head? hb)))
            · rintro ⟨-, hnone⟩
              cases hnone
        | cons d cs => exact Iff.rfl
      by_cases hcomment : c = ';' ∧ cs.head? = some ';'
      · refine ⟨[], List.forall_mem_nil _, ?_⟩
        rw [List.cons_append, cutComment_comment (hhead.mpr hcomment), cutComment_comment hcomment]
        rfl
      · rcases ih with ⟨tail, htail, hcut⟩
        refine ⟨tail, htail, ?_⟩
        rw [List.cons_append, cutComment_cons (fun hc => hcomment (hhead.mp hc)), hcut,
          cutComment_cons hcomment, List.cons_append]

/-- A line may be trimmed before its comment is cut. -/
theorem trim_cutComment_trim (cs : List Char) :
    trim (cutComment (trim cs)) = trim (cutComment cs) := by
  rcases exists_trimLeft cs with ⟨front, hfront, hsplit, -⟩
  rcases exists_trimRight (trimLeft cs) with ⟨back, hback, hsplit'⟩
  rcases exists_cutComment_append hback (trim cs) with ⟨tail, htail, hcut⟩
  have hleft : trimLeft cs = trim cs ++ back := hsplit'
  conv_rhs => rw [hsplit, cutComment_blanks_append hfront, trim_append_left hfront, hleft, hcut,
    trim_append_right htail]

/-- A line may be cleaned before it is joined to a text. -/
theorem trim_cutComment_append (hflush : Flush as) (hne : as ≠ []) (hfree : CommentFree as)
    (cs : List Char) :
    trim (cutComment (as ++ ' ' :: trim cs)) = trim (as ++ ' ' :: trim (cutComment cs)) := by
  have htail : Flush (cutComment (trim cs)) := (flush_trim cs).of_isPrefix (cutComment_isPrefix _)
  have hclean : trim (cutComment cs) = trimRight (cutComment (trim cs)) := by
    rw [← trim_of_flush htail, trim_cutComment_trim]
  rw [cutComment_append hfree, trim_of_flush (hflush.append hne _),
    trim_of_flush (hflush.append hne _), hclean]
  have hright := trimRight_append_trimRight (as ++ [' ']) (cutComment (trim cs))
  simpa only [List.append_assoc, List.singleton_append] using hright.symm

end Calculator.LogicalLine
