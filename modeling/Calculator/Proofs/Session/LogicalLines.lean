import Calculator.Proofs.Text.Words
import Calculator.Text.Line

/-!
The logical lines of a text, read from the front.  A logical line is open while it has more opening
than closing parentheses, and then the next line belongs to it; a blank line begins none.  This is
what `LogicalLine.assemble` collects from the back, and it never fails.
-/
namespace Calculator.LogicalLine

open Text

variable {number : Int} {opened : Option LogicalLine} {l m : LogicalLine} {line text : String}
  {lines : List String}

/-- The logical line that a line continues, if one is open, and otherwise begins. -/
def extended (number : Int) (opened : Option LogicalLine) (line : String) : LogicalLine :=
  match opened with
  | none => ⟨clean line, number⟩
  | some l => ⟨joined l.text (clean line), l.number⟩

/-- The logical lines of lines that begin at a number, after a logical line that is open. -/
def gather (number : Int) (opened : Option LogicalLine) : List String → List LogicalLine
  | [] => opened.toList
  | line :: lines =>
    let l := extended number opened line
    if isOpen l.text then gather (number + 1) (some l) lines
    else if l.text.isEmpty then gather (number + 1) none lines
    else l :: gather (number + 1) none lines

/-- The logical lines of a text. -/
def ofText (cs : List Char) : List LogicalLine :=
  gather 1 none ((Text.lines cs).map String.ofList)

/-- A text as it is kept: trimmed, and without a comment. -/
structure Tidy (text : String) : Prop where
  trimmed : trim text.toList = text.toList
  commentFree : CommentFree text.toList

theorem Tidy.flush (h : Tidy text) : Flush text.toList :=
  .of_trim h.trimmed

theorem tidy_clean (line : String) : Tidy (clean line) := by
  constructor
  · rw [clean, String.toList_ofList, trim_trim]
  · rw [clean, String.toList_ofList]
    exact (commentFree_cutComment _).of_isInfix (trim_isInfix _)

/-- A line without its comment. -/
def uncommented (line : String) : String :=
  String.ofList (cutComment line.toList)

/-- A line has the same words without the blanks at its ends. -/
theorem words_clean (line : String) :
    words (clean line).toList = words (uncommented line).toList := by
  rw [clean, uncommented, String.toList_ofList, String.toList_ofList, words_trim]

/-- A tidy text without words is empty. -/
theorem Tidy.eq_empty_of_words (h : Tidy text) (hwords : words text.toList = []) : text = "" := by
  have htrim := trim_append_left (words_eq_nil_iff.mp hwords) []
  rw [List.append_nil, h.trimmed] at htrim
  exact String.toList_inj.mp htrim

theorem toList_ne_nil_of_isOpen (h : isOpen text = true) : text.toList ≠ [] := by
  intro hnil
  rw [isOpen, hnil] at h
  cases h

/-- A line is joined to an open text as the shell does it, which cleans the two as one line. -/
theorem clean_append (htidy : Tidy text) (hopen : isOpen text = true) (line : String) :
    clean (text ++ " " ++ trimmed line) = joined text (clean line) := by
  have hspace : (" " : String).toList = [' '] := rfl
  have hjoin := trim_cutComment_append htidy.flush (toList_ne_nil_of_isOpen hopen)
    htidy.commentFree line.toList
  simp only [clean, joined, trimmed, String.toList_append, String.toList_ofList, hspace,
    List.append_assoc, List.singleton_append, hjoin]

/-- A line that begins a logical line is cleaned as the shell does it. -/
theorem clean_trimmed (line : String) : clean ("" ++ " " ++ trimmed line) = clean line := by
  have hblank : Blanks [' '] := List.forall_mem_singleton.mpr rfl
  have hspace : ("" ++ " " : String).toList = [' '] := rfl
  simp only [clean, trimmed, String.toList_append, String.toList_ofList, hspace,
    cutComment_blanks_append hblank, trim_append_left hblank, trim_cutComment_trim]

/-- The text that a logical line has so far. -/
def keptText : Option LogicalLine → String
  | none => ""
  | some l => l.text

/-- What may be left open: nothing, or a tidy text that is open. -/
def Kept (opened : Option LogicalLine) : Prop :=
  ∀ l ∈ opened, Tidy l.text ∧ isOpen l.text = true

theorem kept_none : Kept none := by
  intro l hl
  cases hl

/-- Extending a logical line by a line is what the shell does to the text that it keeps. -/
theorem text_extended (h : Kept opened) (number : Int) (line : String) :
    (extended number opened line).text = clean (keptText opened ++ " " ++ trimmed line) := by
  cases opened with
  | none => exact (clean_trimmed line).symm
  | some l =>
      rcases h l rfl with ⟨htidy, hopen⟩
      exact (clean_append htidy hopen line).symm

theorem tidy_extended (h : Kept opened) (number : Int) (line : String) :
    Tidy (extended number opened line).text := by
  rw [text_extended h]
  exact tidy_clean _

theorem kept_extended (h : Kept opened)
    (hopen : isOpen (extended number opened line).text = true) :
    Kept (some (extended number opened line)) := by
  intro l hl
  obtain rfl := Option.some.inj hl
  exact ⟨tidy_extended h number line, hopen⟩

/-- A logical line that is continued is not blank. -/
theorem isEmpty_extended_some (h : Kept (some l)) (number : Int) (line : String) :
    (extended number (some l) line).text.isEmpty = false := by
  rcases h l rfl with ⟨htidy, hopen⟩
  have hne := toList_ne_nil_of_isOpen hopen
  rw [Bool.eq_false_iff]
  intro hempty
  have hnil : trim (l.text.toList ++ ' ' :: (clean line).toList) = [] := by
    have htoList := congrArg String.toList (String.isEmpty_iff.mp hempty)
    simpa [extended, joined, Text.trimmed] using htoList
  rw [trim_of_flush (htidy.flush.append hne _)] at hnil
  -- a trimmed text that is empty had blanks only, but the open text begins with another character
  rcases exists_trimRight (l.text.toList ++ ' ' :: (clean line).toList) with ⟨bs, hbs, hsplit⟩
  rw [hnil, List.nil_append] at hsplit
  obtain ⟨c, cs, hcs⟩ := List.exists_cons_of_ne_nil hne
  have hblank : isBlank c = true := by
    apply hbs
    rw [← hsplit, hcs]
    exact List.mem_cons_self
  have hflush : isBlank c = false := htidy.flush c (by rw [hcs]; rfl)
  rw [hblank] at hflush
  cases hflush

theorem gather_open (h : isOpen (extended number opened line).text = true) :
    gather number opened (line :: lines) =
      gather (number + 1) (some (extended number opened line)) lines :=
  if_pos h

theorem gather_blank (h : ¬ isOpen (extended number opened line).text = true)
    (hempty : (extended number opened line).text.isEmpty = true) :
    gather number opened (line :: lines) = gather (number + 1) none lines :=
  (if_neg h).trans (if_pos hempty)

theorem gather_closed (h : ¬ isOpen (extended number opened line).text = true)
    (hempty : ¬ (extended number opened line).text.isEmpty = true) :
    gather number opened (line :: lines) =
      extended number opened line :: gather (number + 1) none lines :=
  (if_neg h).trans (if_neg hempty)

/-- Nothing but blanks is lost when a logical line is extended. -/
theorem mem_extended {c : Char} (hc : isBlank c = false)
    (h : (∃ l ∈ opened, c ∈ l.text.toList) ∨ c ∈ (clean line).toList) :
    c ∈ (extended number opened line).text.toList := by
  cases opened with
  | none =>
      rcases h with ⟨l, hl, -⟩ | h
      · cases hl
      · exact h
  | some l =>
      have hmem : c ∈ l.text.toList ++ ' ' :: (clean line).toList := by
        rcases h with ⟨m, hm, h⟩ | h
        · obtain rfl := Option.some.inj hm
          exact List.mem_append_left _ h
        · exact List.mem_append_right _ (List.mem_cons_of_mem _ h)
      have htoList : (extended number (some l) line).text.toList =
          trim (l.text.toList ++ ' ' :: (clean line).toList) := by
        simp [extended, joined, Text.trimmed]
      rw [htoList]
      exact mem_trim hmem hc

/-- Every character of a line that is no blank is one of a logical line. -/
theorem exists_mem_gather {c : Char} (hc : isBlank c = false)
    (h : (∃ l ∈ opened, c ∈ l.text.toList) ∨ ∃ line ∈ lines, c ∈ (clean line).toList) :
    ∃ m ∈ gather number opened lines, c ∈ m.text.toList := by
  induction lines generalizing number opened with
  | nil =>
      rcases h with ⟨l, hl, h⟩ | ⟨line, hline, -⟩
      · exact ⟨l, by simpa [gather] using hl, h⟩
      · cases hline
  | cons line lines ih =>
      have hsplit : c ∈ (extended number opened line).text.toList ∨
          ∃ line ∈ lines, c ∈ (clean line).toList := by
        rcases h with h | ⟨line', hline, h⟩
        · exact .inl (mem_extended hc (.inl h))
        · rcases List.mem_cons.mp hline with rfl | hline
          · exact .inl (mem_extended hc (.inr h))
          · exact .inr ⟨line', hline, h⟩
      by_cases hopen : isOpen (extended number opened line).text = true
      · rw [gather_open hopen]
        apply ih
        exact hsplit.imp_left fun h => ⟨_, rfl, h⟩
      · by_cases hempty : (extended number opened line).text.isEmpty = true
        · rw [gather_blank hopen hempty]
          apply ih
          rw [String.isEmpty_iff.mp hempty] at hsplit
          exact .inr (hsplit.resolve_left (List.not_mem_nil))
        · rw [gather_closed hopen hempty]
          rcases hsplit with h | h
          · exact ⟨_, List.mem_cons_self, h⟩
          · have hlater : ∃ m ∈ gather (number + 1) none lines, c ∈ m.text.toList := ih (.inr h)
            obtain ⟨m, hm, h⟩ := hlater
            exact ⟨m, List.mem_cons_of_mem _ hm, h⟩

/-! ### What is collected from the back -/

/-- A line that is absorbed extends the logical line that is open, or is dropped if it is blank. -/
theorem absorb_eq (number : Int) (opened : Option LogicalLine) (line : String)
    (earlier : List LogicalLine) (h : Kept opened) :
    absorb (clean line) number opened.isSome (opened.toList ++ earlier) =
      .ok ((extended number opened line).text,
        if (extended number opened line).text.isEmpty then earlier
        else extended number opened line :: earlier) := by
  cases opened with
  | none =>
      simp only [absorb, Option.isSome_none, Option.toList_none, List.nil_append, extended]
      by_cases hempty : (clean line).isEmpty = true
      · simp only [hempty, ↓reduceIte, Bool.false_eq_true]
      · simp only [hempty, ↓reduceIte, Bool.false_eq_true]
  | some l =>
      rw [isEmpty_extended_some h]
      rfl

/-- Logical lines are collected from the back as they are read from the front. -/
theorem assembleFrom_eq (h : Kept opened) (number : Int) (earlier : List LogicalLine)
    (lines : List String) :
    assembleFrom number opened.isSome (opened.toList ++ earlier) lines =
      .ok ((gather number opened lines).reverse ++ earlier) := by
  induction lines generalizing number opened earlier with
  | nil => cases opened <;> rfl
  | cons line lines ih =>
      rw [assembleFrom, absorb_eq number opened line earlier h]
      change assembleFrom (number + 1) (isOpen (extended number opened line).text)
        (if (extended number opened line).text.isEmpty then earlier
          else extended number opened line :: earlier) lines = _
      by_cases hopen : isOpen (extended number opened line).text = true
      · have hempty : (extended number opened line).text.isEmpty = false := by
          rw [Bool.eq_false_iff]
          intro hempty
          rw [String.isEmpty_iff.mp hempty] at hopen
          cases hopen
        rw [gather_open hopen, hempty, hopen]
        exact ih (kept_extended h hopen) (number + 1) earlier
      · by_cases hempty : (extended number opened line).text.isEmpty = true
        · rw [gather_blank hopen hempty, if_pos hempty, Bool.eq_false_iff.mpr hopen]
          exact ih kept_none (number + 1) earlier
        · rw [gather_closed hopen hempty, if_neg hempty, Bool.eq_false_iff.mpr hopen,
            List.reverse_cons, List.append_assoc, List.singleton_append]
          exact ih kept_none (number + 1) (extended number opened line :: earlier)

theorem assemble_eq (lines : List String) : assemble lines = .ok (gather 1 none lines) := by
  have h : assembleFrom 1 false [] lines = .ok ((gather 1 none lines).reverse ++ []) :=
    assembleFrom_eq kept_none 1 [] lines
  rw [assemble, h, List.append_nil]
  exact congrArg Except.ok (List.reverse_reverse _)

/-! ### What logical lines are -/

/-- Every logical line has a text. -/
theorem text_ne_empty (h : Kept opened) (hm : m ∈ gather number opened lines) : m.text ≠ "" := by
  induction lines generalizing number opened with
  | nil =>
      have hopened : m ∈ opened := by simpa [gather] using hm
      rintro hempty
      have hopen := (h m hopened).2
      rw [hempty] at hopen
      cases hopen
  | cons line lines ih =>
      by_cases hopen : isOpen (extended number opened line).text = true
      · rw [gather_open hopen] at hm
        exact ih (kept_extended h hopen) hm
      · by_cases hempty : (extended number opened line).text.isEmpty = true
        · rw [gather_blank hopen hempty] at hm
          exact ih kept_none hm
        · rw [gather_closed hopen hempty] at hm
          rcases List.mem_cons.mp hm with rfl | hm
          · exact fun htext => hempty (String.isEmpty_iff.mpr htext)
          · exact ih kept_none hm

theorem text_ne_of_mem {cs : List Char} (h : l ∈ ofText cs) : l.text ≠ "" :=
  text_ne_empty kept_none h

/-- A tidy line that leaves nothing open is the logical line of a text of one line. -/
theorem ofText_of_tidy (h : Tidy text) (hline : IsLine text.toList)
    (hclosed : isOpen text = false) : ofText (text.toList ++ ['\n']) = [⟨text, 1⟩] := by
  have hclean : clean text = text := by
    rw [clean, cutComment_of_commentFree h.commentFree, h.trimmed, String.ofList_toList]
  have hlines : (lines (text.toList ++ ['\n'])).map String.ofList = [text] := by
    rw [lines_append hline, List.map_cons, String.ofList_toList]
    rfl
  have hextended : extended 1 none text = ⟨text, 1⟩ := congrArg (LogicalLine.mk · 1) hclean
  have hempty : text.isEmpty = false := by
    rw [Bool.eq_false_iff]
    intro hempty
    exact hline.ne_nil (String.toList_eq_nil_iff.mpr (String.isEmpty_iff.mp hempty))
  rw [ofText, hlines, gather_closed, hextended]
  · rfl
  · rw [hextended, hclosed]
    exact Bool.false_ne_true
  · rw [hextended, hempty]
    exact Bool.false_ne_true

/-- No logical line begins before the line that is read next and the one that is open. -/
theorem le_number {k : Int} (hnumber : k ≤ number) (hopened : ∀ l ∈ opened, k ≤ l.number)
    (hm : m ∈ gather number opened lines) : k ≤ m.number := by
  induction lines generalizing number opened with
  | nil => exact hopened m (by simpa [gather] using hm)
  | cons line lines ih =>
      have hextended : k ≤ (extended number opened line).number := by
        cases opened with
        | none => exact hnumber
        | some l => exact hopened l rfl
      have hnext : k ≤ number + 1 := by omega
      have hnone : ∀ l ∈ (none : Option LogicalLine), k ≤ l.number := by
        intro l hl
        cases hl
      by_cases hopen : isOpen (extended number opened line).text = true
      · rw [gather_open hopen] at hm
        apply ih hnext _ hm
        intro l hl
        obtain rfl := Option.some.inj hl
        exact hextended
      · by_cases hempty : (extended number opened line).text.isEmpty = true
        · rw [gather_blank hopen hempty] at hm
          exact ih hnext hnone hm
        · rw [gather_closed hopen hempty] at hm
          rcases List.mem_cons.mp hm with rfl | hm
          · exact hextended
          · exact ih hnext hnone hm

/-- Logical lines are numbered in increasing order. -/
theorem pairwise_number (h : ∀ l ∈ opened, l.number < number) :
    (gather number opened lines).Pairwise fun l m => l.number < m.number := by
  induction lines generalizing number opened with
  | nil => cases opened <;> simp [gather]
  | cons line lines ih =>
      have hextended : (extended number opened line).number < number + 1 := by
        cases opened with
        | none => exact Int.lt_succ number
        | some l => exact Int.lt_trans (h l rfl) (Int.lt_succ number)
      have hnone : ∀ l ∈ (none : Option LogicalLine), l.number < number + 1 := by
        intro l hl
        cases hl
      by_cases hopen : isOpen (extended number opened line).text = true
      · rw [gather_open hopen]
        apply ih
        intro l hl
        obtain rfl := Option.some.inj hl
        exact hextended
      · by_cases hempty : (extended number opened line).text.isEmpty = true
        · rw [gather_blank hopen hempty]
          exact ih hnone
        · rw [gather_closed hopen hempty, List.pairwise_cons]
          constructor
          · intro m hm
            have hlater := le_number (Int.le_refl (number + 1)) (by simp) hm
            omega
          · exact ih hnone

end Calculator.LogicalLine
