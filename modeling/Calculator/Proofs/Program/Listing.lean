import Calculator.Program.Listing
import Calculator.Proofs.Decimal.Written
import Calculator.Proofs.Program.Records
import Calculator.Proofs.Text.Splitting

/-!
Listings read back.  The column of indices is as wide on every line as the greatest index needs, so
it can be cut off; and what is left of each line has a mnemonic and one operand, from which the
instruction is read back, every constant with all its bits.
-/
namespace Calculator

open Text

namespace Numeral

variable {cs : List Char} {numeral : Numeral} {x : Float}

/-- A numeral is read without a sign. -/
theorem Spelling.signedValue?_eq (h : Spelling cs numeral) :
    Record.signedValue? cs = some (numeral.value false) := by
  have hread := h.ofText?_eq
  cases cs with
  | nil => exact absurd rfl h.ne_nil
  | cons c cs =>
      have hminus : c ≠ '-' := by
        rintro rfl
        have hnone : ofText? ('-' :: cs) = none := by
          simp [ofText?, scan, scanMantissa, takeDigits, show digitValue? '-' = none by decide]
        rw [hnone] at hread
        cases hread
      rw [Record.signedValue?]
      · rw [hread]
        rfl
      · rintro cs' ⟨rfl, -⟩
        exact hminus rfl

/-- The characters are a numeral, or a minus sign and a numeral, and `x` is the double that they
state. -/
inductive Signed : List Char → Float → Prop where
  | plain {cs : List Char} {numeral : Numeral} (hspelling : Spelling cs numeral) :
      Signed cs (numeral.value false)
  | negative {cs : List Char} {numeral : Numeral} (hspelling : Spelling cs numeral) :
      Signed ('-' :: cs) (numeral.value true)

/-- The operand of a push is a number exactly if it is a numeral with or without a minus sign. -/
theorem signedValue?_eq_some_iff : Record.signedValue? cs = some x ↔ Signed cs x := by
  constructor
  · intro h
    rw [Record.signedValue?.eq_def] at h
    split at h
    all_goals
      obtain ⟨numeral, hread, rfl⟩ := Option.map_eq_some_iff.mp h
      have hspelling := ofText?_eq_some_iff.mp hread
    · exact .negative hspelling
    · exact .plain hspelling
  · intro h
    cases h with
    | plain hspelling => exact hspelling.signedValue?_eq
    | negative hspelling =>
        rw [Record.signedValue?, hspelling.ofText?_eq]
        rfl

/-- The text of a double states the double. -/
theorem Writes.signed (h : Writes cs x) : Signed cs x := by
  obtain ⟨front, numeral, rfl, hspelling, hvalue⟩ := h
  generalize Binary64.isNegative x = negative at hvalue
  rw [← hvalue]
  cases negative with
  | false => exact .plain hspelling
  | true => exact .negative hspelling

theorem Writes.isWord (h : Writes cs x) : IsWord cs := by
  obtain ⟨front, numeral, rfl, hspelling, -⟩ := h
  refine ⟨List.append_ne_nil_of_right_ne_nil _ hspelling.ne_nil, ?_⟩
  refine List.forall_mem_append.mpr ⟨?_, fun c hc => (hspelling.plain c hc).1⟩
  cases Binary64.isNegative x with
  | false => exact List.forall_mem_nil _
  | true => exact List.forall_mem_singleton.mpr (by decide)

end Numeral

theorem Operator.isWord_text (op : Operator) : IsWord op.text.toList := by
  cases op <;> exact isWord_of_all (by decide) (by decide)

namespace Record

variable {line : String} {operand : List Char} {x : Float}

/-- A line of a push states the number after the mnemonic. -/
theorem ofLine_push (hwords : words line.toList = [Instr.pushTag.toList, operand])
    (hoperand : signedValue? operand = some x) :
    ofLine line = .ok ⟨.text Instr.pushTag, .float x⟩ := by
  have hlower : String.ofList (lower Instr.pushTag.toList) = Instr.pushTag := by decide
  rw [ofLine, hwords]
  simp only [hlower, beq_self_eq_true, ↓reduceIte, hoperand]

/-- A line of an application passes the operand on. -/
theorem ofLine_apply (hwords : words line.toList = [Instr.applyTag.toList, operand]) :
    ofLine line = .ok ⟨.text Instr.applyTag, .text (String.ofList operand)⟩ := by
  have hlower : String.ofList (lower Instr.applyTag.toList) = Instr.applyTag := by decide
  have hother : (Instr.applyTag == Instr.pushTag) = false := by decide
  rw [ofLine, hwords]
  simp only [hlower, hother, Bool.false_eq_true, ↓reduceIte]

end Record

namespace Instr

variable {i : Instr}

theorem isWord_pushTag : IsWord pushTag.toList :=
  isWord_of_all (by decide) (by decide)

theorem isWord_applyTag : IsWord applyTag.toList :=
  isWord_of_all (by decide) (by decide)

theorem toList_text_push (x : Float) :
    (push x).text.toList = [' '].intercalate [pushTag.toList, (Number.text x).toList] := by
  simp [text]

theorem toList_text_apply (op : Operator) :
    (apply op).text.toList = [' '].intercalate [applyTag.toList, op.text.toList] := by
  simp [text]

theorem words_pair {tag operand : List Char} (htag : IsWord tag) (hoperand : IsWord operand) :
    words ([' '].intercalate [tag, operand]) = [tag, operand] := by
  refine words_intercalate ?_
  simp only [List.forall_mem_cons]
  exact ⟨htag, hoperand, List.forall_mem_nil _⟩

theorem words_text_push (x : Float) :
    words (push x).text.toList = [pushTag.toList, (Number.text x).toList] := by
  rw [toList_text_push]
  exact words_pair isWord_pushTag (Numeral.writes_text x).isWord

theorem words_text_apply (op : Operator) :
    words (apply op).text.toList = [applyTag.toList, op.text.toList] := by
  rw [toList_text_apply]
  exact words_pair isWord_applyTag op.isWord_text

/-- The line of an instruction states the instruction. -/
theorem Exact.ofLine_text (h : i.Exact) : ofLine i.text = .ok i := by
  cases h with
  | push x =>
      have hoperand := Numeral.signedValue?_eq_some_iff.mpr (Numeral.writes_text x).signed
      rw [ofLine, Record.ofLine_push (words_text_push x) hoperand]
      rfl
  | apply op =>
      rw [ofLine, Record.ofLine_apply (words_text_apply op), String.ofList_toList]
      cases op <;> rfl

/-- An instruction is written as two words. -/
theorem Exact.exists_words (h : i.Exact) :
    ∃ tag operand, i.text.toList = [' '].intercalate [tag, operand] ∧ IsWord tag ∧
      IsWord operand := by
  cases h with
  | push x =>
      exact ⟨_, _, toList_text_push x, isWord_pushTag, (Numeral.writes_text x).isWord⟩
  | apply op => exact ⟨_, _, toList_text_apply op, isWord_applyTag, op.isWord_text⟩

theorem Exact.not_isBlankLine (h : i.Exact) : Program.isBlankLine i.text = false := by
  obtain ⟨tag, operand, htext, htag, -⟩ := h.exists_words
  obtain ⟨c, hc⟩ := List.exists_mem_of_ne_nil tag htag.ne_nil
  rw [Program.isBlankLine, htext, List.all_eq_false]
  refine ⟨c, ?_, by simp [htag.no_blank c hc]⟩
  rw [List.intercalate_cons_cons, List.append_assoc]
  exact List.mem_append_left _ hc

/-- Nothing in the text of an instruction ends a line. -/
theorem Exact.no_end (h : i.Exact) : ∀ c ∈ i.text.toList, c ≠ '\n' ∧ c ≠ '\r' := by
  obtain ⟨tag, operand, htext, htag, hoperand⟩ := h.exists_words
  have hblank : ' ' ≠ '\n' ∧ ' ' ≠ '\r' := by decide
  rw [htext, List.intercalate_cons_cons, List.intercalate_singleton, List.append_assoc]
  exact List.forall_mem_append.mpr
    ⟨htag.no_end, List.forall_mem_cons.mpr ⟨hblank, hoperand.no_end⟩⟩

end Instr

namespace Program

variable {width index : Nat} {is : List Instr} {line : List Char}

/-- The line begins with the index in a column of the given width, filled up with blanks before
it, and two blanks. -/
def Numbered (width index : Nat) (line : List Char) : Prop :=
  ∃ fill rest, line = List.replicate fill ' ' ++ Nat.toDigits 10 index ++ ' ' :: ' ' :: rest ∧
    fill + (Nat.toDigits 10 index).length = width

theorem toList_numberedLine (width index : Nat) (d : Datum) :
    (numberedLine width index d).toList =
      List.replicate (width - (Nat.toDigits 10 index).length) ' ' ++ Nat.toDigits 10 index ++
        ' ' :: ' ' :: d.plain.toList := by
  simp [numberedLine, Layout.natText]

/-- No index before the last one has more digits. -/
theorem length_toDigits_le_indexWidth {count : Nat} (h : index < count) :
    (Nat.toDigits 10 index).length ≤ indexWidth count := by
  rw [indexWidth, Layout.natText, String.length_ofList]
  rw [Nat.length_toDigits_le_iff (by decide) Nat.length_toDigits_pos]
  have hlast := (Nat.length_toDigits_le_iff (b := 10) (by decide) Nat.length_toDigits_pos).mp
    (le_refl (Nat.toDigits 10 (count - 1)).length)
  omega

theorem numbered_numberedLine {count : Nat} (h : index < count) (d : Datum) :
    Numbered (indexWidth count) index (numberedLine (indexWidth count) index d).toList := by
  refine ⟨_, _, toList_numberedLine _ _ d, ?_⟩
  have hwidth := length_toDigits_le_indexWidth h
  omega

/-- Behind the column of indices stands the item. -/
theorem drop_numberedLine {count : Nat} (h : index < count) (d : Datum) :
    (numberedLine (indexWidth count) index d).toList.drop (indexWidth count + 2) =
      d.plain.toList := by
  have hwidth := length_toDigits_le_indexWidth h
  rw [toList_numberedLine, List.append_cons, List.append_cons]
  refine List.drop_left' ?_
  simp only [List.length_append, List.length_replicate, List.length_singleton]
  omega

theorem getElem?_numberedLines (width index : Nat) (ds : List Datum) (k : Nat) :
    (numberedLines width index ds)[k]? = ds[k]?.map (numberedLine width (index + k)) := by
  induction ds generalizing index k with
  | nil => rfl
  | cons d ds ih =>
      cases k with
      | zero => rfl
      | succ k =>
          rw [numberedLines, List.getElem?_cons_succ, List.getElem?_cons_succ, ih,
            Nat.add_right_comm, Nat.add_assoc]

@[simp] theorem length_numberedLines (width index : Nat) (ds : List Datum) :
    (numberedLines width index ds).length = ds.length := by
  induction ds generalizing index with
  | nil => rfl
  | cons d ds ih => rw [numberedLines, List.length_cons, List.length_cons, ih]

/-- The numbered line of an instruction is a line. -/
theorem isLine_numberedLine (width index : Nat) {i : Instr} (h : i.Exact) :
    IsLine (numberedLine width index (.instr i)).toList := by
  rw [toList_numberedLine]
  refine ⟨List.append_ne_nil_of_right_ne_nil _ (List.cons_ne_nil _ _), ?_⟩
  have hblank : ' ' ≠ '\n' ∧ ' ' ≠ '\r' := by decide
  have hdigits : ∀ c ∈ Nat.toDigits 10 index, c ≠ '\n' ∧ c ≠ '\r' := by
    obtain ⟨ds, hdigits, -⟩ := Numeral.digits_toDigits index
    have hword : IsWord (Nat.toDigits 10 index) :=
      ⟨Nat.toDigits_ne_nil, fun c hc =>
        Numeral.isBlank_eq_false_of_isDigit (hdigits.isDigit_of_mem hc)⟩
    exact hword.no_end
  simp only [List.forall_mem_append, List.forall_mem_cons]
  refine ⟨⟨?_, hdigits⟩, hblank, hblank, h.no_end⟩
  intro c hc
  rw [List.eq_of_mem_replicate hc]
  exact hblank

/-- A listing has the numbered lines of the items as its lines. -/
theorem lines_display (hexact : ∀ i ∈ is, i.Exact) :
    lines (ofInstrs is).display.toList =
      (numberedLines (indexWidth is.length) 0 (is.map .instr)).map String.toList := by
  rw [display, String.toList_intercalate]
  have hsize : (ofInstrs is).size = is.length := List.length_map _
  rw [hsize]
  refine lines_intercalate ?_
  intro l hl
  obtain ⟨line, hline, rfl⟩ := List.mem_map.mp hl
  obtain ⟨k, hk⟩ := List.mem_iff_getElem?.mp hline
  rw [getElem?_numberedLines, Option.map_eq_some_iff] at hk
  obtain ⟨d, hd, rfl⟩ := hk
  obtain ⟨i, hi, rfl⟩ := List.mem_map.mp (List.mem_of_getElem? hd)
  exact isLine_numberedLine _ _ (hexact i hi)

/-- What stands behind the columns of a listing are the texts of the instructions. -/
theorem map_drop_lines_display (hexact : ∀ i ∈ is, i.Exact) :
    (lines (ofInstrs is).display.toList).map
        (fun l => String.ofList (l.drop (indexWidth is.length + 2))) = is.map Instr.text := by
  rw [lines_display hexact, List.map_map]
  refine List.ext_getElem? fun k => ?_
  rw [List.getElem?_map, getElem?_numberedLines, List.getElem?_map, List.getElem?_map]
  cases hi : is[k]? with
  | none => rfl
  | some i =>
      have hk : 0 + k < is.length := by
        rw [Nat.zero_add]
        exact (List.getElem?_eq_some_iff.mp hi).1
      simp only [Option.map_some, Function.comp_apply, drop_numberedLine hk, String.ofList_toList,
        Datum.plain]

theorem ofListing_texts (hexact : ∀ i ∈ is, i.Exact) :
    ofListing (is.map Instr.text) = .ok (ofInstrs is) := by
  have hfull : (is.map Instr.text).filter (!isBlankLine ·) = is.map Instr.text := by
    refine List.filter_eq_self.mpr ?_
    intro line hline
    obtain ⟨i, hi, rfl⟩ := List.mem_map.mp hline
    rw [(hexact i hi).not_isBlankLine]
    rfl
  have hread : (is.map Instr.text).mapM Instr.ofLine = .ok is := by
    refine mapM_eq_ok_iff.mpr (List.forall₂_map_left_iff.mpr ?_)
    exact List.forall₂_same.mpr fun i hi => (hexact i hi).ofLine_text
  rw [ofListing, hfull, hread]
  rfl

/-- Main result: a listing of plain instructions has one line for each, which begins with the index
of the instruction in a column that is as wide on all lines; and without this column the listing is
read back as the program. -/
theorem ofListing_display (hexact : ∀ i ∈ is, i.Exact) :
    (lines (ofInstrs is).display.toList).length = is.length ∧
      (∀ index line, (lines (ofInstrs is).display.toList)[index]? = some line →
        Numbered (indexWidth is.length) index line) ∧
      ofListing ((lines (ofInstrs is).display.toList).map fun line =>
        String.ofList (line.drop (indexWidth is.length + 2))) = .ok (ofInstrs is) := by
  refine ⟨?_, ?_, ?_⟩
  · simp [lines_display hexact]
  · intro index line hline
    rw [lines_display hexact, List.getElem?_map, getElem?_numberedLines, Nat.zero_add] at hline
    obtain ⟨_, hnumbered, rfl⟩ := Option.map_eq_some_iff.mp hline
    obtain ⟨d, hd, rfl⟩ := Option.map_eq_some_iff.mp hnumbered
    have hindex := (List.getElem?_eq_some_iff.mp hd).1
    rw [List.length_map] at hindex
    exact numbered_numberedLine hindex d
  · rw [map_drop_lines_display hexact]
    exact ofListing_texts hexact

/-- From the eleventh instruction on the column of indices has two places. -/
theorem ofListing_display_two_places :
    (∀ i ∈ Instr.push (-0) :: .push (1 / 0) :: .push (0 / 0) :: .push 1e300 ::
        List.replicate 8 (.apply .add), i.Exact) ∧
      indexWidth 12 = 2 ∧
      ofListing ((lines (ofInstrs (.push (-0) :: .push (1 / 0) :: .push (0 / 0) :: .push 1e300 ::
          List.replicate 8 (.apply .add))).display.toList).map fun line =>
        String.ofList (line.drop 4)) =
          .ok (ofInstrs (.push (-0) :: .push (1 / 0) :: .push (0 / 0) :: .push 1e300 ::
            List.replicate 8 (.apply .add))) := by
  have hexact : ∀ i ∈ Instr.push (-0) :: .push (1 / 0) :: .push (0 / 0) :: .push 1e300 ::
      List.replicate 8 (.apply .add), i.Exact := by
    simp only [List.forall_mem_cons]
    refine ⟨.push _, .push _, .push _, .push _, ?_⟩
    intro i hi
    rw [List.eq_of_mem_replicate hi]
    exact .apply .add
  have hwidth : indexWidth 12 = 2 := by decide
  have hread := (ofListing_display hexact).2.2
  exact ⟨hexact, hwidth, hread⟩

end Program

end Calculator
