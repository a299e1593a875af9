import Calculator.Proofs.Program.Listing
import Calculator.Proofs.Session.LogicalLines
import Calculator.Proofs.Text.Words

/-!
Listings with comments.  Lines that are joined because a parenthesis is open hold a parenthesis, and
no instruction does; so the logical lines of a text are all instructions exactly if the lines, each
cut at its comment, are a listing, and then they are the same instructions.
-/
namespace Calculator

open Text

namespace Text

/-- Lower case keeps a character that it does not change and that is no sigma. -/
theorem mem_lower {c : Char} {cs : List Char} (hc : lowerChar c = [c]) (hsigma : c.toNat ≠ 0x3A3)
    (h : c ∈ cs) : c ∈ lower cs := by
  have hafter : ∀ before, c ∈ lowerAfter before cs := by
    induction cs with
    | nil => cases h
    | cons d cs ih =>
        intro before
        rw [lowerAfter]
        rcases List.mem_cons.mp h with rfl | hlater
        · rw [if_neg (by simpa using hsigma), hc]
          exact List.mem_append_left _ (List.mem_singleton_self c)
        · exact List.mem_append_right _ (ih hlater _)
  exact hafter []

end Text

/-- No parenthesis opens in a number of a listing. -/
theorem Record.paren_notMem_of_signedValue? {cs : List Char} {x : Float}
    (h : Record.signedValue? cs = some x) : '(' ∉ cs := by
  have hspelled : ∀ {cs : List Char} {numeral : Numeral}, Numeral.Spelling cs numeral → '(' ∉ cs :=
    fun hspelling hparen => absurd (hspelling.letters _ hparen) (by decide)
  cases Numeral.signedValue?_eq_some_iff.mp h with
  | plain hspelling => exact hspelled hspelling
  | negative hspelling => exact List.not_mem_cons_of_ne_of_not_mem (by decide) (hspelled hspelling)

namespace Record

variable {line : String} {r : Record}

/-- The record that the words of a line state. -/
inductive States : List (List Char) → Record → Prop where
  | push {mnemonic operand : List Char} {x : Float}
      (htag : String.ofList (lower mnemonic) = Instr.pushTag)
      (hvalue : signedValue? operand = some x) :
      States [mnemonic, operand] ⟨.text Instr.pushTag, .float x⟩
  | other {mnemonic operand : List Char}
      (htag : String.ofList (lower mnemonic) ≠ Instr.pushTag) :
      States [mnemonic, operand]
        ⟨.text (String.ofList (lower mnemonic)), .text (String.ofList operand)⟩

theorem ofLine_eq_ok_iff : ofLine line = .ok r ↔ States (words line.toList) r := by
  rw [ofLine]
  constructor
  · intro h
    split at h
    · rename_i mnemonic operand hwords
      rw [hwords]
      by_cases htag : String.ofList (lower mnemonic) = Instr.pushTag
      · simp only [htag, beq_self_eq_true, ↓reduceIte] at h
        split at h
        · rename_i x hvalue
          obtain rfl := Except.ok.inj h
          exact .push htag hvalue
        · cases h
      · simp only [beq_eq_false_iff_ne.mpr htag, Bool.false_eq_true, ↓reduceIte] at h
        obtain rfl := Except.ok.inj h
        exact .other htag
    · cases h
  · generalize words line.toList = ws
    rintro (⟨htag, hvalue⟩ | htag)
    · simp only [htag, beq_self_eq_true, ↓reduceIte, hvalue]
    · simp only [beq_eq_false_iff_ne.mpr htag, Bool.false_eq_true, ↓reduceIte]

/-- The text of a record of an application is the symbol of an operator. -/
theorem exists_operator_of_instr {tag operand : String} {i : Instr}
    (h : instr (Record.toDatum ⟨.text tag, .text operand⟩) = .ok i) :
    tag = Instr.applyTag ∧ ∃ op : Operator, operand = op.text := by
  obtain ⟨-, r, -, hnormal⟩ := normal_of_instr h
  cases hnormal with
  | float hpair => cases hpair
  | int hpair => cases hpair
  | symbol hpair =>
      cases hpair
      exact ⟨rfl, _, rfl⟩
  | operator hpair => cases hpair

end Record

namespace Instr

variable {line line' : String} {i : Instr}

theorem ofLine_eq_ok_iff :
    ofLine line = .ok i ↔ ∃ r, Record.ofLine line = .ok r ∧ Record.instr r.toDatum = .ok i := by
  rw [ofLine]
  cases hrecord : Record.ofLine line with
  | error c =>
      constructor
      · rintro ⟨⟩
      · rintro ⟨r, ⟨⟩, -⟩
  | ok r =>
      constructor
      · intro h
        exact ⟨r, rfl, h⟩
      · rintro ⟨r', hr, h⟩
        obtain rfl := Except.ok.inj hr
        exact h

/-- Lines of the same words state the same instructions. -/
theorem ofLine_iff_of_words (hwords : words line.toList = words line'.toList) :
    ofLine line = .ok i ↔ ofLine line' = .ok i := by
  simp only [ofLine_eq_ok_iff, Record.ofLine_eq_ok_iff, hwords]

/-- No parenthesis opens in a line that states an instruction. -/
theorem paren_notMem_of_ofLine (h : ofLine line = .ok i) : '(' ∉ line.toList := by
  obtain ⟨r, hrecord, hinstr⟩ := ofLine_eq_ok_iff.mp h
  intro hparen
  obtain ⟨w, hw, hmem⟩ := exists_mem_words hparen (by decide)
  have hstates := Record.ofLine_eq_ok_iff.mp hrecord
  generalize words line.toList = ws at hw hstates
  -- lower case keeps the parenthesis, but it is in neither of the two mnemonics
  have hlower : ∀ {mnemonic : List Char}, '(' ∈ mnemonic →
      '(' ∈ (String.ofList (lower mnemonic)).toList := by
    intro mnemonic hmnemonic
    rw [String.toList_ofList]
    exact mem_lower (by decide) (by decide) hmnemonic
  cases hstates with
  | push htag hvalue =>
      simp only [List.mem_cons, List.not_mem_nil, or_false] at hw
      rcases hw with rfl | rfl
      · have htagged := hlower hmem
        rw [htag] at htagged
        exact absurd htagged (by decide)
      · exact Record.paren_notMem_of_signedValue? hvalue hmem
  | other _ =>
      obtain ⟨htag, op, hop⟩ := Record.exists_operator_of_instr hinstr
      simp only [List.mem_cons, List.not_mem_nil, or_false] at hw
      rcases hw with rfl | rfl
      · have htagged := hlower hmem
        rw [htag] at htagged
        exact absurd htagged (by decide)
      · rw [← String.toList_ofList (l := w), hop] at hmem
        cases op <;> exact absurd hmem (by decide)

end Instr

namespace Program

variable {lines : List String} {p : Program}

/-- A listing states the instructions of its lines that are not blank. -/
theorem ofListing_eq_ok_iff :
    ofListing lines = .ok p ↔
      ∃ is, List.Forall₂ (fun line i => Instr.ofLine line = .ok i)
        (lines.filter (!isBlankLine ·)) is ∧ p = ofInstrs is := by
  rw [ofListing]
  constructor
  · intro h
    cases hread : (lines.filter (!isBlankLine ·)).mapM Instr.ofLine with
    | error c =>
        rw [hread] at h
        cases h
    | ok is =>
        rw [hread] at h
        exact ⟨is, mapM_eq_ok_iff.mp hread, (Except.ok.inj h).symm⟩
  · rintro ⟨is, his, rfl⟩
    rw [mapM_eq_ok_iff.mpr his]
    rfl

theorem isBlankLine_iff {line : String} : isBlankLine line = true ↔ words line.toList = [] := by
  rw [isBlankLine, List.all_eq_true, words_eq_nil_iff, Blanks]

end Program

namespace LogicalLine

variable {number : Int} {line : String} {lines : List String} {is : List Instr}

theorem clean_eq_empty_iff : clean line = "" ↔ Program.isBlankLine (uncommented line) = true := by
  rw [Program.isBlankLine_iff, ← words_clean]
  constructor
  · intro h
    rw [h]
    rfl
  · exact (tidy_clean line).eq_empty_of_words

theorem paren_mem_of_isOpen {text : String} (h : isOpen text = true) : '(' ∈ text.toList := by
  rw [isOpen, decide_eq_true_iff] at h
  exact List.count_pos_iff.mp (by omega)

theorem mem_of_mem_clean {c : Char} (h : c ∈ (clean line).toList) :
    c ∈ (uncommented line).toList := by
  rw [clean, String.toList_ofList] at h
  rw [uncommented, String.toList_ofList]
  exact (trim_isInfix _).subset h

/-- The lines of a text as a listing: each is cut at its comment, and blank ones are skipped. -/
def listed (lines : List String) : List String :=
  (lines.map uncommented).filter (!Program.isBlankLine ·)

theorem listed_cons_of_blank (h : clean line = "") (lines : List String) :
    listed (line :: lines) = listed lines := by
  rw [listed, List.map_cons, List.filter_cons_of_neg, listed]
  simpa using clean_eq_empty_iff.mp h

theorem listed_cons (h : clean line ≠ "") (lines : List String) :
    listed (line :: lines) = uncommented line :: listed lines := by
  rw [listed, List.map_cons, List.filter_cons_of_pos, listed]
  simpa using fun hblank => h (clean_eq_empty_iff.mpr hblank)

/-- No list of instructions is stated if a line has a parenthesis that opens. -/
theorem not_forall₂_of_paren {texts : List String} (h : ∃ s ∈ texts, '(' ∈ s.toList) :
    ¬ List.Forall₂ (fun s i => Instr.ofLine s = .ok i) texts is := by
  intro hall
  obtain ⟨s, hs, hparen⟩ := h
  obtain ⟨k, hk, rfl⟩ := List.getElem_of_mem hs
  have hline := List.forall₂_iff_get.mp hall
  exact Instr.paren_notMem_of_ofLine (hline.2 k hk (hline.1 ▸ hk)) hparen

/-- The logical lines of a text state the instructions that its lines state as a listing. -/
theorem forall₂_gather_iff :
    List.Forall₂ (fun s i => Instr.ofLine s = .ok i)
        ((gather number none lines).map LogicalLine.text) is ↔
      List.Forall₂ (fun s i => Instr.ofLine s = .ok i) (listed lines) is := by
  induction lines generalizing number is with
  | nil => exact Iff.rfl
  | cons line lines ih =>
      by_cases hempty : clean line = ""
      · have hgather : gather number none (line :: lines) = gather (number + 1) none lines := by
          apply gather_blank
          · simp [extended, hempty, isOpen]
          · simp [extended, hempty]
        rw [hgather, listed_cons_of_blank hempty]
        exact ih
      · rw [listed_cons hempty]
        by_cases hopen : isOpen (clean line) = true
        · -- the parenthesis is in a logical line, and in a line of the listing
          have hparen := paren_mem_of_isOpen hopen
          have hgather : gather number none (line :: lines) =
              gather (number + 1) (some ⟨clean line, number⟩) lines := gather_open hopen
          have hkept : ∃ m ∈ gather (number + 1) (some ⟨clean line, number⟩) lines,
              '(' ∈ m.text.toList := exists_mem_gather (by decide) (.inl ⟨_, rfl, hparen⟩)
          have hlogical : ∃ s ∈ (gather number none (line :: lines)).map LogicalLine.text,
              '(' ∈ s.toList := by
            obtain ⟨m, hm, hmem⟩ := hkept
            rw [hgather]
            exact ⟨m.text, List.mem_map_of_mem hm, hmem⟩
          have hlisted : ∃ s ∈ uncommented line :: listed lines, '(' ∈ s.toList :=
            ⟨_, List.mem_cons_self, mem_of_mem_clean hparen⟩
          exact iff_of_false (not_forall₂_of_paren hlogical) (not_forall₂_of_paren hlisted)
        · have hgather : gather number none (line :: lines) =
              ⟨clean line, number⟩ :: gather (number + 1) none lines := by
            apply gather_closed
            · exact hopen
            · simpa [extended] using hempty
          have hwords := words_clean line
          rw [hgather, List.map_cons]
          cases is with
          | nil => simp
          | cons i is =>
              rw [List.forall₂_cons, List.forall₂_cons, ih, Instr.ofLine_iff_of_words hwords]

/-- The logical lines of a text are all instructions exactly if its lines are a listing. -/
theorem ofListing_iff (number : Int) {p : Program} :
    Program.ofListing (lines.map uncommented) = .ok p ↔
      ∃ is, List.Forall₂ (fun s i => Instr.ofLine s = .ok i)
        ((gather number none lines).map LogicalLine.text) is ∧ p = Program.ofInstrs is := by
  simp only [Program.ofListing_eq_ok_iff, forall₂_gather_iff, listed]

end LogicalLine

end Calculator
