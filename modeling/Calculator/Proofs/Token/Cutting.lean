import Calculator.Proofs.Decimal.Longest
import Calculator.Proofs.Text.Trimming
import Calculator.Proofs.Token.Scanning

/-!
Texts cut into tokens, stated without a scanner.  Each token is the longest one at its place, and
there are only blanks between the tokens.  A text is scanned exactly if it can be cut up to its end,
and then into just the tokens that are scanned; otherwise it can be cut up to a character at which
no token begins, and the scanner complains of this one.
-/
namespace Calculator.Token

open Text (Blanks isBlank)

variable {source : String} {start : Nat} {c : Char} {cs rest before after : List Char} {t : Token}
  {ts us vs : List Token} {lexeme : Lexeme} {numeral : Numeral} {e : Complaint}

/-- The characters of the token spell it, and those that follow spell no longer token. -/
structure Longest (t : Token) (rest : List Char) : Prop where
  spelled : t.Spelled
  length_le : ∀ (lexeme : Lexeme) (front : List Char), lexeme.SpelledBy front →
    front <+: t.chars ++ rest → front.length ≤ t.chars.length

/-- No token begins the text. -/
def BeginsNone (cs : List Char) : Prop :=
  ∀ (lexeme : Lexeme) (front : List Char), lexeme.SpelledBy front → ¬ front <+: cs

/-- A text from column `start` on, with `rest` behind it, is cut into blanks and tokens. -/
inductive Cut (rest : List Char) : Nat → List Char → List Token → Prop where
  | nil {start : Nat} : Cut rest start [] []
  | blank {start : Nat} {c : Char} {cs : List Char} {ts : List Token} (hc : isBlank c = true)
      (hcut : Cut rest (start + 1) cs ts) : Cut rest start (c :: cs) ts
  | token {t : Token} {cs : List Char} {ts : List Token} (ht : t.Longest (cs ++ rest))
      (hcut : Cut rest t.stop cs ts) : Cut rest t.start (t.chars ++ cs) (t :: ts)

/-- The text can be cut up to the character `c`, at which no token begins. -/
structure Stuck (cs before : List Char) (c : Char) (after : List Char) : Prop where
  split : cs = before ++ c :: after
  reached : ∃ ts, Cut (c :: after) 0 before ts
  not_blank : isBlank c = false
  beginsNone : BeginsNone (c :: after)

/-! ### Longest tokens -/

theorem length_eq_one_of_spelledBy (h : lexeme.SpelledBy cs)
    (hlexeme : ∀ numeral, lexeme ≠ .number numeral) : cs.length = 1 := by
  cases h with
  | number hspelling => exact absurd rfl (hlexeme _)
  | operator op => rfl
  | opening => rfl
  | closing => rfl

/-- Another lexeme than a number is the symbol that it is spelled by. -/
theorem exists_symbol?_of_spelledBy (h : lexeme.SpelledBy cs)
    (hlexeme : ∀ numeral, lexeme ≠ .number numeral) :
    ∃ c, cs = [c] ∧ symbol? c = some lexeme := by
  cases h with
  | number hspelling => exact absurd rfl (hlexeme _)
  | operator op => exact ⟨op.symbol, rfl, by cases op <;> rfl⟩
  | opening => exact ⟨'(', rfl, rfl⟩
  | closing => exact ⟨')', rfl, rfl⟩

theorem longest_of_scan (h : Numeral.scan (cs ++ rest) = some (numeral, rest)) (start : Nat) :
    (⟨.number numeral, cs, start⟩ : Token).Longest rest := by
  obtain ⟨front, hsplit, hspelling⟩ := Numeral.scan_sound h
  obtain rfl := List.append_cancel_right hsplit
  refine ⟨.number hspelling, ?_⟩
  intro lexeme front' hfront hprefix
  cases hfront with
  | number hspelling' => exact Numeral.length_le_of_scan h hspelling' hprefix
  | operator op => exact List.length_pos_iff.mpr hspelling.ne_nil
  | opening => exact List.length_pos_iff.mpr hspelling.ne_nil
  | closing => exact List.length_pos_iff.mpr hspelling.ne_nil

theorem longest_of_symbol (h : symbol? c = some lexeme) (start : Nat) (rest : List Char) :
    (⟨lexeme, [c], start⟩ : Token).Longest rest := by
  refine ⟨symbol?_sound h, ?_⟩
  intro lexeme front hfront hprefix
  cases hfront with
  | number hspelling =>
      exact absurd hprefix
        (Numeral.not_isPrefix_of_scan_eq_none (scan_eq_none_of_symbol h rest) hspelling)
  | operator op => exact Nat.le_refl 1
  | opening => exact Nat.le_refl 1
  | closing => exact Nat.le_refl 1

/-- A longest token is scanned, and the scanner goes on behind it. -/
theorem Longest.scanFrom_eq (h : t.Longest rest) (source : String) :
    scanFrom source t.start (t.chars ++ rest) = (do
      let us ← scanFrom source t.stop rest
      return t :: us) := by
  obtain ⟨hspelled, hlongest⟩ := h
  obtain ⟨lexeme, chars, start⟩ := t
  by_cases hnumber : ∃ numeral, lexeme = .number numeral
  · obtain ⟨numeral, rfl⟩ := hnumber
    cases hspelled with
    | number hspelling =>
        exact scanFrom_of_scan (hspelling.scan_eq_of_longest fun front numeral' hfront =>
          hlongest _ front (.number hfront))
  · obtain ⟨c, rfl, hsymbol⟩ := exists_symbol?_of_spelledBy hspelled fun numeral heq =>
      hnumber ⟨numeral, heq⟩
    exact scanFrom_symbol hsymbol rest

/-- Where no token begins, the scanner complains, unless there is a blank. -/
theorem BeginsNone.scanFrom_eq (h : BeginsNone (c :: rest)) (hc : isBlank c = false)
    (source : String) (start : Nat) :
    scanFrom source start (c :: rest) = .error (.illegalCharacter source c start) := by
  have hscan : Numeral.scan (c :: rest) = none := by
    cases hscan : Numeral.scan (c :: rest) with
    | none => rfl
    | some scanned =>
        obtain ⟨front, hsplit, hspelling⟩ := Numeral.scan_sound hscan
        exact absurd ⟨_, hsplit.symm⟩ (h _ front (.number hspelling))
  have hsymbol : symbol? c = none := by
    cases hsymbol : symbol? c with
    | none => rfl
    | some lexeme => exact absurd ⟨rest, rfl⟩ (h _ [c] (symbol?_sound hsymbol))
  rw [scanFrom]
  split
  · rename_i hsome
    rw [hscan] at hsome
    cases hsome
  · rw [hsymbol, hc]
    rfl

theorem beginsNone_of_scan (hscan : Numeral.scan (c :: rest) = none) (hsymbol : symbol? c = none) :
    BeginsNone (c :: rest) := by
  intro lexeme front hfront hprefix
  by_cases hnumber : ∃ numeral, lexeme = .number numeral
  · obtain ⟨numeral, rfl⟩ := hnumber
    cases hfront with
    | number hspelling => exact Numeral.not_isPrefix_of_scan_eq_none hscan hspelling hprefix
  · obtain ⟨c', rfl, hsymbol'⟩ := exists_symbol?_of_spelledBy hfront fun numeral heq =>
      hnumber ⟨numeral, heq⟩
    obtain rfl := (List.cons_prefix_cons.mp hprefix).1
    rw [hsymbol] at hsymbol'
    cases hsymbol'

/-! ### What is cut is scanned -/

/-- The scanner gives the tokens that a text is cut into and goes on behind them. -/
theorem Cut.scanFrom_eq (h : Cut rest start cs ts) (source : String) :
    scanFrom source start (cs ++ rest) = (do
      let us ← scanFrom source (start + cs.length) rest
      return ts ++ us) := by
  induction h with
  | nil => exact (bind_pure _).symm
  | blank hc hcut ih =>
      rw [List.cons_append, scanFrom_blank hc, ih, List.length_cons, Nat.add_assoc, Nat.add_comm 1]
  | token ht hcut ih =>
      rename_i t cs ts
      rw [List.append_assoc, ht.scanFrom_eq, ih, List.length_append, ← Nat.add_assoc, stop]
      simp only [bind_assoc, pure_bind, List.cons_append]

theorem cut_of_scanFrom (h : scanFrom source start cs = .ok ts) : Cut [] start cs ts := by
  fun_induction scanFrom source start cs generalizing ts with
  | case1 start =>
      obtain rfl := Except.ok.inj h
      exact .nil
  | case2 start c cs numeral rest' hscan chars =>
      rename_i ih
      obtain ⟨us, hus, rfl⟩ := cons_of_bind_ok h
      have hsplit : c :: cs = chars ++ rest' := (spelling_take hscan).1
      rw [hsplit] at hscan ⊢
      have hlongest := longest_of_scan hscan start
      rw [← List.append_nil rest'] at hlongest
      exact Cut.token hlongest (ih hus)
  | case3 start c cs hscan lexeme hsymbol ih =>
      obtain ⟨us, hus, rfl⟩ := cons_of_bind_ok h
      exact Cut.token (longest_of_symbol hsymbol start _) (ih hus)
  | case4 start c cs hscan hsymbol hblank ih => exact .blank hblank (ih h)
  | case5 start c cs hscan hsymbol hblank => cases h

theorem error_of_bind_error {scanned : Except Complaint (List Token)}
    (h : (do let us ← scanned; pure (t :: us)) = Except.error e) : scanned = .error e := by
  cases scanned with
  | error c => exact h
  | ok us => cases h

/-- A text that is not scanned can be cut up to the character that is complained of. -/
theorem exists_cut_of_scanFrom_error (h : scanFrom source start cs = .error e) :
    ∃ before c after ts, cs = before ++ c :: after ∧ Cut (c :: after) start before ts ∧
      isBlank c = false ∧ BeginsNone (c :: after) ∧
      e = .illegalCharacter source c (start + before.length) := by
  fun_induction scanFrom source start cs with
  | case1 start => cases h
  | case2 start c cs numeral rest' hscan chars =>
      rename_i ih
      obtain ⟨before, c', after, ts, rfl, hcut, hc', hnone, rfl⟩ := ih (error_of_bind_error h)
      have hsplit : c :: cs = chars ++ (before ++ c' :: after) := (spelling_take hscan).1
      rw [hsplit] at hscan ⊢
      refine ⟨chars ++ before, c', after, _, (List.append_assoc _ _ _).symm,
        Cut.token (longest_of_scan hscan start) hcut, hc', hnone, ?_⟩
      rw [List.length_append, ← Nat.add_assoc]
  | case3 start c cs hscan lexeme hsymbol ih =>
      obtain ⟨before, c', after, ts, rfl, hcut, hc', hnone, rfl⟩ := ih (error_of_bind_error h)
      refine ⟨c :: before, c', after, _, rfl,
        Cut.token (longest_of_symbol hsymbol start _) hcut, hc', hnone, ?_⟩
      rw [List.length_cons, Nat.add_assoc, Nat.add_comm 1]
  | case4 start c cs hscan hsymbol hblank ih =>
      obtain ⟨before, c', after, ts, rfl, hcut, hc', hnone, rfl⟩ := ih h
      refine ⟨c :: before, c', after, ts, rfl, .blank hblank hcut, hc', hnone, ?_⟩
      rw [List.length_cons, Nat.add_assoc, Nat.add_comm 1]
  | case5 start c cs hscan hsymbol hblank =>
      obtain rfl := Except.error.inj h
      exact ⟨[], c, cs, [], rfl, .nil, Bool.eq_false_iff.mpr hblank,
        beginsNone_of_scan hscan hsymbol, rfl⟩

/-- The tokens of a text are those that it is cut into. -/
theorem scan_eq_ok_iff : scan source = .ok ts ↔ Cut [] 0 source.toList ts := by
  refine ⟨cut_of_scanFrom, ?_⟩
  intro h
  have hscan := h.scanFrom_eq source
  rw [List.append_nil, scanFrom.eq_def _ _ []] at hscan
  rw [scan, hscan]
  exact congrArg Except.ok (List.append_nil ts)

/-- A text is not scanned exactly if it can be cut up to a character at which no token begins. -/
theorem scan_eq_error_iff : scan source = .error e ↔
    ∃ before c after, Stuck source.toList before c after ∧
      e = .illegalCharacter source c before.length := by
  constructor
  · intro h
    obtain ⟨before, c, after, ts, hsplit, hcut, hc, hnone, rfl⟩ := exists_cut_of_scanFrom_error h
    exact ⟨before, c, after, ⟨hsplit, ⟨ts, hcut⟩, hc, hnone⟩, by rw [Nat.zero_add]⟩
  · rintro ⟨before, c, after, ⟨hsplit, ⟨ts, hcut⟩, hc, hnone⟩, rfl⟩
    rw [scan, hsplit, hcut.scanFrom_eq, hnone.scanFrom_eq hc, Nat.zero_add]
    rfl

theorem not_stuck_of_scan (hscan : scan source = .ok ts) (before : List Char) (c : Char)
    (after : List Char) : ¬ Stuck source.toList before c after := by
  intro hstuck
  rw [scan_eq_error_iff.mpr ⟨before, c, after, hstuck, rfl⟩] at hscan
  cases hscan

theorem not_stuck_of_blanks (h : Blanks cs) : ¬ Stuck cs before c after := by
  rintro ⟨rfl, -, hc, -⟩
  have hblank := h c (List.mem_append_right _ List.mem_cons_self)
  rw [hc] at hblank
  cases hblank

/-! ### Where a token stands -/

/-- A text that is cut into no tokens is blank. -/
theorem Cut.blanks (h : Cut rest start cs []) : Blanks cs := by
  generalize hts : ([] : List Token) = ts at h
  induction h with
  | nil => exact List.forall_mem_nil _
  | blank hc hcut ih => exact List.forall_mem_cons.mpr ⟨hc, ih hts⟩
  | token ht hcut ih => cases hts

/-- A token that a text is cut into stands at its column. -/
theorem Cut.exists_around (h : Cut rest start cs (us ++ t :: vs)) :
    ∃ before after, cs = before ++ (t.chars ++ after) ∧ t.start = start + before.length ∧
      t.Spelled ∧ Cut rest t.stop after vs := by
  generalize hts : us ++ t :: vs = ts at h
  induction h generalizing us with
  | nil => simp at hts
  | blank hc hcut ih =>
      obtain ⟨before, after, rfl, hstart, ht, hafter⟩ := ih hts
      refine ⟨_ :: before, after, rfl, ?_, ht, hafter⟩
      rw [hstart, List.length_cons]
      omega
  | token ht hcut ih =>
      cases us with
      | nil =>
          obtain ⟨rfl, rfl⟩ := List.cons.inj hts
          exact ⟨[], _, rfl, rfl, ht.spelled, hcut⟩
      | cons u us =>
          obtain ⟨rfl, hrest⟩ := List.cons.inj hts
          obtain ⟨before, after, rfl, hstart, ht', hafter⟩ := ih hrest
          refine ⟨u.chars ++ before, after, (List.append_assoc _ _ _).symm, ?_, ht', hafter⟩
          rw [hstart, stop, List.length_append, Nat.add_assoc]

end Calculator.Token
