import Calculator.Datum.Number
import Calculator.Proofs.Token.Characters
import Calculator.Proofs.Token.Cutting
import Mathlib.Order.Bounds.Defs

/-!
Tokens by their columns.  The tokens of a text stand one behind the other, each is the part of the
text between its columns and the longest token there, and every character outside the tokens is
blank; a text has at most one such list of tokens, and the scanner gives it.  Where there is none,
the scanner stops at the first character that it reaches and at which no token begins.
-/
namespace Calculator.Token

open Text (isBlank)

variable {source : String} {start i : Nat} {c : Char} {cs ds rest : List Char} {t : Token}
  {ts us : List Token} {e : Complaint}

/-- The tokens are all that there is from column `start` on, apart from blanks. -/
structure Covers (cs : List Char) (start : Nat) (ts : List Token) : Prop where
  ordered : ts.Pairwise fun t u => t.stop ≤ u.start
  start_le : ∀ t ∈ ts, start ≤ t.start
  chars_eq : ∀ t ∈ ts, t.chars = (cs.take t.stop).drop t.start
  longest : ∀ t ∈ ts, t.Longest (cs.drop t.stop)
  between : ∀ i c, start ≤ i → cs[i]? = some c → (∀ t ∈ ts, i < t.start ∨ t.stop ≤ i) →
    isBlank c = true

/-! ### A cut by its columns -/

theorem Spelled.start_lt_stop (h : t.Spelled) : t.start < t.stop :=
  Nat.lt_add_of_pos_right (List.length_pos_iff.mpr h.isWord.ne_nil)

/-- From the first column of one of its parts a text goes on with this part. -/
theorem drop_start (h : t.chars = (cs.take t.stop).drop t.start) :
    cs.drop t.start = t.chars ++ cs.drop t.stop := by
  have hstop : t.start + (t.stop - t.start) = t.stop := by
    rw [stop]
    omega
  calc cs.drop t.start
    _ = (cs.drop t.start).take (t.stop - t.start) ++
          (cs.drop t.start).drop (t.stop - t.start) := (List.take_append_drop _ _).symm
    _ = t.chars ++ cs.drop t.stop := by rw [← List.drop_take, ← h, List.drop_drop, hstop]

/-- Where a text goes on with a token, the token is its part between its columns. -/
theorem chars_of_drop_start (h : cs.drop t.start = t.chars ++ rest) :
    t.chars = (cs.take t.stop).drop t.start ∧ cs.drop t.stop = rest := by
  constructor
  · rw [stop, List.drop_take, h, Nat.add_sub_cancel_left, List.take_left]
  · rw [stop, ← List.drop_drop, h, List.drop_left]

theorem getElem?_of_drop (h : cs.drop i = c :: rest) :
    cs[i]? = some c ∧ cs.drop (i + 1) = rest := by
  constructor
  · rw [← List.head?_drop, h, List.head?_cons]
  · rw [← List.drop_drop, h, List.drop_one, List.tail_cons]

theorem Spelled.start_lt_length (h : t.Spelled)
    (hchars : t.chars = (cs.take t.stop).drop t.start) : t.start < cs.length := by
  by_contra hle
  have hnil := drop_start hchars
  rw [List.drop_eq_nil_of_le (Nat.le_of_not_lt hle)] at hnil
  exact h.isWord.ne_nil (List.append_eq_nil_iff.mp hnil.symm).1

theorem covers_nil (h : cs.length ≤ start) : Covers cs start [] := by
  refine ⟨.nil, by simp, by simp, by simp, ?_⟩
  intro i c hi hc
  obtain ⟨hlt, -⟩ := List.getElem?_eq_some_iff.mp hc
  omega

theorem Covers.blank (h : Covers cs (start + 1) ts) (hc : cs[start]? = some c)
    (hblank : isBlank c = true) : Covers cs start ts := by
  refine ⟨h.ordered, fun t ht => Nat.le_of_succ_le (h.start_le t ht), h.chars_eq, h.longest, ?_⟩
  intro i d hi hd hout
  rcases Nat.eq_or_lt_of_le hi with rfl | hlater
  · rw [hc] at hd
    rwa [← Option.some.inj hd]
  · exact h.between i d hlater hd hout

theorem Covers.token (h : Covers cs t.stop ts) (hchars : t.chars = (cs.take t.stop).drop t.start)
    (ht : t.Longest (cs.drop t.stop)) : Covers cs t.start (t :: ts) := by
  have hlt := ht.spelled.start_lt_stop
  refine ⟨List.pairwise_cons.mpr ⟨h.start_le, h.ordered⟩, ?_, ?_, ?_, ?_⟩
  · refine List.forall_mem_cons.mpr ⟨Nat.le_refl _, ?_⟩
    intro u hu
    exact Nat.le_trans (Nat.le_of_lt hlt) (h.start_le u hu)
  · exact List.forall_mem_cons.mpr ⟨hchars, h.chars_eq⟩
  · exact List.forall_mem_cons.mpr ⟨ht, h.longest⟩
  · intro i c hi hc hout
    obtain ⟨hfirst, hothers⟩ := List.forall_mem_cons.mp hout
    exact h.between i c (by omega) hc hothers

/-- What a text is cut into covers it. -/
theorem covers_of_cut (h : Cut [] start ds ts) (hds : cs.drop start = ds) : Covers cs start ts := by
  induction h with
  | nil => exact covers_nil (List.drop_eq_nil_iff.mp hds)
  | @blank start c ds ts hc hcut ih =>
      obtain ⟨hget, hrest⟩ := getElem?_of_drop hds
      exact (ih hrest).blank hget hc
  | @token t ds ts ht hcut ih =>
      obtain ⟨hchars, hrest⟩ := chars_of_drop_start hds
      rw [List.append_nil, ← hrest] at ht
      exact (ih hrest).token hchars ht

/-- At the first column of a text that is covered there is a token or a blank. -/
theorem Covers.exists_front (h : Covers cs start ts) (hlt : start < cs.length) :
    (∃ t us, ts = t :: us ∧ t.start = start ∧ Covers cs t.stop us) ∨
      isBlank cs[start] = true ∧ Covers cs (start + 1) ts := by
  by_cases hfront : ∃ t ∈ ts, t.start = start
  · obtain ⟨t, ht, rfl⟩ := hfront
    cases ts with
    | nil => cases ht
    | cons u us =>
        obtain ⟨hafter, hordered⟩ := List.pairwise_cons.mp h.ordered
        obtain ⟨hu, hus⟩ := List.forall_mem_cons.mp h.longest
        have hstart := h.start_le u List.mem_cons_self
        have hlt := hu.spelled.start_lt_stop
        have hfirst : t = u := by
          rcases List.mem_cons.mp ht with heq | hlater
          · exact heq
          · have := hafter t hlater
            omega
        subst hfirst
        refine .inl ⟨t, us, rfl, rfl, hordered, hafter, ?_, hus, ?_⟩
        · exact (List.forall_mem_cons.mp h.chars_eq).2
        · intro i c hi hc hout
          exact h.between i c (by omega) hc (List.forall_mem_cons.mpr ⟨.inr hi, hout⟩)
  · have hlater : ∀ t ∈ ts, start + 1 ≤ t.start := by
      intro t ht
      have hne : t.start ≠ start := fun heq => hfront ⟨t, ht, heq⟩
      have := h.start_le t ht
      omega
    refine .inr ⟨?_, h.ordered, hlater, h.chars_eq, h.longest, ?_⟩
    · exact h.between start _ (Nat.le_refl _) (List.getElem?_eq_getElem hlt)
        fun t ht => .inl (hlater t ht)
    · intro i c hi
      exact h.between i c (Nat.le_of_succ_le hi)

theorem Covers.eq_nil (h : Covers cs start ts) (hle : cs.length ≤ start) : ts = [] := by
  refine List.eq_nil_iff_forall_not_mem.mpr ?_
  intro t ht
  have hlt := (h.longest t ht).spelled.start_lt_length (h.chars_eq t ht)
  exact absurd (Nat.le_trans hle (h.start_le t ht)) (Nat.not_le_of_lt hlt)

/-- What a text is covered by it is cut into. -/
theorem cut_of_covers (h : Covers cs start ts) : Cut [] start (cs.drop start) ts := by
  induction hn : cs.length - start using Nat.strong_induction_on generalizing start ts with
  | h n ih =>
      rcases Nat.lt_or_ge start cs.length with hlt | hle
      · rcases h.exists_front hlt with ⟨t, us, rfl, rfl, hus⟩ | ⟨hblank, hts⟩
        · have ht := h.longest t List.mem_cons_self
          have hstop := ht.spelled.start_lt_stop
          rw [drop_start (h.chars_eq t List.mem_cons_self)]
          rw [← List.append_nil (cs.drop t.stop)] at ht
          exact .token ht (ih _ (by omega) hus rfl)
        · rw [List.drop_eq_getElem_cons hlt]
          exact .blank hblank (ih _ (by omega) hts rfl)
      · rw [h.eq_nil hle, List.drop_eq_nil_of_le hle]
        exact .nil

/-- The tokens of a text are those that cover it. -/
theorem scan_eq_ok_iff_covers : scan source = .ok ts ↔ Covers source.toList 0 ts := by
  rw [scan_eq_ok_iff]
  exact ⟨fun h => covers_of_cut h rfl, cut_of_covers⟩

/-! ### The columns that a scan reaches -/

/-- A scan reaches the column: it begins at the first one, and goes on behind a blank and behind
the longest token. -/
inductive Reaches (cs : List Char) : Nat → Prop where
  | start : Reaches cs 0
  | blank {i : Nat} {c : Char} (hi : Reaches cs i) (hc : cs[i]? = some c)
      (hblank : isBlank c = true) : Reaches cs (i + 1)
  | token {t : Token} (hi : Reaches cs t.start)
      (hchars : t.chars = (cs.take t.stop).drop t.start) (ht : t.Longest (cs.drop t.stop)) :
      Reaches cs t.stop

/-- A scan reaches the column, where there is the character `c`, no blank, and no token begins. -/
structure HaltsAt (cs : List Char) (i : Nat) (c : Char) : Prop where
  reached : Reaches cs i
  getElem?_eq : cs[i]? = some c
  not_blank : isBlank c = false
  beginsNone : BeginsNone (cs.drop i)

theorem Cut.append (h : Cut (ds ++ rest) start cs ts) (hds : Cut rest (start + cs.length) ds us) :
    Cut rest start (cs ++ ds) (ts ++ us) := by
  induction h with
  | nil => exact hds
  | blank hc hcut ih =>
      refine .blank hc (ih ?_)
      rwa [Nat.add_assoc, Nat.add_comm 1]
  | token ht hcut ih =>
      rw [List.append_assoc]
      rw [← List.append_assoc] at ht
      refine .token ht (ih ?_)
      rwa [stop, Nat.add_assoc, ← List.length_append]

theorem Longest.cut (h : t.Longest rest) : Cut rest t.start t.chars [t] := by
  have hcut : Cut rest t.start (t.chars ++ []) [t] := .token h .nil
  rwa [List.append_nil] at hcut

/-- Up to a column that is reached the text is cut. -/
theorem Reaches.exists_cut (h : Reaches cs i) : ∃ ts, Cut (cs.drop i) 0 (cs.take i) ts := by
  induction h with
  | start => exact ⟨[], .nil⟩
  | @blank i c hi hc hblank ih =>
      obtain ⟨ts, hcut⟩ := ih
      obtain ⟨hlt, rfl⟩ := List.getElem?_eq_some_iff.mp hc
      rw [List.drop_eq_getElem_cons hlt] at hcut
      refine ⟨ts ++ [], ?_⟩
      rw [List.take_succ_eq_append_getElem hlt]
      exact hcut.append (.blank hblank .nil)
  | @token t hi hchars ht ih =>
      obtain ⟨ts, hcut⟩ := ih
      have hlt := ht.spelled.start_lt_length hchars
      have hlength : 0 + (cs.take t.start).length = t.start := by
        simp [Nat.le_of_lt hlt]
      have htake : cs.take t.stop = cs.take t.start ++ t.chars := by
        have hsplit := List.take_append_drop t.start (cs.take t.stop)
        rw [List.take_take, Nat.min_eq_left (Nat.le_of_lt ht.spelled.start_lt_stop)] at hsplit
        rw [hchars, hsplit]
      rw [drop_start hchars] at hcut
      rw [htake]
      exact ⟨ts ++ [t], hcut.append (hlength.symm ▸ ht.cut)⟩

/-- The columns behind what a text is cut into are reached. -/
theorem reaches_of_cut (h : Cut rest start ds ts) (hds : cs.drop start = ds ++ rest)
    (hstart : Reaches cs start) : Reaches cs (start + ds.length) := by
  induction h with
  | nil => exact hstart
  | @blank start c ds ts hc hcut ih =>
      obtain ⟨hget, hrest⟩ := getElem?_of_drop hds
      rw [List.length_cons, ← Nat.add_assoc, Nat.add_right_comm]
      exact ih hrest (hstart.blank hget hc)
  | @token t ds ts ht hcut ih =>
      rw [List.append_assoc] at hds
      obtain ⟨hchars, hrest⟩ := chars_of_drop_start hds
      rw [List.length_append, ← Nat.add_assoc]
      rw [← hrest] at ht
      exact ih hrest (hstart.token hchars ht)

/-- Where a scan halts, it is stuck. -/
theorem haltsAt_iff : HaltsAt cs i c ↔
    ∃ before after, Stuck cs before c after ∧ before.length = i := by
  constructor
  · rintro ⟨hreached, hget, hblank, hnone⟩
    obtain ⟨hlt, rfl⟩ := List.getElem?_eq_some_iff.mp hget
    have hdrop := List.drop_eq_getElem_cons hlt
    have hcut := hreached.exists_cut
    rw [hdrop] at hcut hnone
    refine ⟨cs.take i, cs.drop (i + 1), ⟨?_, hcut, hblank, hnone⟩, ?_⟩
    · rw [← hdrop, List.take_append_drop]
    · rw [List.length_take, Nat.min_eq_left (Nat.le_of_lt hlt)]
  · rintro ⟨before, after, ⟨rfl, ⟨ts, hcut⟩, hblank, hnone⟩, rfl⟩
    refine ⟨?_, ?_, hblank, ?_⟩
    · rw [← Nat.zero_add before.length]
      exact reaches_of_cut hcut rfl .start
    · simp
    · rwa [List.drop_left]

/-- A text is not scanned exactly if its scan halts, and that character is complained of. -/
theorem scan_eq_error_iff_haltsAt : scan source = .error e ↔
    ∃ i c, HaltsAt source.toList i c ∧ e = .illegalCharacter source c i := by
  rw [scan_eq_error_iff]
  constructor
  · rintro ⟨before, c, after, hstuck, rfl⟩
    exact ⟨_, c, haltsAt_iff.mpr ⟨before, after, hstuck, rfl⟩, rfl⟩
  · rintro ⟨i, c, hhalts, rfl⟩
    obtain ⟨before, after, hstuck, rfl⟩ := haltsAt_iff.mp hhalts
    exact ⟨before, c, after, hstuck, rfl⟩

/-- A scan halts at one column at most. -/
theorem HaltsAt.column_eq {j : Nat} {d : Char} (hi : HaltsAt source.toList i c)
    (hj : HaltsAt source.toList j d) : i = j := by
  have hfirst := scan_eq_error_iff_haltsAt.mpr ⟨i, c, hi, rfl⟩
  have hsecond := scan_eq_error_iff_haltsAt.mpr ⟨j, d, hj, rfl⟩
  rw [hfirst] at hsecond
  exact (Complaint.illegalCharacter.inj (Except.error.inj hsecond)).2.2

/-- The text of a number can be read as a double. -/
theorem Spelled.toFloat_eq {numeral : Numeral} (h : t.Spelled)
    (hlexeme : t.lexeme = .number numeral) :
    (Datum.text t.text).toFloat = .ok (numeral.value false) := by
  -- by its equations the function would be rewritten with doubles that are evaluated
  unfold Datum.toFloat
  simp only [h.readText_eq hlexeme]

/-- Main result: a text is scanned exactly into the tokens that cover it, and the text of every
number can be read as a double.  A text that nothing covers is not scanned; the report is about the
first character that the scan reaches, that is no blank and at which no token begins. -/
theorem scan_covers_or_halts (source : String) :
    (∀ ts, scan source = .ok ts ↔ Covers source.toList 0 ts) ∧
      (∀ ts t numeral, scan source = .ok ts → t ∈ ts → t.lexeme = .number numeral →
        (Datum.text t.text).toFloat = .ok (numeral.value false)) ∧
      ∀ e, scan source = .error e ↔ ∃ i c, HaltsAt source.toList i c ∧
        (∀ j d, HaltsAt source.toList j d → i ≤ j) ∧ e = .illegalCharacter source c i ∧
        e.report.start = i ∧ e.report.stop = i + 1 := by
  refine ⟨fun ts => scan_eq_ok_iff_covers, ?_, ?_⟩
  · intro ts t numeral hscan ht hlexeme
    exact (scan_spelled hscan t ht).toFloat_eq hlexeme
  · intro e
    rw [scan_eq_error_iff_haltsAt]
    constructor
    · rintro ⟨i, c, hhalts, rfl⟩
      refine ⟨i, c, hhalts, fun j d hj => Nat.le_of_eq (hhalts.column_eq hj), rfl, rfl, ?_⟩
      simp [Complaint.report, Complaint.blaming]
    · rintro ⟨i, c, hhalts, -, he, -⟩
      exact ⟨i, c, hhalts, he⟩

/-- Numbers end where they cannot go on: behind the first fraction, and in front of an exponent
without digits, where the scan halts. -/
theorem scan_covers_or_halts_glued :
    (∃ ts, scan "1.2.3 nan5" = .ok ts ∧ ts.map text = ["1.2", ".3", "nan", "5"] ∧
      Covers "1.2.3 nan5".toList 0 ts ∧
      ∀ t ∈ ts, ∃ x, (Datum.text t.text).toFloat = .ok x) ∧
    scan "2e+" = .error (.illegalCharacter "2e+" 'e' 1) ∧ HaltsAt "2e+".toList 1 'e' := by
  have hscan : scan "1.2.3 nan5" = .ok [⟨.number (.decimal [1] [2] 0), ['1', '.', '2'], 0⟩,
      ⟨.number (.decimal [] [3] 0), ['.', '3'], 3⟩, ⟨.number .notANumber, ['n', 'a', 'n'], 6⟩,
      ⟨.number (.decimal [5] [] 0), ['5'], 9⟩] := by
    cbv
  have hhalts : scan "2e+" = .error (.illegalCharacter "2e+" 'e' 1) := by
    cbv
  obtain ⟨hcovers, hnumbers, -⟩ := scan_covers_or_halts "1.2.3 nan5"
  obtain ⟨-, -, herror⟩ := scan_covers_or_halts "2e+"
  refine ⟨⟨_, hscan, by decide, (hcovers _).mp hscan, ?_⟩, hhalts, ?_⟩
  · intro t ht
    have hnumber : ∃ numeral, t.lexeme = .number numeral := by
      simp only [List.mem_cons, List.not_mem_nil, or_false] at ht
      rcases ht with rfl | rfl | rfl | rfl <;> exact ⟨_, rfl⟩
    obtain ⟨numeral, hlexeme⟩ := hnumber
    exact ⟨_, hnumbers _ t numeral hscan ht hlexeme⟩
  · obtain ⟨i, c, hhalt, -, heq, -⟩ := (herror _).mp hhalts
    obtain ⟨-, rfl, rfl⟩ := Complaint.illegalCharacter.inj heq
    exact hhalt

end Calculator.Token
