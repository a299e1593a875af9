import Calculator.Proofs.Text.Words
import Calculator.Proofs.Token.Scanning

/-!
Tokens apart.  A blank ends every numeral and is no token, so what is scanned before a blank and
what is scanned behind it do not depend on each other.  Texts of the same words therefore have the
same tokens at other columns, and two tokens that touch in one of the texts touch in the other.
-/
namespace Calculator

namespace Numeral

open Text

variable {rest : List Char}

/-- No character of a numeral begins the text. -/
def Stops (cs : List Char) : Prop :=
  ∀ c ∈ cs.head?, ¬ Letter c

theorem stops_of_endsWord (h : EndsWord rest) : Stops rest := by
  intro c hc hletter
  have hblank := h c hc
  rw [hletter.plain.1] at hblank
  cases hblank

theorem Stops.noDigit (h : Stops rest) : NoDigit rest := by
  intro c hc
  cases hdigit : digitValue? c with
  | none => rfl
  | some d => exact absurd (.inl (Option.isSome_iff_exists.mpr ⟨d, hdigit⟩)) (h c hc)

theorem Stops.ne_mark (h : Stops rest) {c c' : Char} (hc : c ∈ rest.head?) (hmark : c' ∈ marks) :
    c ≠ c' := by
  rintro rfl
  exact h c hc (.inr hmark)

theorem takeDigits_append_of_stops (h : Stops rest) (cs : List Char) :
    takeDigits (cs ++ rest) = ((takeDigits cs).1, (takeDigits cs).2 ++ rest) := by
  induction cs with
  | nil =>
      cases rest with
      | nil => rfl
      | cons c rest =>
          have hdigit : digitValue? c = none := h.noDigit c rfl
          simp only [List.nil_append, takeDigits, hdigit]
  | cons c cs ih =>
      rw [List.cons_append, takeDigits, takeDigits]
      cases digitValue? c with
      | none => rfl
      | some d => simp only [ih]

theorem takeSign_append_of_stops (h : Stops rest) (cs : List Char) :
    takeSign (cs ++ rest) = ((takeSign cs).1, (takeSign cs).2 ++ rest) := by
  cases cs with
  | nil =>
      cases rest with
      | nil => rfl
      | cons c rest =>
          have hminus : c ≠ '-' := h.ne_mark rfl (by decide)
          have hplus : c ≠ '+' := h.ne_mark rfl (by decide)
          simp [takeSign, hminus, hplus]
  | cons c cs =>
      by_cases hminus : c = '-'
      · subst hminus
        rfl
      · by_cases hplus : c = '+'
        · subst hplus
          rfl
        · simp [takeSign, hminus, hplus]

theorem scanExponent_append_of_stops (h : Stops rest) (cs : List Char) :
    scanExponent (cs ++ rest) = ((scanExponent cs).1, (scanExponent cs).2 ++ rest) := by
  cases cs with
  | nil =>
      cases rest with
      | nil => rfl
      | cons c rest =>
          have he : c ≠ 'e' := h.ne_mark rfl (by decide)
          have hE : c ≠ 'E' := h.ne_mark rfl (by decide)
          simp [scanExponent, he, hE]
  | cons c cs =>
      rw [List.cons_append, scanExponent, scanExponent, takeSign_append_of_stops h,
        takeDigits_append_of_stops h]
      by_cases hletter : (c == 'e' || c == 'E') = true
      · simp only [hletter, ↓reduceIte]
        rcases hdigits : takeDigits (takeSign cs).2 with ⟨ds, rest'⟩
        cases ds with
        | nil => rfl
        | cons d ds => rfl
      · simp only [if_neg hletter, List.cons_append]

theorem scanMantissa_append_of_stops (h : Stops rest) (cs : List Char) :
    scanMantissa (cs ++ rest) =
      (scanMantissa cs).map fun (whole, fraction, rest') => (whole, fraction, rest' ++ rest) := by
  have hpoint : ∀ c ∈ rest.head?, c ≠ '.' := fun c hc => h.ne_mark hc (by decide)
  rw [scanMantissa, scanMantissa, takeDigits_append_of_stops h]
  rcases takeDigits cs with ⟨ds, rest'⟩
  cases rest' with
  | nil =>
      cases ds with
      | nil =>
          cases rest with
          | nil => rfl
          | cons c rest => simp [hpoint c rfl]
      | cons d ds =>
          cases rest with
          | nil => rfl
          | cons c rest => simp [hpoint c rfl]
  | cons c cs =>
      by_cases hc : c = '.'
      · subst hc
        cases ds with
        | nil =>
            simp only [List.cons_append, takeDigits_append_of_stops h]
            rcases takeDigits cs with ⟨ds', rest''⟩
            cases ds' with
            | nil => rfl
            | cons d ds' => rfl
        | cons d ds =>
            simp only [List.cons_append, takeDigits_append_of_stops h]
            rfl
      · cases ds with
        | nil => simp [hc]
        | cons d ds => simp [hc]

/-- What follows a blank does not matter to the numeral before it. -/
theorem scan_append_of_stops (h : Stops rest) (cs : List Char) :
    scan (cs ++ rest) = (scan cs).map fun (numeral, rest') => (numeral, rest' ++ rest) := by
  have hname : ∀ c ∈ rest.head?, c ≠ 'i' ∧ c ≠ 'n' ∧ c ≠ 'f' ∧ c ≠ 'a' := fun c hc =>
    ⟨h.ne_mark hc (by decide), h.ne_mark hc (by decide), h.ne_mark hc (by decide),
      h.ne_mark hc (by decide)⟩
  rw [scan.eq_def, scan.eq_def, scanMantissa_append_of_stops h]
  cases scanMantissa cs with
  | some mantissa =>
      obtain ⟨whole, fraction, rest'⟩ := mantissa
      simp only [Option.map_some, scanExponent_append_of_stops h]
  | none =>
      -- a name has three letters, and none of them is the first character behind it
      simp only [Option.map_none]
      rcases cs with _ | ⟨a, _ | ⟨b, _ | ⟨c, cs⟩⟩⟩
      · cases rest with
        | nil => rfl
        | cons d rest => simp [hname d rfl]
      · cases rest with
        | nil => simp
        | cons d rest => simp [hname d rfl]
      · cases rest with
        | nil => simp
        | cons d rest => simp [hname d rfl]
      · simp only [List.cons_append]
        split
        · rename_i heq
          obtain ⟨rfl, rfl, rfl, rfl⟩ : a = 'i' ∧ b = 'n' ∧ c = 'f' ∧ cs ++ rest = _ := by
            simpa using heq
          rfl
        · rename_i heq
          obtain ⟨rfl, rfl, rfl, rfl⟩ : a = 'n' ∧ b = 'a' ∧ c = 'n' ∧ cs ++ rest = _ := by
            simpa using heq
          rfl
        · split
          · simp_all
          · simp_all
          · rfl

end Numeral

namespace Token

open Text

variable {source source' : String} {start start' : Nat} {cs cs' as bs rest : List Char}
  {t : Token} {ts us : List Token} {ps qs : List (Token × Token)}

/-- The tokens of two texts with a blank between them are those of each text. -/
theorem scanFrom_append (h : EndsWord rest) (source : String) (start : Nat) (as : List Char) :
    scanFrom source start (as ++ rest) = (do
      let ts ← scanFrom source start as
      let us ← scanFrom source (start + as.length) rest
      return ts ++ us) := by
  have hstops := Numeral.stops_of_endsWord h
  fun_induction scanFrom source start as with
  | case1 start => exact (bind_pure _).symm
  | case2 start c as numeral rest' hscan chars =>
      rename_i ih
      have hsplit : c :: as = chars ++ rest' := (spelling_take hscan).1
      have hwhole : Numeral.scan (chars ++ (rest' ++ rest)) = some (numeral, rest' ++ rest) := by
        rw [← List.append_assoc, ← hsplit, Numeral.scan_append_of_stops hstops, hscan]
        rfl
      rw [hsplit, List.append_assoc, scanFrom_of_scan hwhole, ih, List.length_append]
      simp only [bind_assoc, pure_bind, List.cons_append, Nat.add_assoc]
  | case3 start c as hscan lexeme hsymbol ih =>
      have hcolumn : start + 1 + as.length = start + (c :: as).length := by
        rw [List.length_cons]
        omega
      rw [List.cons_append, scanFrom_symbol hsymbol, ih, hcolumn]
      simp only [bind_assoc, pure_bind, List.cons_append]
  | case4 start c as hscan hsymbol hblank ih =>
      rw [List.cons_append, scanFrom_blank hblank, ih, List.length_cons, Nat.add_assoc,
        Nat.add_comm 1]
  | case5 start c as hscan hsymbol hblank =>
      have hnone : Numeral.scan (c :: (as ++ rest)) = none := by
        rw [← List.cons_append, Numeral.scan_append_of_stops hstops, hscan]
        rfl
      rw [List.cons_append, scanFrom]
      split
      · rename_i hsome
        rw [hnone] at hsome
        cases hsome
      · rw [hsymbol, if_neg hblank]
        rfl

/-- Tokens lie within the text that they are scanned from. -/
theorem scanFrom_bounds (h : scanFrom source start cs = .ok ts) :
    ∀ t ∈ ts, start ≤ t.start ∧ t.stop ≤ start + cs.length := by
  fun_induction scanFrom source start cs generalizing ts with
  | case1 start =>
      obtain rfl := Except.ok.inj h
      exact List.forall_mem_nil _
  | case2 start c rest numeral rest' hscan chars =>
      rename_i ih
      obtain ⟨us, hus, rfl⟩ := cons_of_bind_ok h
      obtain ⟨hsplit, -⟩ := spelling_take hscan
      have hlength : (c :: rest).length = chars.length + rest'.length := by
        rw [← List.length_append]
        exact congrArg List.length hsplit
      intro t ht
      rcases List.mem_cons.mp ht with rfl | ht
      · simp only [stop]
        omega
      · have := ih hus t ht
        omega
  | case3 start c rest hscan lexeme hsymbol ih =>
      obtain ⟨us, hus, rfl⟩ := cons_of_bind_ok h
      intro t ht
      rw [List.length_cons]
      rcases List.mem_cons.mp ht with rfl | ht
      · simp only [stop, List.length_singleton]
        omega
      · have := ih hus t ht
        omega
  | case4 start c rest hscan hsymbol hblank ih =>
      intro t ht
      have := ih h t ht
      rw [List.length_cons]
      omega
  | case5 start c rest hscan hsymbol hblank => cases h

/-- Tokens behind a blank begin behind it. -/
theorem lt_start_of_endsWord (hrest : EndsWord rest) (h : scanFrom source start rest = .ok ts) :
    ∀ t ∈ ts, start < t.start := by
  cases rest with
  | nil =>
      rw [scanFrom] at h
      obtain rfl := Except.ok.inj h
      exact List.forall_mem_nil _
  | cons c rest =>
      rw [scanFrom_blank (hrest c rfl)] at h
      intro t ht
      exact Nat.lt_of_succ_le (scanFrom_bounds h t ht).1

theorem scanFrom_blanks_append (h : Blanks bs) (source : String) (start : Nat) (cs : List Char) :
    scanFrom source start (bs ++ cs) = scanFrom source (start + bs.length) cs := by
  induction bs generalizing start with
  | nil => rfl
  | cons b bs ih =>
      obtain ⟨hb, hbs⟩ := List.forall_mem_cons.mp h
      rw [List.cons_append, scanFrom_blank hb, ih hbs, List.length_cons, Nat.add_assoc,
        Nat.add_comm 1]

theorem scanFrom_blanks (h : Blanks bs) : scanFrom source start bs = .ok [] := by
  have hscan := scanFrom_blanks_append h source start []
  rw [List.append_nil] at hscan
  rw [hscan, scanFrom]

/-! ### The same tokens at other columns -/

/-- The second tokens are the first ones at other columns, and touch where these do. -/
structure Moved (ps : List (Token × Token)) : Prop where
  same : ∀ p ∈ ps, p.1.lexeme = p.2.lexeme ∧ p.1.chars = p.2.chars
  touching : ps.IsChain fun p q => q.1.start = p.1.stop → q.2.start = p.2.stop

theorem moved_nil : Moved [] :=
  ⟨List.forall_mem_nil _, .nil⟩

/-- Tokens of which the first ones do not touch the second ones are moved apart. -/
theorem Moved.append (hp : Moved ps) (hq : Moved qs)
    (hapart : ∀ p ∈ ps, ∀ q ∈ qs, p.1.stop < q.1.start) : Moved (ps ++ qs) := by
  constructor
  · exact List.forall_mem_append.mpr ⟨hp.same, hq.same⟩
  · refine hp.touching.append hq.touching ?_
    intro p hlast q hfirst htouch
    have := hapart p (List.mem_of_mem_getLast? hlast) q (List.mem_of_mem_head? hfirst)
    omega

theorem Moved.of_append (h : Moved (ps ++ qs)) : Moved ps ∧ Moved qs := by
  obtain ⟨hps, hqs⟩ := List.forall_mem_append.mp h.same
  exact ⟨⟨hps, h.touching.left_of_append⟩, ⟨hqs, h.touching.right_of_append⟩⟩

theorem Moved.of_cons {p : Token × Token} (h : Moved (p :: ps)) :
    p.1.lexeme = p.2.lexeme ∧ p.1.text = p.2.text ∧ Moved ps := by
  obtain ⟨hlexeme, hchars⟩ := h.same p List.mem_cons_self
  have hrest : Moved ([p] ++ ps) → Moved ps := fun hall => hall.of_append.2
  refine ⟨hlexeme, ?_, hrest h⟩
  rw [text, text, hchars]

/-- Two tokens are the same but for their columns, which are counted from two starts. -/
def Shifted (start start' : Nat) (p : Token × Token) : Prop :=
  p.1.lexeme = p.2.lexeme ∧ p.1.chars = p.2.chars ∧ p.1.start + start' = p.2.start + start

theorem moved_of_shifted (h : ∀ p ∈ ps, Shifted start start' p) : Moved ps := by
  constructor
  · intro p hp
    obtain ⟨hlexeme, hchars, -⟩ := h p hp
    exact ⟨hlexeme, hchars⟩
  · apply List.Pairwise.isChain
    apply List.pairwise_of_forall_mem_list
    intro p hp q hq htouch
    obtain ⟨-, hchars, hstart⟩ := h p hp
    obtain ⟨-, -, hstart'⟩ := h q hq
    simp only [stop, hchars] at htouch ⊢
    omega

theorem forall_shifted_cons {lexeme : Lexeme} {chars : List Char}
    (h : ∀ p ∈ ps, Shifted (start + chars.length) (start' + chars.length) p) :
    ∀ p ∈ (⟨lexeme, chars, start⟩, ⟨lexeme, chars, start'⟩) :: ps, Shifted start start' p := by
  refine List.forall_mem_cons.mpr ⟨⟨rfl, rfl, Nat.add_comm _ _⟩, ?_⟩
  intro p hp
  obtain ⟨hlexeme, hchars, hstart⟩ := h p hp
  exact ⟨hlexeme, hchars, by omega⟩

/-- The same text has the same tokens wherever it stands. -/
theorem exists_shifted (h : scanFrom source start cs = .ok ts) (source' : String) (start' : Nat) :
    ∃ ps : List (Token × Token), ts = ps.map Prod.fst ∧
      scanFrom source' start' cs = .ok (ps.map Prod.snd) ∧ ∀ p ∈ ps, Shifted start start' p := by
  fun_induction scanFrom source start cs generalizing start' ts with
  | case1 start =>
      obtain rfl := Except.ok.inj h
      refine ⟨[], rfl, ?_, List.forall_mem_nil _⟩
      rw [scanFrom]
      rfl
  | case2 start c rest numeral rest' hscan chars =>
      rename_i ih
      obtain ⟨us, hus, rfl⟩ := cons_of_bind_ok h
      have hsplit : c :: rest = chars ++ rest' := (spelling_take hscan).1
      obtain ⟨ps, rfl, hps, hshifted⟩ := ih hus (start' + chars.length)
      refine ⟨_ :: ps, rfl, ?_, forall_shifted_cons hshifted⟩
      rw [hsplit] at hscan ⊢
      rw [scanFrom_of_scan hscan, hps]
      rfl
  | case3 start c rest hscan lexeme hsymbol ih =>
      obtain ⟨us, hus, rfl⟩ := cons_of_bind_ok h
      obtain ⟨ps, rfl, hps, hshifted⟩ := ih hus (start' + 1)
      refine ⟨(⟨lexeme, [c], start⟩, ⟨lexeme, [c], start'⟩) :: ps, rfl, ?_,
        forall_shifted_cons hshifted⟩
      rw [scanFrom_symbol hsymbol, hps]
      rfl
  | case4 start c rest hscan hsymbol hblank ih =>
      obtain ⟨ps, rfl, hps, hshifted⟩ := ih h (start' + 1)
      refine ⟨ps, rfl, ?_, ?_⟩
      · rw [scanFrom_blank hblank, hps]
      · intro p hp
        obtain ⟨hlexeme, hchars, hstart⟩ := hshifted p hp
        exact ⟨hlexeme, hchars, by omega⟩
  | case5 start c rest hscan hsymbol hblank => cases h

/-- Texts of the same words have the same tokens at other columns, which touch alike. -/
theorem exists_moved (h : scanFrom source start cs = .ok ts) (hwords : words cs = words cs')
    (source' : String) (start' : Nat) :
    ∃ ps : List (Token × Token), ts = ps.map Prod.fst ∧
      scanFrom source' start' cs' = .ok (ps.map Prod.snd) ∧ Moved ps := by
  obtain ⟨ws, hcs⟩ : ∃ ws, words cs = ws := ⟨_, rfl⟩
  have hcs' : words cs' = ws := hwords.symm.trans hcs
  clear hwords
  induction ws generalizing cs cs' start start' ts with
  | nil =>
      rw [scanFrom_blanks (words_eq_nil_iff.mp hcs)] at h
      obtain rfl := Except.ok.inj h
      exact ⟨[], rfl, scanFrom_blanks (words_eq_nil_iff.mp hcs'), moved_nil⟩
  | cons w ws ih =>
      obtain ⟨bs, rest, rfl, hbs, hrest, hws⟩ := exists_of_words_cons hcs
      obtain ⟨bs', rest', rfl, hbs', hrest', hws'⟩ := exists_of_words_cons hcs'
      rw [scanFrom_blanks_append hbs, scanFrom_append hrest] at h
      rw [scanFrom_blanks_append hbs', scanFrom_append hrest']
      cases hword : scanFrom source (start + bs.length) w with
      | error c =>
          rw [hword] at h
          cases h
      | ok ts =>
          rw [hword] at h
          cases htail : scanFrom source (start + bs.length + w.length) rest with
          | error c =>
              rw [htail] at h
              cases h
          | ok us =>
              rw [htail] at h
              obtain rfl := Except.ok.inj h
              obtain ⟨ps, rfl, hps, hshifted⟩ :=
                exists_shifted hword source' (start' + bs'.length)
              obtain ⟨qs, rfl, hqs, hmoved⟩ :=
                ih htail (start' + bs'.length + w.length) hws hws'
              refine ⟨ps ++ qs, List.map_append.symm, ?_, ?_⟩
              · rw [hps, hqs, List.map_append]
                rfl
              · -- the tokens of the word end before the blank that the others begin behind
                apply (moved_of_shifted hshifted).append hmoved
                intro p hp q hq
                have hstop := (scanFrom_bounds hword p.1 (List.mem_map_of_mem hp)).2
                have hstart := lt_start_of_endsWord hrest htail q.1 (List.mem_map_of_mem hq)
                omega

end Token

end Calculator
