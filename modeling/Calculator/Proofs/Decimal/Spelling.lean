import Calculator.Datum.Number
import Calculator.Proofs.Binary64.Negation
import Calculator.Token

/-!
The spellings of numerals, stated without a scanner.  The scanner finds a spelling at the front of
a text and reads every whole spelling back; and a spelling states the same double where numbers
are read from texts more liberally, since it has no padding, sign or separator to drop.
-/
namespace Calculator.Numeral

open Text

/-- The characters are digits, of any scripts, with these values. -/
def Digits (cs : List Char) (ds : List Nat) : Prop :=
  cs.map digitValue? = ds.map some

/-- Characters of a mantissa with its digits before and after the point. -/
inductive Mantissa : List Char → List Nat → List Nat → Prop where
  | whole {cs : List Char} {ds : List Nat} (hdigits : Digits cs ds) (hne : ds ≠ []) :
      Mantissa cs ds []
  | point {cs cs' : List Char} {ds ds' : List Nat} (hwhole : Digits cs ds)
      (hfraction : Digits cs' ds') (hne : ds ≠ [] ∨ ds' ≠ []) :
      Mantissa (cs ++ '.' :: cs') ds ds'

/-- Characters of an optional sign, and whether it is a minus. -/
inductive Sign : List Char → Bool → Prop where
  | none : Sign [] false
  | plus : Sign ['+'] false
  | minus : Sign ['-'] true

/-- Characters of an optional exponent with its value. -/
inductive Exponent : List Char → Int → Prop where
  | none : Exponent [] 0
  | power {letter : Char} {sign cs : List Char} {negative : Bool} {ds : List Nat}
      (hletter : letter = 'e' ∨ letter = 'E') (hsign : Sign sign negative)
      (hdigits : Digits cs ds) (hne : ds ≠ []) :
      Exponent (letter :: (sign ++ cs)) (if negative then -(ofDigits ds : Int) else ofDigits ds)

/-- Characters of a numeral. -/
inductive Spelling : List Char → Numeral → Prop where
  | decimal {cs cs' : List Char} {whole fraction : List Nat} {exponent : Int}
      (hmantissa : Mantissa cs whole fraction) (hexponent : Exponent cs' exponent) :
      Spelling (cs ++ cs') (.decimal whole fraction exponent)
  | infinity : Spelling ['i', 'n', 'f'] .infinity
  | notANumber : Spelling ['n', 'a', 'n'] .notANumber

/-- No digit begins the text. -/
def NoDigit (cs : List Char) : Prop :=
  ∀ c ∈ cs.head?, digitValue? c = none

theorem digits_nil : Digits [] [] :=
  rfl

theorem digits_cons {c : Char} {cs : List Char} {d : Nat} {ds : List Nat} :
    Digits (c :: cs) (d :: ds) ↔ digitValue? c = some d ∧ Digits cs ds := by
  simp [Digits]

theorem Digits.length_eq {cs : List Char} {ds : List Nat} (h : Digits cs ds) :
    cs.length = ds.length := by
  simpa [Digits] using congrArg List.length h

theorem Digits.isDigit_of_mem {cs : List Char} {ds : List Nat} (h : Digits cs ds) {c : Char}
    (hc : c ∈ cs) : isDigit c = true := by
  have hmem : digitValue? c ∈ ds.map some := by
    rw [← h]
    exact List.mem_map_of_mem hc
  obtain ⟨d, -, hd⟩ := List.mem_map.mp hmem
  rw [isDigit, ← hd]
  rfl

/-- The digits that are taken are a spelling, and none is left at the front. -/
theorem takeDigits_sound (cs : List Char) :
    ∃ front, cs = front ++ (takeDigits cs).2 ∧ Digits front (takeDigits cs).1 ∧
      NoDigit (takeDigits cs).2 := by
  induction cs with
  | nil => exact ⟨[], rfl, digits_nil, by simp [takeDigits, NoDigit]⟩
  | cons c cs ih =>
      obtain ⟨front, hsplit, hdigits, hrest⟩ := ih
      rw [takeDigits]
      cases hc : digitValue? c with
      | none =>
          refine ⟨[], rfl, digits_nil, ?_⟩
          intro c' hc'
          obtain rfl : c = c' := by simpa using hc'
          exact hc
      | some d =>
          refine ⟨c :: front, ?_, digits_cons.mpr ⟨hc, hdigits⟩, hrest⟩
          exact congrArg (c :: ·) hsplit

theorem takeDigits_append {cs rest : List Char} {ds : List Nat} (hdigits : Digits cs ds)
    (hrest : NoDigit rest) : takeDigits (cs ++ rest) = (ds, rest) := by
  induction cs generalizing ds with
  | nil =>
      obtain rfl : ds = [] := by
        have := hdigits.length_eq
        simpa using this.symm
      cases rest with
      | nil => rfl
      | cons c rest =>
          have hc : digitValue? c = none := hrest c rfl
          simp [takeDigits, hc]
  | cons c cs ih =>
      cases ds with
      | nil => simp [Digits] at hdigits
      | cons d ds =>
          obtain ⟨hc, htail⟩ := digits_cons.mp hdigits
          rw [List.cons_append, takeDigits, ih htail]
          simp only [hc]

theorem noDigit_cons {c : Char} {cs : List Char} (h : digitValue? c = none) :
    NoDigit (c :: cs) := by
  intro c' hc'
  obtain rfl : c = c' := by simpa using hc'
  exact h

theorem digitValue?_point : digitValue? '.' = none := by
  decide

/-! ### The scanner finds spellings -/

theorem scanMantissa_sound {cs rest : List Char} {whole fraction : List Nat}
    (h : scanMantissa cs = some (whole, fraction, rest)) :
    ∃ front, cs = front ++ rest ∧ Mantissa front whole fraction := by
  obtain ⟨front, hsplit, hdigits, -⟩ := takeDigits_sound cs
  unfold scanMantissa at h
  split at h
  · rename_i rest' heq
    obtain ⟨front', hsplit', hdigits', -⟩ := takeDigits_sound rest'
    rw [heq] at hsplit hdigits
    split at h
    · simp at h
    · rename_i ds rest'' hne heq'
      obtain ⟨rfl, rfl, rfl⟩ : [] = whole ∧ ds = fraction ∧ rest'' = rest := by simpa using h
      rw [heq'] at hsplit' hdigits'
      refine ⟨front ++ '.' :: front', ?_, .point hdigits hdigits' (.inr ?_)⟩
      · rw [hsplit, hsplit']
        simp
      · simpa using hne
  · simp at h
  · rename_i ds rest' hne heq
    obtain ⟨front', hsplit', hdigits', -⟩ := takeDigits_sound rest'
    rw [heq] at hsplit hdigits
    obtain ⟨rfl, htake⟩ : ds = whole ∧ takeDigits rest' = (fraction, rest) := by simpa using h
    rw [htake] at hsplit' hdigits'
    refine ⟨front ++ '.' :: front', ?_, .point hdigits hdigits' (.inl ?_)⟩
    · rw [hsplit, hsplit']
      simp
    · simpa using hne
  · rename_i hne _ heq
    rw [heq] at hsplit hdigits
    obtain ⟨rfl, rfl, rfl⟩ := by simpa using h
    exact ⟨front, hsplit, .whole hdigits (by simpa using hne)⟩

theorem takeSign_sound (cs : List Char) :
    ∃ front, cs = front ++ (takeSign cs).2 ∧ Sign front (takeSign cs).1 := by
  unfold takeSign
  split
  · exact ⟨['-'], rfl, .minus⟩
  · exact ⟨['+'], rfl, .plus⟩
  · exact ⟨[], rfl, .none⟩

theorem scanExponent_sound (cs : List Char) :
    ∃ front, cs = front ++ (scanExponent cs).2 ∧ Exponent front (scanExponent cs).1 := by
  unfold scanExponent
  split
  · rename_i c rest
    split
    · rename_i hletter
      obtain ⟨sign, hsplit, hsign⟩ := takeSign_sound rest
      obtain ⟨front, hsplit', hdigits, -⟩ := takeDigits_sound (takeSign rest).2
      split
      · exact ⟨[], rfl, .none⟩
      · rename_i ds rest' hne heq
        rw [heq] at hsplit' hdigits
        refine ⟨c :: (sign ++ front), ?_, .power ?_ hsign hdigits (by simpa using hne)⟩
        · rw [hsplit, hsplit']
          simp
        · simpa using hletter
    · exact ⟨[], rfl, .none⟩
  · exact ⟨[], rfl, .none⟩

/-- What the scanner takes is a spelling of the numeral that it gives. -/
theorem scan_sound {cs rest : List Char} {numeral : Numeral}
    (h : scan cs = some (numeral, rest)) :
    ∃ front, cs = front ++ rest ∧ Spelling front numeral := by
  unfold scan at h
  split at h
  · rename_i whole fraction rest' heq
    obtain ⟨rfl, rfl⟩ := Prod.mk.inj (Option.some.inj h)
    obtain ⟨front, hsplit, hmantissa⟩ := scanMantissa_sound heq
    obtain ⟨front', hsplit', hexponent⟩ := scanExponent_sound rest'
    refine ⟨front ++ front', ?_, .decimal hmantissa hexponent⟩
    rw [hsplit, List.append_assoc, ← hsplit']
  · split at h
    · obtain ⟨rfl, rfl⟩ := Prod.mk.inj (Option.some.inj h)
      exact ⟨['i', 'n', 'f'], rfl, .infinity⟩
    · obtain ⟨rfl, rfl⟩ := Prod.mk.inj (Option.some.inj h)
      exact ⟨['n', 'a', 'n'], rfl, .notANumber⟩
    · simp at h

/-! ### Every spelling is scanned whole -/

/-- Neither a digit nor a point begins the text. -/
def EndsMantissa (cs : List Char) : Prop :=
  ∀ c ∈ cs.head?, digitValue? c = none ∧ c ≠ '.'

theorem EndsMantissa.noDigit {cs : List Char} (h : EndsMantissa cs) : NoDigit cs :=
  fun c hc => (h c hc).1

theorem Mantissa.scan {cs rest : List Char} {whole fraction : List Nat}
    (h : Mantissa cs whole fraction) (hrest : EndsMantissa rest) :
    scanMantissa (cs ++ rest) = some (whole, fraction, rest) := by
  cases h with
  | whole hdigits hne =>
      rw [scanMantissa, takeDigits_append hdigits hrest.noDigit]
      split
      · rename_i heq
        exact absurd (Prod.mk.inj heq).1 hne
      · rename_i heq
        exact absurd (Prod.mk.inj heq).1 hne
      · rename_i rest' _ heq
        obtain ⟨rfl, rfl⟩ := Prod.mk.inj heq
        exact absurd rfl (hrest '.' rfl).2
      · rename_i heq
        obtain ⟨rfl, rfl⟩ := Prod.mk.inj heq
        rfl
  | point hwhole hfraction hne =>
      rename_i front back
      have hfront : takeDigits (front ++ '.' :: back ++ rest) = (whole, '.' :: (back ++ rest)) := by
        rw [List.append_assoc, List.cons_append]
        exact takeDigits_append hwhole (noDigit_cons digitValue?_point)
      have hback : takeDigits (back ++ rest) = (fraction, rest) :=
        takeDigits_append hfraction hrest.noDigit
      rw [scanMantissa, hfront]
      cases whole with
      | nil =>
          cases fraction with
          | nil => simp at hne
          | cons d ds => simp only [hback]
      | cons d ds => simp only [hback]

theorem Sign.take {cs rest : List Char} {negative : Bool} (h : Sign cs negative)
    (hrest : ∀ c ∈ rest.head?, isDigit c = true) : takeSign (cs ++ rest) = (negative, rest) := by
  cases h with
  | plus => rfl
  | minus => rfl
  | none =>
      cases rest with
      | nil => rfl
      | cons c rest =>
          have hc : isDigit c = true := hrest c rfl
          rw [List.nil_append]
          unfold takeSign
          split
          · rename_i heq
            obtain ⟨rfl, -⟩ := List.cons.inj heq
            exact absurd hc (by decide)
          · rename_i heq
            obtain ⟨rfl, -⟩ := List.cons.inj heq
            exact absurd hc (by decide)
          · rfl

/-- Nothing that a numeral goes on with begins the text. -/
def EndsNumeral (cs : List Char) : Prop :=
  ∀ c ∈ cs.head?, digitValue? c = none ∧ c ≠ '.' ∧ c ≠ 'e' ∧ c ≠ 'E'

theorem endsNumeral_nil : EndsNumeral [] := by
  intro c hc
  cases hc

theorem EndsNumeral.endsMantissa {cs : List Char} (h : EndsNumeral cs) : EndsMantissa cs :=
  fun c hc => ⟨(h c hc).1, (h c hc).2.1⟩

theorem Exponent.scan {cs rest : List Char} {exponent : Int} (h : Exponent cs exponent)
    (hrest : EndsNumeral rest) : scanExponent (cs ++ rest) = (exponent, rest) := by
  cases h with
  | none =>
      cases rest with
      | nil => rfl
      | cons c rest =>
          obtain ⟨-, -, he, hE⟩ := hrest c rfl
          simp [scanExponent, he, hE]
  | power hletter hsign hdigits hne =>
      rename_i letter sign front negative ds
      have htake : takeDigits (front ++ rest) = (ds, rest) :=
        takeDigits_append hdigits hrest.endsMantissa.noDigit
      have hsign' : takeSign (sign ++ (front ++ rest)) = (negative, front ++ rest) := by
        apply hsign.take
        intro c hc
        cases front with
        | nil => exact absurd (List.length_eq_zero_iff.mp hdigits.length_eq.symm) hne
        | cons c' front =>
            obtain rfl : c' = c := by simpa using hc
            exact hdigits.isDigit_of_mem List.mem_cons_self
      have hletter' : (letter == 'e' || letter == 'E') = true := by
        simpa using hletter
      cases ds with
      | nil => exact absurd rfl hne
      | cons d ds =>
          simp only [List.cons_append, List.append_assoc, scanExponent, hletter', hsign', htake,
            ↓reduceIte]

theorem Exponent.endsMantissa {cs rest : List Char} {exponent : Int} (h : Exponent cs exponent)
    (hrest : EndsNumeral rest) : EndsMantissa (cs ++ rest) := by
  cases h with
  | none => exact hrest.endsMantissa
  | power hletter =>
      intro c hc
      obtain rfl := Option.some.inj hc
      rcases hletter with rfl | rfl
      · decide
      · decide

/-- A spelling is scanned whole, up to a text that it does not go on into. -/
theorem Spelling.scan_append {cs rest : List Char} {numeral : Numeral} (h : Spelling cs numeral)
    (hrest : EndsNumeral rest) : Numeral.scan (cs ++ rest) = some (numeral, rest) := by
  cases h with
  | decimal hmantissa hexponent =>
      rw [List.append_assoc]
      unfold Numeral.scan
      rw [hmantissa.scan (hexponent.endsMantissa hrest)]
      simp only [hexponent.scan hrest]
  | infinity => rfl
  | notANumber => rfl

/-- A spelling is read back as its numeral. -/
theorem Spelling.ofText?_eq {cs : List Char} {numeral : Numeral} (h : Spelling cs numeral) :
    ofText? cs = some numeral := by
  have hscan := h.scan_append endsNumeral_nil
  rw [List.append_nil] at hscan
  rw [ofText?, hscan]

/-- What is read is what is spelled. -/
theorem ofText?_eq_some_iff {cs : List Char} {numeral : Numeral} :
    ofText? cs = some numeral ↔ Spelling cs numeral := by
  refine ⟨?_, Spelling.ofText?_eq⟩
  intro h
  rw [ofText?] at h
  split at h
  · rename_i hscan
    obtain rfl := Option.some.inj h
    obtain ⟨front, rfl, hspelling⟩ := scan_sound hscan
    rwa [List.append_nil]
  · cases h

/-! ### A spelling states its double -/

/-- A digit lies in none of the given ranges if no set of digits meets them. -/
theorem covers_eq_false_of_isDigit {rs : List CodeRange}
    (hapart : ∀ z ∈ digitZeros, ∀ r ∈ rs, z + 9 < r.1 ∨ r.2 < z) {c : Char}
    (hc : isDigit c = true) : CodeRange.covers rs c = false := by
  obtain ⟨d, hd⟩ := Option.isSome_iff_exists.mp hc
  obtain ⟨z, hz, -⟩ := Option.map_eq_some_iff.mp hd
  have hmem : z ∈ digitZeros := List.mem_of_find?_eq_some hz
  have hbounds := List.find?_some hz
  simp only [Bool.and_eq_true, decide_eq_true_eq] at hbounds
  cases hcovers : CodeRange.covers rs c with
  | false => rfl
  | true =>
      obtain ⟨r, hr, hlow, hhigh⟩ := CodeRange.covers_eq_true_iff.mp hcovers
      have := hapart z hmem r hr
      omega

theorem isBlank_eq_false_of_isDigit {c : Char} (hc : isDigit c = true) : isBlank c = false :=
  covers_eq_false_of_isDigit (by decide) hc

theorem toLower_of_isDigit {c : Char} (hc : isDigit c = true) : c.toLower = c := by
  have hupper : CodeRange.covers [(65, 90)] c = false :=
    covers_eq_false_of_isDigit (by decide) hc
  have hout : ¬ ('A'.val ≤ c.val ∧ c.val ≤ 'Z'.val) := by
    intro hin
    have : CodeRange.covers [(65, 90)] c = true :=
      CodeRange.covers_eq_true_iff.mpr ⟨(65, 90), List.mem_singleton.mpr rfl, hin⟩
    rw [hupper] at this
    contradiction
  exact dif_neg hout

/-- What every character of a spelling is, so that nothing is dropped from a spelling. -/
def Plain (c : Char) : Prop :=
  isBlank c = false ∧ c ≠ '_'

instance (c : Char) : Decidable (Plain c) :=
  inferInstanceAs (Decidable (isBlank c = false ∧ c ≠ '_'))

/-- The characters of numerals apart from digits: the point, the letters of an exponent, the signs
and the letters of the two names. -/
def marks : List Char :=
  ['.', 'e', 'E', '+', '-', 'i', 'n', 'f', 'a']

/-- A character that may stand in a numeral. -/
def Letter (c : Char) : Prop :=
  isDigit c = true ∨ c ∈ marks

instance (c : Char) : Decidable (Letter c) :=
  inferInstanceAs (Decidable (isDigit c = true ∨ c ∈ marks))

theorem Letter.plain {c : Char} (h : Letter c) : Plain c := by
  rcases h with hdigit | hmark
  · refine ⟨isBlank_eq_false_of_isDigit hdigit, ?_⟩
    rintro rfl
    exact absurd hdigit (by decide)
  · have hmarks : ∀ c ∈ marks, Plain c := by
      intro c hc
      fin_cases hc <;> decide
    exact hmarks c hmark

theorem Digits.letters {cs : List Char} {ds : List Nat} (h : Digits cs ds) :
    ∀ c ∈ cs, Letter c := by
  intro c hc
  exact .inl (h.isDigit_of_mem hc)

theorem Mantissa.letters {cs : List Char} {whole fraction : List Nat}
    (h : Mantissa cs whole fraction) : ∀ c ∈ cs, Letter c := by
  cases h with
  | whole hdigits _ => exact hdigits.letters
  | point hwhole hfraction _ =>
      have hpoint : Letter '.' := by decide
      exact List.forall_mem_append.mpr
        ⟨hwhole.letters, List.forall_mem_cons.mpr ⟨hpoint, hfraction.letters⟩⟩

theorem Sign.letters {cs : List Char} {negative : Bool} (h : Sign cs negative) :
    ∀ c ∈ cs, Letter c := by
  cases h with
  | none => exact List.forall_mem_nil Letter
  | plus => exact List.forall_mem_singleton.mpr (by decide)
  | minus => exact List.forall_mem_singleton.mpr (by decide)

theorem Exponent.letters {cs : List Char} {exponent : Int} (h : Exponent cs exponent) :
    ∀ c ∈ cs, Letter c := by
  cases h with
  | none => exact List.forall_mem_nil Letter
  | power hletter hsign hdigits _ =>
      refine List.forall_mem_cons.mpr
        ⟨?_, List.forall_mem_append.mpr ⟨hsign.letters, hdigits.letters⟩⟩
      rcases hletter with rfl | rfl
      · decide
      · decide

theorem Spelling.letters {cs : List Char} {numeral : Numeral} (h : Spelling cs numeral) :
    ∀ c ∈ cs, Letter c := by
  cases h with
  | decimal hmantissa hexponent =>
      exact List.forall_mem_append.mpr ⟨hmantissa.letters, hexponent.letters⟩
  | infinity =>
      simp only [List.forall_mem_cons]
      exact ⟨by decide, by decide, by decide, List.forall_mem_nil Letter⟩
  | notANumber =>
      simp only [List.forall_mem_cons]
      exact ⟨by decide, by decide, by decide, List.forall_mem_nil Letter⟩

theorem Spelling.plain {cs : List Char} {numeral : Numeral} (h : Spelling cs numeral) :
    ∀ c ∈ cs, Plain c := by
  intro c hc
  exact (h.letters c hc).plain

theorem trimPadding_of_plain {cs : List Char} (h : ∀ c ∈ cs, Plain c) : trimPadding cs = cs := by
  have hkeep : ∀ l : List Char, (∀ c ∈ l, Plain c) → l.dropWhile isPadding = l := by
    intro l hl
    cases l with
    | nil => rfl
    | cons c l =>
        have hc : isPadding c = false := by
          rw [isPadding, (hl c List.mem_cons_self).1, Bool.false_and]
        exact List.dropWhile_cons_of_neg (by simp [hc])
  rw [trimPadding, hkeep cs h, hkeep cs.reverse (by simpa using h), List.reverse_reverse]

theorem dropSeparators_of_plain {cs : List Char} (h : ∀ c ∈ cs, Plain c) (digit : Bool) :
    dropSeparators digit cs = some cs := by
  induction cs generalizing digit with
  | nil => rfl
  | cons c cs ih =>
      have hc : (c == '_') = false := by
        simpa using (h c List.mem_cons_self).2
      have htail := ih (fun c' hc' => h c' (List.mem_cons_of_mem c hc')) (isDigit c)
      unfold dropSeparators
      rw [hc, htail]
      rfl

/-- The first character of a mantissa is a digit or a point. -/
theorem Mantissa.head {cs : List Char} {whole fraction : List Nat}
    (h : Mantissa cs whole fraction) : ∃ c cs', cs = c :: cs' ∧ (isDigit c = true ∨ c = '.') := by
  cases h with
  | whole hdigits hne =>
      cases cs with
      | nil => exact absurd (List.length_eq_zero_iff.mp hdigits.length_eq.symm) hne
      | cons c cs => exact ⟨c, cs, rfl, .inl (hdigits.isDigit_of_mem List.mem_cons_self)⟩
  | point hwhole hfraction hne =>
      rename_i front back
      cases front with
      | nil => exact ⟨'.', back, rfl, .inr rfl⟩
      | cons c front =>
          exact ⟨c, front ++ '.' :: back, rfl, .inl (hwhole.isDigit_of_mem List.mem_cons_self)⟩

theorem Spelling.ne_nil {cs : List Char} {numeral : Numeral} (h : Spelling cs numeral) :
    cs ≠ [] := by
  cases h with
  | decimal hmantissa hexponent =>
      obtain ⟨c, front, rfl, -⟩ := hmantissa.head
      exact List.cons_ne_nil c _
  | infinity => exact List.cons_ne_nil _ _
  | notANumber => exact List.cons_ne_nil _ _

/-- A text that begins with a digit or a point has no sign, and is no name. -/
theorem takeSign_ofName?_of_head {c : Char} (cs : List Char)
    (h : isDigit c = true ∨ c = '.') :
    takeSign (c :: cs) = (false, c :: cs) ∧ ofName? (c :: cs) = none := by
  have hlower : c.toLower = c := by
    rcases h with hc | rfl
    · exact toLower_of_isDigit hc
    · rfl
  have hne : ∀ c' : Char, isDigit c' = false → c' ≠ '.' → c ≠ c' := by
    rintro c' hdigit hpoint rfl
    rcases h with hc | hc
    · rw [hdigit] at hc
      contradiction
    · exact hpoint hc
  have hminus := hne '-' (by decide) (by decide)
  have hplus := hne '+' (by decide) (by decide)
  have hi := hne 'i' (by decide) (by decide)
  have hn := hne 'n' (by decide) (by decide)
  constructor
  · unfold takeSign
    split
    · rename_i heq
      exact absurd (List.cons.inj heq).1 hminus
    · rename_i heq
      exact absurd (List.cons.inj heq).1 hplus
    · rfl
  · simp [ofName?, hlower, hi, hn]

/-- A spelling states the double of its numeral. -/
theorem Spelling.readText_eq {cs : List Char} {numeral : Numeral} (h : Spelling cs numeral) :
    readText (String.ofList cs) = some (numeral.value false) := by
  have htrim := trimPadding_of_plain h.plain
  have hdrop := dropSeparators_of_plain h.plain false
  have hread := h.ofText?_eq
  cases h with
  | infinity => rfl
  | notANumber => rfl
  | decimal hmantissa hexponent =>
      rename_i front back whole fraction exponent
      obtain ⟨c, front', rfl, hc⟩ := hmantissa.head
      obtain ⟨hsign, hname⟩ := takeSign_ofName?_of_head (front' ++ back) hc
      rw [readText, String.toList_ofList, htrim, List.cons_append, hsign]
      simp only [hname, List.cons_append] at hdrop hread ⊢
      rw [hdrop]
      simp only [Option.bind_eq_bind, Option.bind_some, hread, Option.map_some]

theorem word_lt (numeral : Numeral) : numeral.word < Binary64.signBit := by
  cases numeral with
  | infinity => decide
  | notANumber => decide
  | decimal whole fraction exponent =>
      have hinfinity : Binary64.infinityWord < Binary64.signBit := by decide
      rw [word, Decimal.nearestWord]
      split
      · exact Nat.two_pow_pos 63
      · split
        · exact hinfinity
        · split
          · exact Nat.two_pow_pos 63
          · exact Nat.lt_of_le_of_lt (Binary64.nearestWord_le _ _) hinfinity

/-- The value after a minus sign is the negated value. -/
theorem value_true (numeral : Numeral) : numeral.value true = -numeral.value false :=
  (Binary64.neg_ofWord numeral.word_lt).symm

end Calculator.Numeral
