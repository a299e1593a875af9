import Calculator.Decimal.Basic
import Calculator.Text.Digit

/-!
Numerals: the unsigned numbers of expressions and listings. A numeral has digits with an optional
point and fraction, or a point and digits, and then an optional exponent; or it is one of the
names `inf` and `nan`. Scanning takes the longest numeral at the front of a text.
-/
namespace Calculator

/-- A number as it is written, without a sign. -/
inductive Numeral where
  /-- Digits before and after the point, and the exponent. -/
  | decimal (whole fraction : List Nat) (exponent : Int)
  | infinity
  | notANumber
  deriving DecidableEq, Repr

namespace Numeral

open Text

/-- Digits at the front of a text, and what follows them. -/
def takeDigits : List Char → List Nat × List Char
  | [] => ([], [])
  | c :: cs =>
    match digitValue? c with
    | some d => (d :: (takeDigits cs).1, (takeDigits cs).2)
    | none => ([], c :: cs)

/-- The number that the digits `ds` denote. -/
def ofDigits (ds : List Nat) : Nat :=
  ds.foldl (fun n d => 10 * n + d) 0

/-- Digits with a point among, before or after them: those before the point, those after it, and
what follows. -/
def scanMantissa (cs : List Char) : Option (List Nat × List Nat × List Char) :=
  match takeDigits cs with
  | ([], '.' :: rest) =>
    match takeDigits rest with
    | ([], _) => none
    | (fraction, rest) => some ([], fraction, rest)
  | ([], _) => none
  | (whole, '.' :: rest) => some (whole, takeDigits rest)
  | (whole, rest) => some (whole, [], rest)

/-- A sign at the front of a text, as whether it is a minus, and what follows. -/
def takeSign : List Char → Bool × List Char
  | '-' :: cs => (true, cs)
  | '+' :: cs => (false, cs)
  | cs => (false, cs)

/-- An exponent at the front of a text and what follows it. Without a digit there is no exponent,
and the letter is left where it stands. -/
def scanExponent (cs : List Char) : Int × List Char :=
  match cs with
  | c :: rest =>
    if c == 'e' || c == 'E' then
      match takeDigits (takeSign rest).2 with
      | ([], _) => (0, cs)
      | (ds, rest') => (if (takeSign rest).1 then -(ofDigits ds : Int) else ofDigits ds, rest')
    else (0, cs)
  | [] => (0, [])

/-- The longest numeral at the front of a text, and what follows it. -/
def scan (cs : List Char) : Option (Numeral × List Char) :=
  match scanMantissa cs with
  | some (whole, fraction, rest) =>
    some (.decimal whole fraction (scanExponent rest).1, (scanExponent rest).2)
  | none =>
    match cs with
    | 'i' :: 'n' :: 'f' :: rest => some (.infinity, rest)
    | 'n' :: 'a' :: 'n' :: rest => some (.notANumber, rest)
    | _ => none

/-- The numeral that a whole text is. -/
def ofText? (cs : List Char) : Option Numeral :=
  match scan cs with
  | some (numeral, []) => some numeral
  | _ => none

/-- Word of the canonical NaN. -/
def nanWord : Nat := Binary64.infinityWord + Nat.pow 2 51

/-- Word of the double that a numeral denotes. -/
def word : Numeral → Nat
  | .decimal whole fraction exponent =>
    Decimal.nearestWord ⟨ofDigits (whole ++ fraction), exponent - fraction.length⟩
  | .infinity => Binary64.infinityWord
  | .notANumber => nanWord

/-- The double that a numeral denotes, negated if `negative`. -/
def value (negative : Bool) (numeral : Numeral) : Float :=
  Binary64.ofWord negative numeral.word

theorem length_takeDigits_le (cs : List Char) : (takeDigits cs).2.length ≤ cs.length := by
  induction cs with
  | nil => simp [takeDigits]
  | cons c cs ih =>
    rw [takeDigits]
    split
    · simp only [List.length_cons]; omega
    · simp

/-- Digits that are taken shorten the text. -/
theorem length_takeDigits_lt {cs : List Char} (h : (takeDigits cs).1 ≠ []) :
    (takeDigits cs).2.length < cs.length := by
  cases cs with
  | nil => simp [takeDigits] at h
  | cons c cs =>
    rw [takeDigits] at h ⊢
    split
    · have := length_takeDigits_le cs
      simp only [List.length_cons]; omega
    · simp_all

theorem length_takeSign_le (cs : List Char) : (takeSign cs).2.length ≤ cs.length := by
  unfold takeSign
  split <;> simp

theorem length_scanExponent_le (cs : List Char) : (scanExponent cs).2.length ≤ cs.length := by
  unfold scanExponent
  split
  · rename_i c rest
    split
    · split
      · simp
      · rename_i ds rest' _ heq
        have h := length_takeDigits_le (takeSign rest).2
        have h' := length_takeSign_le rest
        simp only [heq] at h
        simp only [List.length_cons]
        omega
    · simp
  · simp

theorem length_scanMantissa_lt {cs rest : List Char} {whole fraction : List Nat}
    (h : scanMantissa cs = some (whole, fraction, rest)) : rest.length < cs.length := by
  have hlt := @length_takeDigits_lt cs
  have hle := length_takeDigits_le cs
  unfold scanMantissa at h
  split at h
  · rename_i rest' heq
    rw [heq] at hle
    split at h
    · simp at h
    · rename_i ds rest'' _ heq'
      obtain ⟨_, _, rfl⟩ : [] = whole ∧ ds = fraction ∧ rest'' = rest := by simpa using h
      have := length_takeDigits_le rest'
      rw [heq'] at this
      simp only [List.length_cons] at hle this
      omega
  · simp at h
  · rename_i ds rest' hne heq
    rw [heq] at hlt
    have := length_takeDigits_le rest'
    have hlt' := hlt (by simpa using hne)
    obtain ⟨_, h⟩ : ds = whole ∧ takeDigits rest' = (fraction, rest) := by simpa using h
    rw [h] at this
    simp only [List.length_cons] at hlt' this
    omega
  · rename_i hne _ heq
    rw [heq] at hlt
    simp only [Option.some.injEq, Prod.mk.injEq] at h
    obtain ⟨-, -, rfl⟩ := h
    exact hlt (by simpa using hne)

/-- A numeral is never empty, so what follows it is shorter than the text. -/
theorem length_scan_lt {cs rest : List Char} {numeral : Numeral}
    (h : scan cs = some (numeral, rest)) : rest.length < cs.length := by
  unfold scan at h
  split at h
  · rename_i whole fraction rest' heq
    have h1 := length_scanMantissa_lt heq
    have h2 := length_scanExponent_le rest'
    obtain ⟨_, rfl⟩ := Prod.mk.inj (Option.some.inj h)
    omega
  · split at h
    · obtain ⟨_, rfl⟩ := Prod.mk.inj (Option.some.inj h)
      simp only [List.length_cons]
      omega
    · obtain ⟨_, rfl⟩ := Prod.mk.inj (Option.some.inj h)
      simp only [List.length_cons]
      omega
    · simp at h

end Numeral

end Calculator
