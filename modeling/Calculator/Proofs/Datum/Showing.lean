import Calculator.Datum.Written
import Calculator.Expr.Walk

/-!
When a datum can be shown.  How many calls within each other its text takes is read off its shape;
with so many calls it is written, unless it holds an integer of too many digits, and with fewer it
nests too deeply.
-/
namespace Calculator

namespace Datum

variable {d : Datum} {ds : List Datum}

mutual

/-- Number of calls within each other that writing the datum in full takes. -/
def calls : Datum → Nat
  | list items | tuple items => mostCalls items + 1
  | expr e => fieldCalls * e.height + 1
  | instr _ => fieldCalls + 1
  | _ => 1

/-- Greatest such number among the data in a list. -/
def mostCalls : List Datum → Nat
  | [] => 0
  | d :: ds => max (calls d) (mostCalls ds)

end

mutual

/-- No integer in the datum has too many digits to be written. -/
def ShortInts : Datum → Prop
  | list items | tuple items => AllShortInts items
  | int n => n.natAbs < Nat.pow 10 Numeral.integerDigits
  | _ => True

def AllShortInts : List Datum → Prop
  | [] => True
  | d :: ds => ShortInts d ∧ AllShortInts ds

end

theorem calls_le_mostCalls (h : d ∈ ds) : d.calls ≤ mostCalls ds := by
  induction ds with
  | nil => cases h
  | cons d' ds ih =>
      rw [mostCalls]
      rcases List.mem_cons.mp h with rfl | htail
      · exact Nat.le_max_left _ _
      · exact Nat.le_trans (ih htail) (Nat.le_max_right _ _)

theorem allShortInts_iff : AllShortInts ds ↔ ∀ d ∈ ds, d.ShortInts := by
  induction ds with
  | nil => simp [AllShortInts]
  | cons d ds ih => simp [AllShortInts, ih]

mutual

/-- A datum of short integers is written if there is room for as many calls as it takes. -/
theorem shownFault?_of_shortInts {d : Datum} (h : d.ShortInts) (n : Nat) :
    d.shownFault? n = if d.calls ≤ n then none else some .nestsTooDeeply := by
  match d with
  | list items | tuple items =>
      simp only [ShortInts] at h
      simp only [shownFault?, calls]
      cases n with
      | zero => rfl
      | succ n => simp only [anyShownFault?_of_allShortInts h, Nat.add_le_add_iff_right]
  | int m =>
      simp only [ShortInts] at h
      simp only [shownFault?, calls, if_neg (Nat.not_le_of_lt h), Option.or_none]
      rfl
  | expr _ | instr _ | absent | bool _ | text _ | float _ | operator _ =>
      simp only [shownFault?, calls]
      rfl

theorem anyShownFault?_of_allShortInts {ds : List Datum} (h : AllShortInts ds) (n : Nat) :
    anyShownFault? n ds = if mostCalls ds ≤ n then none else some .nestsTooDeeply := by
  match ds with
  | [] => simp [anyShownFault?, mostCalls]
  | d :: ds =>
      simp only [AllShortInts] at h
      simp only [anyShownFault?, mostCalls, shownFault?_of_shortInts h.1,
        anyShownFault?_of_allShortInts h.2, Nat.max_le]
      by_cases hhead : d.calls ≤ n <;> simp [hhead]

end

/-- A tree is shown as a datum just if it is written in full as a tree. -/
theorem writeShown_expr (e : Expr) : (expr e).writeShown = e.writeShown := by
  have hlimit : (expr e).calls ≤ shownLimit ↔ e.height ≤ Expr.textLimit := by
    simp only [calls, shownLimit, fieldCalls, Expr.textLimit]
    omega
  have hshort : (expr e).ShortInts := trivial
  rw [writeShown, Expr.writeShown, Expr.within, shownFault?_of_shortInts hshort]
  simp only [hlimit]
  by_cases hheight : e.height ≤ Expr.textLimit
  · simp [hheight, shown]
  · simp [hheight]

end Datum

end Calculator
