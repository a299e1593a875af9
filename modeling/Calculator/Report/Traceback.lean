import Calculator.Decimal.Layout

/-!
Tracebacks. A traceback lists the inputs in use, in the order in which they were first registered,
with the line of each that is being worked on.
-/
namespace Calculator

/-- An input and the line of it that is being worked on, with its number. -/
structure Place where
  path : String
  line : Option String
  number : Option Int
  deriving DecidableEq, Repr

/-- Inputs in order of registration. -/
abbrev Traceback := List Place

namespace Traceback

/-- Puts a place in the place of the one with the same path, or at the end if there is none. -/
def put (place : Place) : Traceback → Traceback
  | [] => [place]
  | p :: ps => if p.path == place.path then place :: ps else p :: put place ps

/-- Every input without a line. -/
def cleared (t : Traceback) : Traceback :=
  t.map fun p => ⟨p.path, none, none⟩

/-- A line number, or what is shown in its place. -/
def numberText : Option Int → String
  | some n => Layout.intText n
  | none => "None"

/-- The two lines that show a place in a traceback; a place without a text has none. -/
def placeText (p : Place) : String :=
  match p.line with
  | some line =>
    if line.isEmpty then ""
    else "  File '" ++ p.path ++ "', line " ++ numberText p.number ++ ":\n    " ++ line ++ "\n"
  | none => ""

/-- Text of a traceback, with a heading if anything is shown. -/
def text (t : Traceback) : String :=
  let shown := String.join (t.map placeText)
  if shown.isEmpty then "" else "Traceback:\n" ++ shown

/-- Where the last line being worked on stands, as it is written before a warning. -/
def location (t : Traceback) : String :=
  match t.reverse.find? (·.line.isSome) with
  | some p => p.path ++ ":" ++ numberText p.number ++ ": "
  | none => ""

/-- The paths are those of before; a new one stands at the end. -/
theorem map_path_put (place : Place) (t : Traceback) :
    (t.put place).map Place.path =
      if place.path ∈ t.map Place.path then t.map Place.path
      else t.map Place.path ++ [place.path] := by
  induction t with
  | nil => simp [put]
  | cons p ps ih =>
    by_cases h : p.path = place.path
    · simp [put, h]
    · have h' : ¬ place.path = p.path := fun e => h e.symm
      by_cases hm : place.path ∈ ps.map Place.path
      · simp_all [put]
      · simp_all [put]

theorem map_path_cleared (t : Traceback) : t.cleared.map Place.path = t.map Place.path := by
  simp [cleared, Function.comp_def]

end Traceback

end Calculator
