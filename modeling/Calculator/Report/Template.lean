import Calculator.Decimal.Layout

/-!
Message templates. A message is a template with numbered gaps, and the snippets that fill them.
So the plain message and the message with its snippets set in bold differ in nothing else.
-/
namespace Calculator

/-- A piece of a template: a literal text, or the gap for the snippet of a given index. -/
inductive Piece where
  | text (s : String)
  | snippet (index : Nat)
  deriving DecidableEq, Repr

/-- What stands in the message for a piece. -/
def Piece.fill (style : String → String) (snippets : List String) : Piece → String
  | .text s => s
  | .snippet index => ((snippets[index]?).map style).getD ""

/-- A message with gaps. -/
abbrev Template := List Piece

namespace Template

def plain (s : String) : Template := [.text s]

/-- The message, with each snippet in the given style. -/
def fill (style : String → String) (snippets : List String) (t : Template) : String :=
  String.join (t.map (Piece.fill style snippets))

/-- How the gaps of a template are numbered: not settled yet, by their order, or each by its own
number. -/
inductive Numbering where
  | open
  | automatic (next : Nat)
  | manual

/-- A template cannot be read. -/
inductive Defect where
  | loneOpening
  | loneClosing
  | unclosedGap
  /-- A gap holds an opening brace. -/
  | nestedGap
  | notNumbered (name : String)
  /-- There is no snippet for a gap. -/
  | missing (index : Nat)
  | toManual
  | toAutomatic
  deriving DecidableEq, Repr

/-- Adds a character before a template whose first piece may be a text. -/
def consChar (c : Char) : Template → Template
  | .text s :: t => .text (String.singleton c ++ s) :: t
  | t => .text (String.singleton c) :: t

/-- The index of the gap with the number `digits` written in it, and the numbering after it. -/
def gapIndex (numbering : Numbering) (digits : List Char) : Except Defect (Nat × Numbering) :=
  match digits, numbering with
  | [], .open => .ok (0, .automatic 1)
  | [], .automatic next => .ok (next, .automatic (next + 1))
  | [], .manual => .error .toAutomatic
  | ds, numbering =>
    if ds.all (fun c => '0' ≤ c && c ≤ '9') then
      match numbering with
      | .automatic _ => .error .toManual
      | _ => .ok (ds.foldl (fun n c => 10 * n + (c.toNat - '0'.toNat)) 0, .manual)
    else .error (.notNumbered (String.ofList ds))

/-- The gap for the snippet of an index, of which there must be one among `count`. -/
def gap (count index : Nat) : Except Defect Piece :=
  if index < count then .ok (.snippet index) else .error (.missing index)

/-- Reads a template for `count` snippets; `gap?` holds the characters read of a gap, last one
first. -/
def readFrom (count : Nat) (numbering : Numbering) (gap? : Option (List Char)) :
    List Char → Except Defect Template
  | [] =>
    match gap? with
    | none => .ok []
    | some _ => .error .unclosedGap
  | c :: cs =>
    match gap? with
    | some number =>
      if c == '}' then do
        let (index, numbering) ← gapIndex numbering number.reverse
        let piece ← gap count index
        return piece :: (← readFrom count numbering none cs)
      else if c == '{' then .error .nestedGap
      else readFrom count numbering (some (c :: number)) cs
    | none =>
      match c, cs with
      | '{', '{' :: cs => return consChar '{' (← readFrom count numbering none cs)
      | '}', '}' :: cs => return consChar '}' (← readFrom count numbering none cs)
      | '{', [] => .error .loneOpening
      | '{', cs => readFrom count numbering (some []) cs
      | '}', _ => .error .loneClosing
      | c, cs => return consChar c (← readFrom count numbering none cs)

/-- Reads a template for `count` snippets in which braces enclose the gaps. An empty gap takes the
next snippet, a numbered one the snippet of its number; a doubled brace stands for itself. The
first defect of the text counts. A gap holds nothing but its number: one that also says how its
snippet is to be laid out or converted, which no message of the calculator does, is refused as one
without a number. -/
def read (count : Nat) (s : String) : Except Defect Template :=
  readFrom count .open none s.toList

end Template

end Calculator
