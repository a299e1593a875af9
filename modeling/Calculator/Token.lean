import Calculator.Complaint
import Calculator.Decimal.Numeral
import Calculator.Operator

/-!
Tokens of expressions: numerals, operators and parentheses, each at a column of its source. Blanks
separate tokens and are skipped; a numeral is as long as it can be.
-/
namespace Calculator

/-- What a token is. -/
inductive Lexeme where
  | number (numeral : Numeral)
  | operator (op : Operator)
  | opening
  | closing
  deriving DecidableEq, Repr

/-- A lexeme, the characters that it consists of, and the column of the first of them. -/
structure Token where
  lexeme : Lexeme
  chars : List Char
  start : Nat
  deriving DecidableEq, Repr

namespace Token

/-- Column after the token. -/
def stop (t : Token) : Nat :=
  t.start + t.chars.length

def text (t : Token) : String :=
  String.ofList t.chars

/-- The operator or parenthesis that a character is. -/
def symbol? (c : Char) : Option Lexeme :=
  match Operator.ofChar? c with
  | some op => some (.operator op)
  | none => if c == '(' then some .opening else if c == ')' then some .closing else none

/-- Tokens of the part of `source` that begins at a column. -/
def scanFrom (source : String) (start : Nat) (cs : List Char) : Except Complaint (List Token) :=
  match cs with
  | [] => .ok []
  | c :: rest =>
    match _h : Numeral.scan (c :: rest) with
    | some (numeral, rest') => do
      let chars := (c :: rest).take (rest.length + 1 - rest'.length)
      let ts ← scanFrom source (start + chars.length) rest'
      return ⟨.number numeral, chars, start⟩ :: ts
    | none =>
      match symbol? c with
      | some lexeme => do
        let ts ← scanFrom source (start + 1) rest
        return ⟨lexeme, [c], start⟩ :: ts
      | none =>
        if Text.isBlank c then scanFrom source (start + 1) rest
        else .error (.illegalCharacter source c start)
termination_by cs.length
decreasing_by
  · exact Numeral.length_scan_lt _h
  · simp
  · simp

def scan (source : String) : Except Complaint (List Token) :=
  scanFrom source 0 source.toList

end Token

end Calculator
