import Calculator.Text.Printable

/-!
Quoted text. A value that is shown inside a message is quoted so that every character of it can be
told apart: the quote mark, the backslash and all characters without a visible form are escaped.
-/
namespace Calculator.Text

/-- The hexadecimal digit of value `d`, in lower case. -/
def hexDigit (d : Nat) : Char :=
  (Nat.digitChar d)

/-- The last `width` hexadecimal digits of `n`. -/
def hex (width n : Nat) : List Char :=
  match width with
  | 0 => []
  | width + 1 => hex width (n / 16) ++ [hexDigit (n % 16)]

/-- One character as it stands between the quote marks `mark`. Characters without a visible form
are written by number, with two, four or eight digits as the number needs. -/
def escape (mark c : Char) : List Char :=
  if c == mark || c == '\\' then ['\\', c]
  else if c == '\t' then ['\\', 't']
  else if c == '\n' then ['\\', 'n']
  else if c == '\r' then ['\\', 'r']
  else if isPrintable c then [c]
  else if c.toNat < 0x100 then '\\' :: 'x' :: hex 2 c.toNat
  else if c.toNat < 0x10000 then '\\' :: 'u' :: hex 4 c.toNat
  else '\\' :: 'U' :: hex 8 c.toNat

/-- The mark that quotes `cs`: an apostrophe, unless that would need an escape and a double quote
would not. -/
def quoteMark (cs : List Char) : Char :=
  if cs.contains '\'' && !cs.contains '"' then '"' else '\''

/-- `s` in quote marks. -/
def quoted (s : String) : String :=
  let mark := quoteMark s.toList
  String.ofList (mark :: s.toList.flatMap (escape mark) ++ [mark])

end Calculator.Text
