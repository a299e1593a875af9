import Calculator.Text.CodeRange

/-!
White space. Blank characters separate words, may stand between any two tokens, and are cut from
both ends of a line.
-/
namespace Calculator.Text

/-- Blank code points: the ASCII controls from tab to carriage return, the information separators,
the next-line control, and the space separators of Unicode. Zero-width characters are not blank. -/
def blankRanges : List CodeRange := [
  (0x09, 0x0D), (0x1C, 0x20), (0x85, 0x85), (0xA0, 0xA0), (0x1680, 0x1680), (0x2000, 0x200A),
  (0x2028, 0x2029), (0x202F, 0x202F), (0x205F, 0x205F), (0x3000, 0x3000)]

/-- Whether `c` is white space. -/
def isBlank (c : Char) : Bool :=
  CodeRange.covers blankRanges c

def trimLeft (cs : List Char) : List Char :=
  cs.dropWhile isBlank

def trimRight (cs : List Char) : List Char :=
  (cs.reverse.dropWhile isBlank).reverse

/-- Text without the blanks at its two ends. -/
def trim (cs : List Char) : List Char :=
  trimRight (trimLeft cs)

def trimmed (s : String) : String :=
  String.ofList (trim s.toList)

/-- Maximal runs of characters that are not blank, in order. -/
def words : List Char → List (List Char)
  | [] => []
  | c :: cs =>
    if isBlank c then words cs
    else match cs, words cs with
      | d :: _, w :: ws => if isBlank d then [c] :: w :: ws else (c :: w) :: ws
      | _, ws => [c] :: ws

end Calculator.Text
