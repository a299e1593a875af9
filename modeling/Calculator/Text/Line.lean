/-!
Lines of a text. A line ends at a line feed, at a carriage return, or at the two together; the
last line need not be ended.
-/
namespace Calculator.Text

/-- Lines of a text of whose first line the characters `current`, last one first, are read. -/
def linesFrom (current : List Char) : List Char → List (List Char)
  | [] => if current.isEmpty then [] else [current.reverse]
  | '\r' :: '\n' :: cs => current.reverse :: linesFrom [] cs
  | '\r' :: cs => current.reverse :: linesFrom [] cs
  | '\n' :: cs => current.reverse :: linesFrom [] cs
  | c :: cs => linesFrom (c :: current) cs

/-- Lines of a text, without their ends. -/
def lines (cs : List Char) : List (List Char) :=
  linesFrom [] cs

end Calculator.Text
