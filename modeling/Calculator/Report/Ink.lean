/-!
Colours of the terminal. Snippets are set in bold, and the label of a report and the marked part
of an expression in bold red for errors and in bold magenta for warnings.
-/
namespace Calculator

/-- How a piece of output is emphasised. -/
inductive Ink where
  | bold
  | error
  | warning
  deriving DecidableEq, Repr

namespace Ink

/-- Control sequences that switch the emphasis on. -/
def opening : Ink → String
  | bold => "\x1b[1m"
  | error => "\x1b[1m\x1b[31m"
  | warning => "\x1b[1m\x1b[35m"

/-- Control sequence that ends every emphasis. -/
def closing : String := "\x1b[0m"

/-- `s` with emphasis, if output is coloured; an empty text is emphasised like any other. -/
def paint (coloured : Bool) (ink : Ink) (s : String) : String :=
  if coloured then ink.opening ++ s ++ closing else s

@[simp] theorem paint_false (ink : Ink) (s : String) : ink.paint false s = s := rfl

end Ink

end Calculator
