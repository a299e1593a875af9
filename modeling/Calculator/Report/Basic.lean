import Calculator.Report.Ink
import Calculator.Report.Template

/-!
Reports. A report is a message about one expression, the subject, and a span of it that is to
blame. The span is drawn as two lines: the subject with the span in colour, and marks under it.
-/
namespace Calculator

/-- A message about an expression. Its first snippet is the subject. -/
structure Report where
  template : Template
  snippets : List String
  /-- Column at which the span to blame begins. -/
  start : Int := 0
  /-- Column at which the span ends. -/
  stop : Int
  /-- Whether the span is drawn when the report is printed. -/
  diagnosed : Bool := true
  /-- Whether the report is about the calculator itself. -/
  internal : Bool := false

namespace Report

/-- The expression that the report is about. -/
def subject (r : Report) : String :=
  r.snippets.headD ""

def message (r : Report) : String :=
  r.template.fill id r.snippets

/-- The message with its snippets in bold, if output is coloured. -/
def styled (coloured : Bool) (r : Report) : String :=
  r.template.fill (Ink.bold.paint coloured) r.snippets

/-- A report on the whole of its subject. -/
def onWhole (template : Template) (snippets : List String) : Report :=
  { template, snippets, stop := (snippets.headD "").length }

/-- A report that names its subject but marks no part of it. -/
def unmarked (template : Template) (snippets : List String) : Report :=
  { onWhole template snippets with diagnosed := false }

/-- A report without a subject. -/
def general (s : String) : Report :=
  onWhole (Template.plain s) [""]

/-- Index of a column within a text of length `length`. A negative column counts from the end, and
a column beyond either end is that end. -/
def column (length : Nat) (i : Int) : Nat :=
  if i < 0 then (i + length).toNat else min i.toNat length

/-- Characters of `cs` from column `i` up to column `j`. -/
def slice (cs : List Char) (i j : Int) : List Char :=
  (cs.take (column cs.length j)).drop (column cs.length i)

/-- Column at which the marked part ends; it has one column at least. -/
def markedStop (r : Report) : Int :=
  max r.stop (r.start + 1)

/-- The subject with the span in colour, and marks under the span. -/
def diagnosis (coloured warning : Bool) (r : Report) : String :=
  let ink := if warning then Ink.warning else Ink.error
  let cs := r.subject.toList
  let marks := '^' :: List.replicate (r.markedStop - r.start - 1).toNat '~'
  "  " ++ String.ofList (slice cs 0 r.start) ++
    ink.paint coloured (String.ofList (slice cs r.start r.markedStop)) ++
    String.ofList (slice cs r.markedStop cs.length) ++ "\n" ++
    "  " ++ String.ofList (List.replicate r.start.toNat ' ') ++
    ink.paint coloured (String.ofList marks)

/-- Whether the span is drawn under the message. -/
def showsDiagnosis (r : Report) : Bool :=
  !r.internal && !r.subject.isEmpty && r.diagnosed

end Report

end Calculator
