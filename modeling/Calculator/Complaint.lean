import Calculator.Report.Basic
import Calculator.Text.Blank

/-!
Complaints: the errors that a user of the calculator can cause. Each is a cause with its data;
`Complaint.report` gives the wording, the subject and the span to blame.
-/
namespace Calculator

/-- Why a node of a tree is malformed. -/
inductive Malformation where
  /-- An operation was asked of something that is no operator. -/
  | noOperation
  /-- A node was given something else, shown here, for its operator. -/
  | notAnOperator (shown : String)
  | notReal
  | outOfRange
  | childrenNeeded
  | unknownNode
  /-- A reason that a program using the library gives. -/
  | stated (reason : String)
  deriving DecidableEq, Repr

def Malformation.reason : Malformation → String
  | noOperation => "unrecognized operator"
  | notAnOperator shown => "unrecognized operator " ++ shown
  | notReal => "literal value must be a real number"
  | outOfRange => "literal value is out of double precision range"
  | childrenNeeded => "binary node needs two expression children"
  | unknownNode => "not a Literal or BinaryOp"
  | stated reason => reason

/-- An error that a user can cause. -/
inductive Complaint where
  /-- A node, shown here, violates the shape of trees. -/
  | malformed (node : String) (why : Malformation)
  /-- A push found every slot of a fixed stack taken. -/
  | stackOverflow (capacity : Nat)
  /-- An instruction, as a line of a listing, found fewer than two values. -/
  | stackUnderflow (instruction : String) (available : Nat)
  /-- A program left no value. -/
  | incompleteProgram
  /-- A program left several values. -/
  | excessValues (count : Nat)
  /-- An instruction or a record, shown here, is of no known kind. -/
  | unknownInstruction (shown : String)
  /-- An expression has no token. -/
  | emptyExpression (source : String)
  /-- A character that begins no token stands at a column. -/
  | illegalCharacter (source : String) (c : Char) (start : Nat)
  /-- An expression ends where an operand is missing. -/
  | endsUnexpectedly (source : String)
  /-- A token stands where it cannot. -/
  | unexpectedToken (source token : String) (start : Nat)
  /-- A parenthesis, at a column, has no partner. -/
  | mismatchedParenthesis (source : String) (start : Nat)
  /-- A minus sign, at a column, stands for an operand without a number right after it. -/
  | loneSign (source : String) (start : Nat)
  /-- A line of a listing has not exactly two words. -/
  | instructionForm (line : String)
  /-- A push has an operand, at a column, that is no number. -/
  | pushOperand (line operand : String) (start : Nat)
  | unknownStrategy (name : String)
  | unreadableFile (path : String)
  /-- The name of the interactive input was given as the path of a file. -/
  | reservedName
  /-- The two strategies gave the values `tree` and `machine` for an expression. -/
  | strategiesDisagree (expr tree machine : String)
  /-- A report that a program using the library makes up. -/
  | stated (report : Report)

namespace Complaint

/-- A snippet in apostrophes. -/
def quotedSnippet (index : Nat) : Template :=
  [.text "'", .snippet index, .text "'"]

/-- A report that blames the columns of `part` in `source`, from `start` on. -/
def blaming (template : Template) (source part : String) (start : Nat) : Report :=
  { template, snippets := [source, part], start, stop := start + part.length }

/-- Wording, subject and span of a complaint. -/
def report : Complaint → Report
  | malformed node why =>
    .unmarked (.text "malformed expression node " :: quotedSnippet 0 ++ [.text ": ", .snippet 1])
      [node, why.reason]
  | stackOverflow capacity =>
    .unmarked [.text "stack overflow: push exceeds capacity of ", .snippet 0]
      [Layout.natText capacity]
  | stackUnderflow instruction available =>
    .unmarked (.text "stack underflow: " :: quotedSnippet 0 ++
        [.text " needs 2 operands, found ", .snippet 1])
      [instruction, Layout.natText available]
  | incompleteProgram =>
    .unmarked (Template.plain "incomplete program: no value left on the stack") [""]
  | excessValues count =>
    .unmarked [.text "program left ", .snippet 0, .text " values on the stack, expected 1"]
      [Layout.natText count]
  | unknownInstruction shown =>
    .unmarked (.text "unknown instruction " :: quotedSnippet 0) [shown]
  | emptyExpression source =>
    .onWhole (Template.plain "expression cannot be empty") [source]
  | illegalCharacter source c start =>
    blaming (quotedSnippet 0 ++ .text " contains illegal character " :: quotedSnippet 1)
      source (String.singleton c) start
  | endsUnexpectedly source =>
    let stop := (Text.trimRight source.toList).length
    { template := quotedSnippet 0 ++ [.text " ends unexpectedly"], snippets := [source],
      start := stop - 1, stop }
  | unexpectedToken source token start =>
    blaming (quotedSnippet 0 ++ .text " has unexpected " :: quotedSnippet 1) source token start
  | mismatchedParenthesis source start =>
    { template := quotedSnippet 0 ++ [.text " has mismatched parentheses"], snippets := [source],
      start, stop := start + 1 }
  | loneSign source start =>
    { template := quotedSnippet 0 ++ [.text " has '-' not directly followed by a number"],
      snippets := [source], start, stop := start + 1 }
  | instructionForm line =>
    .onWhole (quotedSnippet 0 ++ [.text " expects an instruction and one operand"]) [line]
  | pushOperand line operand start =>
    blaming (quotedSnippet 0 ++ .text " pushes " :: quotedSnippet 1 ++
      [.text ", which is not a number"]) line operand start
  | unknownStrategy name =>
    .unmarked (.text "unknown strategy " :: quotedSnippet 0) [name]
  | unreadableFile path =>
    .unmarked (quotedSnippet 0 ++ [.text " could not be opened"]) [path]
  | reservedName =>
    .unmarked (Template.plain "'<in>' is a reserved filename") [""]
  | strategiesDisagree expr tree machine =>
    { Report.onWhole (.text "strategies disagree on " :: quotedSnippet 0 ++
        [.text ": tree gave ", .snippet 1, .text ", stack machine gave ", .snippet 2])
        [expr, tree, machine] with internal := true }
  | stated report => report

end Complaint

end Calculator
