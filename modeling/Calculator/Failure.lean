import Calculator.Complaint
import Calculator.Text.Quoted
import Calculator.Text.Utf8

/-!
Failures: all ways in which an operation ends without an answer. A complaint is the user's; the
internal failures are those that no user should see, and are reported with the name of their kind.
-/
namespace Calculator

/-- A failure that is not put to the user's account. -/
inductive Internal where
  /-- An operation was given a datum of a kind that it does not take. -/
  | wrongType
  /-- A datum lacks what was asked of it. -/
  | lacking
  | notImplemented
  /-- A text, shown here, was read as a number. -/
  | notANumber (shown : String)
  /-- An integer is beyond the doubles. -/
  | intTooLarge
  /-- An integer has too many digits to be written. -/
  | intTooLong
  | negativeCapacity
  /-- A capacity or a count does not fit a machine word. -/
  | capacityTooLarge
  /-- A text is to be repeated to more characters than a machine word counts. -/
  | textTooLong
  | outOfMemory
  /-- A value was taken from a stack that has none. -/
  | emptyStack
  /-- An element was taken from a list that has none. -/
  | emptyList
  /-- A program has no instruction at an index. -/
  | noSuchIndex
  /-- A report was made without a subject. -/
  | noSubject
  | badTemplate (defect : Template.Defect)
  /-- A file is not UTF-8. -/
  | malformedText (defect : Text.Utf8.Malformed)
  /-- A path holds the NUL character. -/
  | nulInPath
  /-- A failure that a program using the library raises. -/
  | raised (kind message : String)

namespace Internal

/-- Name under which a kind of internal failure is reported. -/
def kind : Internal → String
  | wrongType => "TypeError"
  | lacking => "AttributeError"
  | notImplemented => "NotImplementedError"
  | notANumber _ | intTooLong | negativeCapacity | nulInPath => "ValueError"
  | intTooLarge | capacityTooLarge | textTooLong => "OverflowError"
  | outOfMemory => "MemoryError"
  | emptyStack | emptyList | noSuchIndex | noSubject | badTemplate (.missing _) => "IndexError"
  | badTemplate (.notNumbered _) => "KeyError"
  | badTemplate _ => "ValueError"
  | malformedText _ => "UnicodeDecodeError"
  | raised kind _ => kind

def message : Internal → String
  | wrongType | lacking | notImplemented | outOfMemory => ""
  | notANumber shown => "could not convert string to float: " ++ shown
  | intTooLarge => "int too large to convert to float"
  | intTooLong =>
    "Exceeds the limit (4300 digits) for integer string conversion; " ++
      "use sys.set_int_max_str_digits() to increase the limit"
  | negativeCapacity => "capacity cannot be negative"
  | capacityTooLarge => "cannot fit 'int' into an index-sized integer"
  | textTooLong => "repeated string is too long"
  | emptyStack => "pop from empty stack"
  | emptyList => "pop from empty list"
  | noSuchIndex => "tuple index out of range"
  | noSubject => "list index out of range"
  | badTemplate (.missing index) =>
    "Replacement index " ++ Layout.natText index ++ " out of range for positional args tuple"
  | badTemplate .loneOpening => "Single '\x7b' encountered in format string"
  | badTemplate .loneClosing => "Single '\x7d' encountered in format string"
  | badTemplate .unclosedGap => "expected '\x7d' before end of string"
  | badTemplate .nestedGap => "unexpected '\x7b' in field name"
  | badTemplate (.notNumbered name) => Text.quoted name
  | badTemplate .toManual =>
    "cannot switch from automatic field numbering to manual field specification"
  | badTemplate .toAutomatic =>
    "cannot switch from manual field specification to automatic field numbering"
  | malformedText defect => defect.message
  | nulInPath => "embedded null byte"
  | raised _ message => message

end Internal

/-- A way to end without an answer. -/
inductive Failure where
  | complaint (c : Complaint)
  /-- An expression nests beyond what the calculator walks. -/
  | nestsTooDeeply
  /-- The user interrupted the calculator. -/
  | interrupted
  /-- The calculator ends with an exit code. -/
  | exit (code : Int)
  | internal (i : Internal)

/-- The report that tells the user about a failure; an exit is silent. -/
def Failure.report? : Failure → Option Report
  | complaint c => some c.report
  | nestsTooDeeply =>
    some (.general "expression nests too deeply: maximum recursion depth exceeded")
  | interrupted => some (.general "keyboard interrupt")
  | internal i =>
    some { Report.onWhole (.text "unknown error: " :: Complaint.quotedSnippet 0)
      [i.kind ++ ": " ++ i.message] with internal := true }
  | exit _ => none

namespace Report

/-- Counts from here on, and those below its negative, do not fit a machine word. -/
def countLimit : Int := Int.pow 2 63

/-- Texts of so many characters exceed every address space. -/
def lengthLimit : Int := Int.pow 2 47

/-- Why a character cannot be repeated `n` times below the subject, if it cannot. As often as the
subject has characters, which found room themselves, it can. -/
def repeatFault? (r : Report) (n : Int) : Option Internal :=
  if n < -countLimit then some .capacityTooLarge
  else if n ≤ r.subject.length then none
  else if countLimit ≤ n then some .capacityTooLarge
  else if lengthLimit ≤ n then some .outOfMemory
  else none

/-- Why the span cannot be drawn, if it is to be drawn and cannot: there are too many blanks before
the marks, or too many marks. -/
def drawingFault? (r : Report) : Option Internal :=
  if r.showsDiagnosis then
    (r.repeatFault? r.start).or (r.repeatFault? (r.markedStop - r.start - 1))
  else none

/-- Why the span cannot be drawn, shown or not: there are too many blanks before the marks, or too
many marks. -/
def spanFault? (r : Report) : Option Internal :=
  (r.repeatFault? r.start).or (r.repeatFault? (r.markedStop - r.start - 1))

/-- The drawing of the span, or why there is none. -/
def draw (coloured warning : Bool) (r : Report) : Except Internal String :=
  match r.spanFault? with
  | some i => .error i
  | none => .ok (r.diagnosis coloured warning)

/-- The report without a drawing of its span. -/
def undrawn (r : Report) : Report :=
  { r with diagnosed := false }

end Report

/-- The report of a message with gaps, made up by a program that uses the library. An end of minus
one stands for the end of the subject. -/
def Report.make (text : String) (snippets : List String) (start : Int := 0) (stop : Int := -1)
    (diagnosed : Bool := true) (internal : Bool := false) : Except Internal Report :=
  match Template.read snippets.length text, snippets with
  | .error defect, _ => .error (.badTemplate defect)
  | .ok _, [] => .error .noSubject
  | .ok template, subject :: _ =>
    .ok ⟨template, snippets, start, if stop == -1 then subject.length else stop, diagnosed,
        internal⟩

end Calculator
