import Calculator.Datum.Number
import Calculator.Session
import Calculator.Text.Quoted

/-!
The command line. Arguments are first told apart: options, which may be abbreviated and may have
their value attached, and values. Then they are used from left to right. What cannot be used ends
in a usage error, and asking for help ends in the help text.
-/
namespace Calculator

/-- What the command line settles. -/
structure Settings where
  file : Option String := none
  strategy : Strategy := .vm
  stackSize : Option Int := none
  assembly : Bool := false
  emitting : Bool := false

/-- Why the command line does not start the calculator. -/
inductive Refusal where
  | help
  | usage (message : String)
  deriving DecidableEq, Repr

namespace Refusal

def usageText : String :=
  "usage: acalc [-h] [--strategy \x7btree,vm,both\x7d] [--stack-size N] [--asm]\n" ++
    "             [--emit]\n" ++
    "             [file]\n"

def helpText : String :=
  usageText ++ "\n" ++
    "Arithmetic expression interpreter.\n\n" ++
    "positional arguments:\n" ++
    "  file                  file to interpret and run (if empty, goes to command-\n" ++
    "                        line mode)\n\n" ++
    "options:\n" ++
    "  -h, --help            show this help message and exit\n" ++
    "  --strategy \x7btree,vm,both\x7d\n" ++
    "                        walk the tree, run compiled programs on the stack\n" ++
    "                        machine (default), or check both\n" ++
    "  --stack-size N        run on a fixed stack of capacity N (default: growable)\n" ++
    "  --asm                 treat file as one assembly listing (push N / apply OP)\n" ++
    "  --emit                print compiled programs instead of results\n"

def errorText (message : String) : String :=
  usageText ++ "acalc: error: " ++ message ++ "\n"

/-- Exit code of a usage error. -/
def usageExit : Int := 2

end Refusal

/-- An option of the command line. -/
inductive Switch where
  | help
  | strategy
  | stackSize
  | assembly
  | emit
  deriving DecidableEq, Repr

namespace Switch

/-- The options in the order in which they are listed. -/
def all : List Switch := [help, strategy, stackSize, assembly, emit]

def name : Switch → String
  | help => "--help"
  | strategy => "--strategy"
  | stackSize => "--stack-size"
  | assembly => "--asm"
  | emit => "--emit"

/-- Name of an option in usage errors. -/
def label : Switch → String
  | help => "-h/--help"
  | s => s.name

/-- Whether a value belongs to an option. -/
def takesValue : Switch → Bool
  | strategy | stackSize => true
  | help | assembly | emit => false

def named? (cs : List Char) : Option Switch :=
  all.find? (·.name.toList == cs)

/-- The options whose long name begins with `cs`. -/
def abbreviated (cs : List Char) : List Switch :=
  all.filter (cs.isPrefixOf ·.name.toList)

/-- A usage error about an option. -/
def refusal (s : Switch) (message : String) : Refusal :=
  .usage ("argument " ++ s.label ++ ": " ++ message)

/-- The usage error about an option with a value that does not belong to it. -/
def strayValue (s : Switch) (value : List Char) : Refusal :=
  s.refusal ("ignored explicit argument " ++ Text.quoted (String.ofList value))

end Switch

/-- An argument that was told apart. -/
inductive Argument where
  | value (text : String)
  /-- The first `--`, after which every argument is a value. -/
  | separator
  /-- An option, with the value attached to it by an equals sign if there is one. -/
  | switch (s : Switch) (value : Option (List Char))
  /-- The short name of help with characters right after it. -/
  | cluster (rest : List Char)
  | unknown (text : String)
  deriving DecidableEq, Repr

namespace Argument

/-- The characters before the first equals sign, and those after it if there is one. -/
def splitAttached : List Char → List Char × Option (List Char)
  | [] => ([], none)
  | c :: cs =>
    if c == '=' then ([], some cs) else (c :: (splitAttached cs).1, (splitAttached cs).2)

/-- Whether a text is a minus sign with digits after it, among which a point may stand before the
last one; a line feed may end it. -/
def isNegativeNumber (cs : List Char) : Bool :=
  match cs with
  | '-' :: cs =>
    let cs := if cs.getLast? == some '\n' then cs.dropLast else cs
    match Numeral.takeDigits cs with
    | (_, '.' :: cs) => !cs.isEmpty && cs.all Text.isDigit
    | (ds, cs) => !ds.isEmpty && cs.isEmpty
  | _ => false

/-- A text that begins with a minus sign and matches no option: a value if it is a negative number
or has a space in it. -/
def unmatched (text : String) : Argument :=
  if isNegativeNumber text.toList || text.toList.contains ' ' then .value text else .unknown text

def ambiguous (text : String) (matched : List Switch) : Refusal :=
  .usage ("ambiguous option: " ++ text ++ " could match " ++
    String.intercalate ", " (matched.map Switch.name))

/-- Tells apart an argument before the separator. -/
def ofText (text : String) : Except Refusal Argument :=
  let (name, attached) := splitAttached text.toList
  match name with
  | '-' :: '-' :: _ =>
    match Switch.named? name, Switch.abbreviated name with
    | some s, _ => .ok (.switch s attached)
    | none, [s] => .ok (.switch s attached)
    | none, [] => .ok (unmatched text)
    | none, matched => .error (ambiguous text matched)
  | ['-', 'h'] => .ok (.switch .help attached)
  | '-' :: 'h' :: _ => .ok (.cluster (text.toList.drop 2))
  | ['-'] => .ok (if attached.isSome then unmatched text else .value text)
  | '-' :: _ => .ok (unmatched text)
  | _ => .ok (.value text)

/-- Tells apart all arguments. -/
def ofTexts : List String → Except Refusal (List Argument)
  | [] => .ok []
  | text :: texts =>
    if text == "--" then .ok (.separator :: texts.map .value)
    else do
      let argument ← ofText text
      return argument :: (← ofTexts texts)

/-- What the characters right after the short name of help ask for: help, unless they attach a
value to it. -/
def helpCluster : List Char → Refusal
  | [] => .help
  | '-' :: cs => Switch.help.strayValue ('-' :: cs)
  | 'h' :: '=' :: cs => Switch.help.strayValue cs
  | 'h' :: cs => helpCluster cs
  | _ => .help

end Argument

namespace Settings

/-- Settings with the value of an option. -/
def withValue (settings : Settings) (s : Switch) (value : String) : Except Refusal Settings :=
  match s with
  | .strategy =>
    match Strategy.ofName value with
    | .unlisted _ =>
      .error (s.refusal ("invalid choice: " ++ Text.quoted value ++ " (choose from " ++
        String.intercalate ", " (Strategy.listed.map (Text.quoted ·.name)) ++ ")"))
    | strategy => .ok { settings with strategy }
  | .stackSize =>
    match Numeral.readInteger value with
    | some n => .ok { settings with stackSize := some n }
    | none => .error (s.refusal ("invalid int value: " ++ Text.quoted value))
  | _ => .ok settings

/-- Settings with an option that takes no value. -/
def withSwitch (settings : Settings) (s : Switch) : Except Refusal Settings :=
  match s with
  | .help => .error .help
  | .assembly => .ok { settings with assembly := true }
  | .emit => .ok { settings with emitting := true }
  | _ => .ok settings

/-- Uses arguments in order. The first value is the file; values after it and unknown options
are left over. A separator is used up if the file is named right after it, right before it or not
at all. -/
def use (settings : Settings) : List Argument → Except Refusal (Settings × List String)
  | [] => .ok (settings, [])
  | .value text :: .separator :: rest =>
    match settings.file with
    | none => { settings with file := some text }.use rest
    | some _ => do
      let (settings, extras) ← settings.use rest
      return (settings, text :: "--" :: extras)
  | .value text :: rest =>
    match settings.file with
    | none => { settings with file := some text }.use rest
    | some _ => do
      let (settings, extras) ← settings.use rest
      return (settings, text :: extras)
  | .separator :: rest =>
    match settings.file with
    | none => settings.use rest
    | some _ => do
      let (settings, extras) ← settings.use rest
      return (settings, "--" :: extras)
  | .unknown text :: rest => do
    let (settings, extras) ← settings.use rest
    return (settings, text :: extras)
  | .cluster cs :: _ => .error (Argument.helpCluster cs)
  | .switch s (some value) :: rest => do
    if s.takesValue then (← settings.withValue s (String.ofList value)).use rest
    else .error (s.strayValue value)
  | .switch s none :: .value text :: rest => do
    if s.takesValue then (← settings.withValue s text).use rest
    else (← settings.withSwitch s).use (.value text :: rest)
  | .switch s none :: rest => do
    if s.takesValue then .error (s.refusal "expected one argument")
    else (← settings.withSwitch s).use rest

/-- Checks settings against each other. -/
def check (settings : Settings) : Except Refusal Settings :=
  if settings.stackSize.any (· < 0) then .error (.usage "--stack-size cannot be negative")
  else if settings.assembly && settings.file.isNone then .error (.usage "--asm needs a file")
  else if settings.assembly && settings.strategy != .vm then
    .error (.usage "--asm listings only run on the stack machine (--strategy vm)")
  else .ok settings

/-- Settings of a command line. -/
def ofArguments (texts : List String) : Except Refusal Settings := do
  let (settings, extras) ← ({} : Settings).use (← Argument.ofTexts texts)
  if extras.isEmpty then settings.check
  else .error (.usage ("unrecognized arguments: " ++ " ".intercalate extras))

end Settings

end Calculator
