/-!
UTF-8. A file is decoded chunk by chunk; the octets of a character that is cut off by the end of a
chunk wait for the next one. A malformed sequence is reported with the octets that are wrong and
their position in the chunk being decoded, waiting octets included.
-/
namespace Calculator.Text.Utf8

/-- What is wrong with the octets at a position. -/
inductive Defect where
  /-- The octet begins no character. -/
  | invalidStart
  /-- The octet after these cannot continue the character they begin. -/
  | invalidContinuation
  /-- The text ends inside a character. -/
  | unexpectedEnd
  deriving DecidableEq, Repr

def Defect.reason : Defect → String
  | .invalidStart => "invalid start byte"
  | .invalidContinuation => "invalid continuation byte"
  | .unexpectedEnd => "unexpected end of data"

/-- A malformed sequence: its first octet, its position, its length and what is wrong with it. -/
structure Malformed where
  octet : UInt8
  position : Nat
  length : Nat
  defect : Defect
  deriving DecidableEq, Repr

def octetText (b : UInt8) : String :=
  String.ofList [Nat.digitChar (b.toNat / 16), Nat.digitChar (b.toNat % 16)]

def Malformed.message (m : Malformed) : String :=
  let what :=
    if m.length == 1 then "byte 0x" ++ octetText m.octet ++ " in position " ++ toString m.position
    else "bytes in position " ++ toString m.position ++ "-" ++
      toString (m.position + m.length - 1)
  "'utf-8' codec can't decode " ++ what ++ ": " ++ m.defect.reason

/-- What stands at the front of a sequence of octets. -/
inductive Front where
  /-- A whole character and the number of its octets. -/
  | char (c : Char) (length : Nat)
  /-- A character that the end of the octets cuts off. -/
  | cut
  /-- Octets of which no character consists. -/
  | bad (length : Nat) (defect : Defect)
  deriving DecidableEq, Repr

/-- How many octets follow the first octet `b` of a character, and the least and greatest second
octet; the narrower bounds exclude overlong forms, surrogates and numbers above U+10FFFF. -/
def lead? (b : UInt8) : Option (Nat × UInt8 × UInt8) :=
  if b ≤ 0x7F then some (0, 0x80, 0xBF)
  else if b < 0xC2 then none
  else if b ≤ 0xDF then some (1, 0x80, 0xBF)
  else if b == 0xE0 then some (2, 0xA0, 0xBF)
  else if b == 0xED then some (2, 0x80, 0x9F)
  else if b ≤ 0xEF then some (2, 0x80, 0xBF)
  else if b == 0xF0 then some (3, 0x90, 0xBF)
  else if b ≤ 0xF3 then some (3, 0x80, 0xBF)
  else if b == 0xF4 then some (3, 0x80, 0x8F)
  else none

/-- Reads the `count` octets still owed to a character of which `seen` octets have the value
`value`. Only the next octet is held to `low` and `high`; later ones are plain tails. -/
def continued (value seen : Nat) (low high : UInt8) : (count : Nat) → List UInt8 → Front
  | 0, _ => .char (Char.ofNat value) seen
  | _ + 1, [] => .cut
  | count + 1, b :: bs =>
    if low ≤ b && b ≤ high then
      continued (value * 64 + b.toNat % 64) (seen + 1) 0x80 0xBF count bs
    else .bad seen .invalidContinuation

/-- The front of a sequence that begins with octet `b`. -/
def front (b : UInt8) (bs : List UInt8) : Front :=
  match lead? b with
  | none => .bad 1 .invalidStart
  | some (0, _, _) => .char (Char.ofNat b.toNat) 1
  | some (count, low, high) =>
    continued (b.toNat % Nat.pow 2 (6 - count)) 1 low high count bs

/-- Whether the octets are the first two of the three that would encode a surrogate. They are no
character, but at the end of a chunk this is said only when the third octet or the end is seen. -/
def isCutSurrogate : List UInt8 → Bool
  | [b, b'] => b == 0xED && 0xA0 ≤ b' && b' ≤ 0xBF
  | _ => false

/-- Decodes octets from `position` on, while `skip` octets still belong to the character last
read: the characters, and the octets of a character cut off at the end. -/
def decodeFrom (position skip : Nat) : List UInt8 → Except Malformed (List Char × List UInt8)
  | [] => .ok ([], [])
  | b :: bs =>
    match skip with
    | skip + 1 => decodeFrom (position + 1) skip bs
    | 0 =>
      match front b bs with
      | .char c length => do
        let (cs, rest) ← decodeFrom (position + 1) (length - 1) bs
        return (c :: cs, rest)
      | .cut => .ok ([], b :: bs)
      | .bad length defect =>
        if isCutSurrogate (b :: bs) then .ok ([], b :: bs)
        else .error ⟨b, position, length, defect⟩

/-- Why octets that wait at the end of a file are no character. -/
def atEnd (b : UInt8) (bs : List UInt8) : Malformed :=
  match front b bs with
  | .bad length defect => ⟨b, 0, length, defect⟩
  | _ => ⟨b, 0, bs.length + 1, .unexpectedEnd⟩

/-- Octets that are read from a file at a time. -/
def chunkSize : Nat := 8192

/-- Decodes the octets of a whole file, of which `waiting` were cut off by the chunk before. -/
def decodeChunks (fuel : Nat) (waiting bytes : List UInt8) : Except Malformed (List Char) :=
  match fuel, waiting, bytes with
  | 0, _, _ => .ok []
  | _, [], [] => .ok []
  | _, b :: bs, [] => .error (atEnd b bs)
  | fuel + 1, _, _ => do
    let (cs, rest) ← decodeFrom 0 0 (waiting ++ bytes.take chunkSize)
    return cs ++ (← decodeChunks fuel rest (bytes.drop chunkSize))

/-- Decodes a file, or says where it is malformed. -/
def decode (bytes : List UInt8) : Except Malformed (List Char) :=
  decodeChunks (bytes.length + 2) [] bytes

end Calculator.Text.Utf8
