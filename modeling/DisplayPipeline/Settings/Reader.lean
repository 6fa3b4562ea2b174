import DisplayPipeline.Numeric.Rounding

/-!
# Reading settings from JSON text

A reader takes what it needs from the front of the text and leaves the rest. It stops at the first
fault: text that is no JSON, text that ends too early, or a value of the wrong kind.
-/

namespace DisplayPipeline

/-- Why a text cannot be read. -/
inductive ReadFault where
  /-- The text is not JSON. -/
  | malformed
  /-- The text ends where something has to follow. -/
  | truncated
  /-- The text holds something other than what is asked for. -/
  | mismatched
deriving DecidableEq, Repr

/-- Reads from the front of a text, given as bytes. -/
abbrev Reader := StateT (List UInt8) (Except ReadFault)

namespace Reader

def fail {α : Type} (fault : ReadFault) : Reader α := throw fault

def ascii (c : Char) : UInt8 := c.toNat.toUInt8

def isBlank (b : UInt8) : Bool := b = 0x20 || b = 0x09 || b = 0x0A || b = 0x0D

def isDigit (b : UInt8) : Bool := ascii '0' ≤ b && b ≤ ascii '9'

def digitValue (b : UInt8) : Nat := b.toNat - 0x30

def takeWhile (p : UInt8 → Bool) : Reader (List UInt8) := fun text =>
  .ok (text.takeWhile p, text.dropWhile p)

def peek? : Reader (Option UInt8) := fun text => .ok (text.head?, text)

def skip : Reader Unit := modify List.tail

/-- The next byte after blanks, which is not taken. -/
def next? : Reader (Option UInt8) := do
  let _ ← takeWhile isBlank
  peek?

/-- Takes the next byte after blanks if it is the given one. -/
def accept (c : Char) : Reader Bool := do
  if (← next?) = some (ascii c) then
    skip
    return true
  else return false

def expect (c : Char) : Reader Unit := do
  match ← next? with
  | none => fail .truncated
  | some b => if b = ascii c then skip else fail .malformed

def finish : Reader Unit := do
  if (← next?).isSome then fail .malformed

def hexValue? (b : UInt8) : Option Nat :=
  if isDigit b then some (digitValue b)
  else if ascii 'a' ≤ b && b ≤ ascii 'f' then some (b.toNat - 0x57)
  else if ascii 'A' ≤ b && b ≤ ascii 'F' then some (b.toNat - 0x37)
  else none

def hexValue4? (a b c d : UInt8) : Option Nat := do
  return (← hexValue? a) * 4096 + (← hexValue? b) * 256 + (← hexValue? c) * 16 + (← hexValue? d)

/-- The byte that an escape of one character stands for. -/
def escaped? (b : UInt8) : Option UInt8 :=
  if b = ascii '"' || b = ascii '\\' || b = ascii '/' then some b
  else if b = ascii 'b' then some 0x08
  else if b = ascii 'f' then some 0x0C
  else if b = ascii 'n' then some 0x0A
  else if b = ascii 'r' then some 0x0D
  else if b = ascii 't' then some 0x09
  else none

/-- Whether a code unit starts a pair that stands for one character. -/
def isLeading (n : Nat) : Bool := 0xD800 ≤ n && n < 0xDC00

def isTrailing (n : Nat) : Bool := 0xDC00 ≤ n && n < 0xE000

def codePointBytes (n : Nat) : List UInt8 := (String.singleton (Char.ofNat n)).toUTF8.data.toList

def pairValue (leading trailing : Nat) : Nat :=
  (leading - 0xD800) * 1024 + (trailing - 0xDC00) + 0x10000

/-- Reads a string up to its closing quote; `taken` is what was read of it, backwards. -/
def stringRest (taken : List UInt8) :
    List UInt8 → Except ReadFault (List UInt8 × List UInt8)
  | [] => .error .truncated
  | 0x22 :: rest => .ok (taken.reverse, rest)
  -- A backslash and the letter u.
  | 0x5C :: 0x75 :: a :: b :: c :: d :: rest =>
    match hexValue4? a b c d with
    | none => .error .malformed
    | some n =>
      if isTrailing n then .error .malformed
      else if isLeading n then
        match rest with
        | 0x5C :: 0x75 :: e :: f :: g :: h :: rest =>
          match hexValue4? e f g h with
          | none => .error .malformed
          | some m =>
            if isTrailing m then stringRest ((codePointBytes (pairValue n m)).reverse ++ taken) rest
            else .error .malformed
        | [] | [0x5C] => .error .truncated
        | 0x5C :: 0x75 :: _ => .error .truncated
        | _ => .error .malformed
      else stringRest ((codePointBytes n).reverse ++ taken) rest
  | 0x5C :: 0x75 :: _ => .error .truncated
  | [0x5C] => .error .truncated
  | 0x5C :: b :: rest =>
    match escaped? b with
    | none => .error .malformed
    | some byte => stringRest (byte :: taken) rest
  | b :: rest => if b < 0x20 then .error .malformed else stringRest (b :: taken) rest

/-- Takes a string whose opening quote was taken. -/
def string : Reader (List UInt8) := stringRest []

def word : List Char → Reader Unit
  | [] => pure ()
  | c :: rest => do
    match ← peek? with
    | none => fail .truncated
    | some b =>
      skip
      if b = ascii c then word rest else fail .malformed

/-- A decimal number `digits * 10 ^ exponent`. -/
structure Decimal where
  digits : Nat
  exponent : Int := 0

namespace Decimal

def limit : Nat := UInt64.size

/-- Adds digits as long as they can be kept. The answer has the digits that were left out. -/
def extend (digits : Nat) : List UInt8 → Nat × List UInt8
  | [] => (digits, [])
  | b :: rest =>
    let more := digits * 10 + digitValue b
    if more < limit then extend more rest else (digits, b :: rest)

/-- The least number that is too large for double precision. -/
def overflow : Nat := (1 <<< 1024) - (1 <<< 970)

/-- Whether a number is too large for double precision, with both factors rounded to it. -/
def isTooLarge (d : Decimal) : Bool :=
  d.digits ≠ 0 && d.exponent ≥ 0 &&
    (d.exponent > 308 ||
      Rounding.significant 53 d.digits * Rounding.significant 53 (Nat.pow 10 d.exponent.toNat) ≥ overflow)

end Decimal

def exponentLimit : Nat := 1 <<< 31

/-- Takes the exponent of a number, from its mark on. The number itself does not matter: only whether
it is too large. -/
def exponent (d : Decimal) : Reader Unit := do
  skip
  let sign ← peek?
  let isNegative := sign = some (ascii '-')
  if isNegative || sign = some (ascii '+') then skip
  match ← peek? with
  | none => fail .truncated
  | some b =>
    if !isDigit b then fail .malformed
    let digits ← takeWhile isDigit
    let size := digits.foldl (fun n b => min (n * 10 + digitValue b) exponentLimit) 0
    if size = exponentLimit then
      if d.digits ≠ 0 && !isNegative then fail .malformed
    else
      let d : Decimal := ⟨d.digits, if isNegative then d.exponent - size else d.exponent + size⟩
      if d.isTooLarge then fail .malformed

/-- Takes the fraction of a number, from its point on, and the exponent after it. -/
def fraction (d : Decimal) : Reader Unit := do
  skip
  let digits ← takeWhile isDigit
  if digits.isEmpty then
    if (← peek?).isNone then fail .truncated else fail .malformed
  let (kept, left) := Decimal.extend d.digits digits
  let d : Decimal := ⟨kept, d.exponent - (digits.length - left.length)⟩
  let mark ← peek?
  if mark = some (ascii 'e') || mark = some (ascii 'E') then exponent d
  else if d.isTooLarge then fail .malformed

/-- Takes a number after its sign. The answer is its value if it is a natural number below
`Decimal.limit` that is written without a fraction or an exponent. -/
def magnitude : Reader (Option Nat) := do
  match ← peek? with
  | none => fail .truncated
  | some b =>
    if !isDigit b then fail .malformed
    let digits ← takeWhile isDigit
    if b = ascii '0' && digits.length > 1 then fail .malformed
    let (kept, left) := Decimal.extend 0 digits
    let d : Decimal := ⟨kept, left.length⟩
    let mark ← peek?
    if mark = some (ascii '.') then
      fraction d
      return none
    else if mark = some (ascii 'e') || mark = some (ascii 'E') then
      exponent d
      return none
    else if left.isEmpty then return some kept
    else if d.isTooLarge then fail .malformed
    else return none

/-- Looks at a value of the wrong kind, whose first byte is given. The fault is in the value if it is
not even JSON; lists and objects are not looked into. -/
def wrongKind {α : Type} (first : UInt8) : Reader α := do
  if first = ascii 'n' then word "null".toList
  else if first = ascii 't' then word "true".toList
  else if first = ascii 'f' then word "false".toList
  else if first = ascii '-' then
    skip
    let _ ← magnitude
  else if isDigit first then
    let _ ← magnitude
  else if first = ascii '"' then
    skip
    let _ ← string
  else if first ≠ ascii '[' && first ≠ ascii '\x7b' then fail .malformed
  fail .mismatched

def natural (limit : Nat) : Reader Nat := do
  match ← next? with
  | none => fail .truncated
  | some b =>
    if b = ascii '-' then
      skip
      let _ ← magnitude
      fail .mismatched
    else if isDigit b then
      match ← magnitude with
      | some n => if n < limit then return n else fail .mismatched
      | none => fail .mismatched
    else wrongKind b

def text : Reader (List UInt8) := do
  match ← next? with
  | none => fail .truncated
  | some b =>
    if b = ascii '"' then
      skip
      string
    else wrongKind b

def null : Reader Unit := do
  match ← next? with
  | none => fail .truncated
  | some b => if b = ascii 'n' then word "null".toList else wrongKind b

def nameBytes (name : String) : List UInt8 := name.toUTF8.data.toList

def named {α : Type} (table : List (String × α)) (name : List UInt8) : Reader α :=
  match table.find? fun entry => nameBytes entry.1 = name with
  | some entry => pure entry.2
  | none => fail .mismatched

/-- Takes one of several names, alone or as the only member of an object with the value `null`. -/
def choice {α : Type} (table : List (String × α)) : Reader α := do
  match ← next? with
  | none => fail .truncated
  | some b =>
    if b = ascii '"' then named table (← text)
    else if b = ascii '\x7b' then
      skip
      expect '"'
      let value ← named table (← string)
      expect ':'
      null
      expect '\x7d'
      return value
    else fail .malformed

end Reader

end DisplayPipeline
