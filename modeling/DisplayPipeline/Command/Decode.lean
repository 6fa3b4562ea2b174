import DisplayPipeline.Command.Encode

/-!
# Reading written commands

`decode` accepts one command that takes up all of its bytes. Reserved bytes are ignored; every
count is checked against the bytes that are there before anything of that size is read.
-/

namespace DisplayPipeline

/-- A field of a command that a reader checks. -/
inductive CommandField where
  | flags
  | slot
  | bitDepth
  | format
  | paletteLength
  | paletteFormat
  | bytesLength
  | count
  | vertexCount
deriving DecidableEq, Repr

namespace CommandField

def name : CommandField → String
  | flags => "flags"
  | slot => "slot"
  | bitDepth => "bit_depth"
  | format => "format"
  | paletteLength => "palette_len"
  | paletteFormat => "palette_format"
  | bytesLength => "bytes_len"
  | count => "count"
  | vertexCount => "vertex_count"

end CommandField

/-- Why bytes are not a written command. -/
inductive CommandError where
  | headerTooShort (length : Nat)
  | unknownKind (code : UInt16)
  | lengthMismatch (declared actual : Nat)
  | payloadTooLarge (length : Nat)
  | truncated (kind : CommandKind)
  | trailingBytes (kind : CommandKind) (extra : Nat)
  | invalidField (kind : CommandKind) (field : CommandField) (value : Nat)
deriving DecidableEq, Repr

namespace CommandError

def message : CommandError → String
  | headerTooShort length => s!"command header truncated ({length} bytes)"
  | unknownKind code => "unknown render opcode " ++ Text.Hex.literal 4 code.toNat
  | lengthMismatch declared actual =>
    s!"payload length {declared} does not match {actual} available bytes"
  | payloadTooLarge length => s!"payload of {length} bytes exceeds the command size limit"
  | truncated kind => kind.name ++ " payload truncated"
  | trailingBytes kind extra => kind.name ++ s!" has {extra} trailing bytes"
  | invalidField kind field value =>
    kind.name ++ " field `" ++ field.name ++ s!"` has invalid value {value}"

end CommandError

namespace Command

/-- Reads from the front of the bytes that are left. -/
abbrev Reader := StateT (List UInt8) (Except CommandError)

namespace Reader

def byte (kind : CommandKind) : Reader UInt8 := fun
  | b :: rest => .ok (b, rest)
  | [] => .error (.truncated kind)

def word16 (kind : CommandKind) : Reader UInt16 := fun
  | a :: b :: rest => .ok (Word.join16 b a, rest)
  | _ => .error (.truncated kind)

def word32 (kind : CommandKind) : Reader UInt32 := fun
  | a :: b :: c :: d :: rest => .ok (Word.join32 d c b a, rest)
  | _ => .error (.truncated kind)

def word64 (kind : CommandKind) : Reader UInt64 := fun
  | a :: b :: c :: d :: e :: f :: g :: h :: rest =>
    .ok (Word.join64 (Word.join32 h g f e) (Word.join32 d c b a), rest)
  | _ => .error (.truncated kind)

/-- The next four bytes as a single precision number. -/
def single (kind : CommandKind) : Reader Float32 := do
  return Float32.ofBits (← word32 kind)

def bytes (kind : CommandKind) (n : Nat) : Reader (List UInt8) := fun rest =>
  if n ≤ rest.length then .ok (rest.take n, rest.drop n) else .error (.truncated kind)

def times {α : Type} (read : Reader α) : Nat → Reader (List α)
  | 0 => return []
  | n + 1 => do
    let a ← read
    let rest ← times read n
    return a :: rest

/-- Fails unless a condition on a field holds. -/
def require (kind : CommandKind) (field : CommandField) (value : Nat) (condition : Bool) :
    Reader Unit :=
  if condition then return () else throw (.invalidField kind field value)

def unit (kind : CommandKind) : Reader UInt8 := do
  let u ← byte kind
  require kind .slot u.toNat (u ≤ 1)
  return u

/-- A count of things of `size` bytes each, which must be all that is left. -/
def count (kind : CommandKind) (size : Nat) : Reader Nat := do
  let n := (← word32 kind).toNat
  require kind .count n (n * size = (← get).length)
  return n

def vector (kind : CommandKind) : Reader Vec4 := do
  return ⟨← single kind, ← single kind, ← single kind, ← single kind⟩

def vertex : Reader Vertex := do
  return ⟨← vector .drawTriangles, ← vector .drawTriangles, ← single .drawTriangles,
    ← single .drawTriangles⟩

def rect : Reader TexturedRect := do
  let k := CommandKind.drawRects
  return ⟨← single k, ← single k, ← single k, ← single k, ← single k, ← single k, ← single k,
    ← single k⟩

def fill : Reader FillRect := do
  let k := CommandKind.fillRects
  return ⟨← word16 k, ← word16 k, ← word16 k, ← word16 k, ← byte k, ← byte k, ← byte k, ← byte k⟩

def combine : Reader Command := do
  let mux ← word64 .setCombine
  let bits ← word32 .setCombine
  match Combiner.Flags.ofBits? bits with
  | some flags => return .setCombine mux flags
  | none => throw (.invalidField .setCombine .flags bits.toNat)

def colors : Reader Command := do
  let k := CommandKind.setColors
  let c : Combiner.ConstantColors :=
    { prim := ← word32 k, env := ← word32 k, fog := ← word32 k, blend := ← word32 k
      fill := ← word32 k, keyCenter := ← word32 k, keyScale := ← word32 k
      k4 := ← word16 k, k5 := ← word16 k
      primLodFraction := ← byte k, primMinLevel := ← byte k }
  let _ ← word16 k
  return .setColors c

def palette (code : UInt8) (entries : Nat) : Reader (Option Palette) := do
  let k := CommandKind.loadTexture
  if code = TextureSource.noPalette then
    require k .paletteLength entries (entries = 0)
    return none
  else
    match PaletteFormat.ofCode? code with
    | none => throw (.invalidField k .paletteFormat code.toNat)
    | some format => return some ⟨format, (← times (word16 k) entries).toArray⟩

def texture : Reader Command := do
  let k := CommandKind.loadTexture
  let unit ← Reader.unit k
  let code ← byte k
  match TexelFormat.ofCode? code with
  | none => throw (.invalidField k .format code.toNat)
  | some format =>
    let paletteCode ← byte k
    let _ ← byte k
    let address ← word32 k
    let width ← word32 k
    let height ← word32 k
    let entries := (← word16 k).toNat
    let _ ← word16 k
    let length := (← word32 k).toNat
    let sourceLength ← word32 k
    require k .paletteLength entries (entries ≤ maxPaletteEntries)
    require k .bytesLength length (length ≤ maxTexelBytes)
    let palette ← palette paletteCode entries
    let bytes ← Reader.bytes k length
    return .loadTexture ⟨unit, { address, sourceLength, format, width, height, palette, bytes }⟩

def capture : Reader Command := do
  let k := CommandKind.captureColorBuffer
  let unit ← Reader.unit k
  let bitDepth ← byte k
  require k .bitDepth bitDepth.toNat (bitDepth = 16 || bitDepth = 32)
  let synchronous := (← byte k) ≠ 0
  let _ ← byte k
  let address ← word32 k
  let region : Region := ⟨← word32 k, ← word32 k, ← word32 k, ← word32 k⟩
  return .captureColorBuffer ⟨unit, address, { region, bitDepth, synchronous }⟩

def triangles : Reader Command := do
  let n ← count .drawTriangles vertexBytes
  require .drawTriangles .vertexCount n (n % 3 = 0)
  return .drawTriangles (← times vertex n)

/-- The payload of a command of a given kind. -/
def command : CommandKind → Reader Command
  | .setCombine => combine
  | .setOtherModes => do return .setOtherModes (← word32 .setOtherModes) (← word32 .setOtherModes)
  | .setColors => colors
  | .loadTexture => texture
  | .invalidateRange => do
    return .invalidateRange (← word32 .invalidateRange) (← word32 .invalidateRange)
  | .captureColorBuffer => capture
  | .drawTriangles => triangles
  | .drawRects => do return .drawRects (← times rect (← count .drawRects rectBytes))
  | .fillRects => do return .fillRects (← times fill (← count .fillRects fillBytes))
  | .endFrame => return .endFrame

end Reader

/-- A payload of a known kind and of the declared length. -/
def decodePayload (kind : CommandKind) (payload : List UInt8) : Except CommandError Command := do
  let (command, rest) ← (Reader.command kind).run payload
  if rest.isEmpty then return command else throw (.trailingBytes kind rest.length)

/-- The command that takes up all of the given bytes. -/
def decode (bytes : List UInt8) : Except CommandError Command :=
  match bytes with
  | k0 :: k1 :: _ :: _ :: n0 :: n1 :: n2 :: n3 :: payload =>
    let code := Word.join16 k1 k0
    let declared := (Word.join32 n3 n2 n1 n0).toNat
    match CommandKind.ofCode? code with
    | none => .error (.unknownKind code)
    | some kind =>
      if declared > maxPayload then .error (.payloadTooLarge declared)
      else if payload.length ≠ declared then .error (.lengthMismatch declared payload.length)
      else decodePayload kind payload
  | _ => .error (.headerTooShort bytes.length)

end Command

end DisplayPipeline
