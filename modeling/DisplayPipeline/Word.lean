/-!
# Machine words and their bytes

Words are written to commands with the least significant byte first and are held by the console
with the most significant byte first. `field` reads a bit range of a word.
-/

namespace DisplayPipeline.Word

/-- The bytes of a word, least significant first. -/
def le16 (v : UInt16) : List UInt8 := [v.toUInt8, (v >>> 8).toUInt8]

@[inherit_doc le16]
def le32 (v : UInt32) : List UInt8 :=
  [v.toUInt8, (v >>> 8).toUInt8, (v >>> 16).toUInt8, (v >>> 24).toUInt8]

@[inherit_doc le16]
def le64 (v : UInt64) : List UInt8 := le32 v.toUInt32 ++ le32 (v >>> 32).toUInt32

/-- The bytes of a word, most significant first. -/
def be16 (v : UInt16) : List UInt8 := [(v >>> 8).toUInt8, v.toUInt8]

@[inherit_doc be16]
def be32 (v : UInt32) : List UInt8 :=
  [(v >>> 24).toUInt8, (v >>> 16).toUInt8, (v >>> 8).toUInt8, v.toUInt8]

/-- The word whose bytes are `lo` and `hi`. -/
def join16 (hi lo : UInt8) : UInt16 := hi.toUInt16 <<< 8 ||| lo.toUInt16

/-- The word whose bytes are `a`, `b`, `c` and `d`, `a` the most significant. -/
def join32 (a b c d : UInt8) : UInt32 :=
  a.toUInt32 <<< 24 ||| b.toUInt32 <<< 16 ||| c.toUInt32 <<< 8 ||| d.toUInt32

/-- Pairs of bytes as words, most significant byte first; a single byte at the end is left out. -/
def pairs16 : List UInt8 → List UInt16
  | hi :: lo :: rest => join16 hi lo :: pairs16 rest
  | _ => []

/-- The word whose halves are `hi` and `lo`. -/
def join64 (hi lo : UInt32) : UInt64 := hi.toUInt64 <<< 32 ||| lo.toUInt64

/-- The `bits` bits of `word` from bit `shift` up, as a number. -/
def field (word shift bits : UInt32) : UInt32 := (word >>> shift) &&& ((1 <<< bits) - 1)

/-- `field` as a natural number. -/
def fieldNat (word shift bits : UInt32) : Nat := (field word shift bits).toNat

/-- The upper sixteen-bit half of a word. -/
def upper (word : UInt32) : UInt16 := (word >>> 16).toUInt16

/-- The lower sixteen-bit half of a word. -/
def lower (word : UInt32) : UInt16 := word.toUInt16

/-- A nine-bit two's complement number, as one of sixteen bits. -/
def extend9 (value : UInt32) : UInt16 :=
  if value &&& 0x100 = 0 then value.toUInt16 else value.toUInt16 ||| 0xFE00

/-- Replaces the bits `shift ≤ i < shift + length` of `word` by those of `data`. A range that
runs past the top of the word is cut off there. -/
def setBits (word shift length data : UInt32) : UInt32 :=
  if shift ≥ 32 ∨ length = 0 then word
  else
    let ones : UInt64 := (1 <<< (min length 32).toUInt64) - 1
    let mask := (ones <<< shift.toUInt64).toUInt32
    (word &&& ~~~mask) ||| (data &&& mask)

/-- Replaces byte `index` of `word`, counted from the least significant. -/
def setByte (word index value : UInt32) : UInt32 :=
  let shift := index * 8
  (word &&& ~~~(0xFF <<< shift)) ||| ((value &&& 0xFF) <<< shift)

/-- The signed value of a 16-bit two's complement word. -/
def signed16 (v : UInt16) : Int := v.toInt16.toInt

/-- The signed value of an 8-bit two's complement word. -/
def signed8 (v : UInt8) : Int := v.toInt8.toInt

end DisplayPipeline.Word
