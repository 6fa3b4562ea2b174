/-!
# Texel formats

The encodings in which the console stores texels. A texel is a number of 4, 8, 16 or 32 bits; rows
are packed without gaps, filled up to a whole byte, most significant bit first.
-/

namespace DisplayPipeline

/-- An encoding of texels. -/
inductive TexelFormat where
  | rgba5551
  | rgb565
  | rgba8888
  | ia4
  | ia8
  | ia16
  | i4
  | i8
  | ci4
  | ci8
deriving DecidableEq, Repr, Inhabited

/-- The number of bits of one texel. -/
inductive TexelDepth where
  | four
  | eight
  | sixteen
  | thirtyTwo
deriving DecidableEq, Repr

namespace TexelDepth

def bits : TexelDepth → Nat
  | four => 4
  | eight => 8
  | sixteen => 16
  | thirtyTwo => 32

/-- The bytes of a row of `width` texels. -/
def rowBytes (depth : TexelDepth) (width : Nat) : Nat := (width * depth.bits + 7) / 8

end TexelDepth

namespace TexelFormat

def all : List TexelFormat :=
  [rgba5551, rgb565, rgba8888, ia4, ia8, ia16, i4, i8, ci4, ci8]

/-- The number that stands for a format in a command. -/
def code : TexelFormat → UInt8
  | rgba5551 => 0
  | rgb565 => 1
  | rgba8888 => 2
  | ia4 => 3
  | ia8 => 4
  | ia16 => 5
  | i4 => 6
  | i8 => 7
  | ci4 => 8
  | ci8 => 9

def ofCode? (code : UInt8) : Option TexelFormat := all[code.toNat]?

/-- The format that a tile's kind and size select. Pairs that the hardware does not sample select
none. -/
def ofTile? (kind size : Nat) : Option TexelFormat :=
  match kind, size with
  | 0, 2 => some rgba5551
  | 0, 3 => some rgba8888
  | 2, 0 => some ci4
  | 2, 1 => some ci8
  | 3, 0 => some ia4
  | 3, 1 => some ia8
  | 3, 2 => some ia16
  | 4, 0 => some i4
  | 4, 1 => some i8
  | _, _ => none

def depth : TexelFormat → TexelDepth
  | ia4 | i4 | ci4 => .four
  | ia8 | i8 | ci8 => .eight
  | rgba5551 | rgb565 | ia16 => .sixteen
  | rgba8888 => .thirtyTwo

/-- Whether texels are indices into a palette. -/
def isIndexed : TexelFormat → Bool
  | ci4 | ci8 => true
  | _ => false

def name : TexelFormat → String
  | rgba5551 => "Rgba5551"
  | rgb565 => "Rgb565"
  | rgba8888 => "Rgba8888"
  | ia4 => "Ia4"
  | ia8 => "Ia8"
  | ia16 => "Ia16"
  | i4 => "I4"
  | i8 => "I8"
  | ci4 => "Ci4"
  | ci8 => "Ci8"

def rowBytes (format : TexelFormat) (width : Nat) : Nat := format.depth.rowBytes width

/-- Sizes of images and buffers stay below this bound. -/
def sizeLimit : Nat := UInt64.size

/-- The bytes of an image, if they can be counted. -/
def imageBytes? (format : TexelFormat) (width height : Nat) : Option Nat :=
  let n := format.rowBytes width * height
  if n < sizeLimit then some n else none

end TexelFormat

end DisplayPipeline
