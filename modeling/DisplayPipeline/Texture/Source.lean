import DisplayPipeline.Texel.Decode
import DisplayPipeline.Digest

/-!
# Texture sources

A texture as it was gathered from console memory, and its identity: the digest of its bytes, its
palette and its description.
-/

namespace DisplayPipeline

/-- A range of console memory. -/
structure Span where
  start : Nat
  stop : Nat
deriving DecidableEq, Repr, Inhabited

namespace Span

/-- The range of `length` bytes from an address on. -/
def ofLength (address length : UInt32) : Span :=
  ⟨address.toNat, address.toNat + length.toNat⟩

def isEmpty (s : Span) : Bool := s.stop ≤ s.start

/-- Whether two ranges have an address in common, provided that neither is empty. -/
def overlaps (s t : Span) : Bool := s.start < t.stop && t.start < s.stop

end Span

/-- A texture as the console holds it. -/
structure TextureSource where
  /-- The address of the first byte. -/
  address : UInt32
  /-- The bytes of console memory from the first to the last that was read. -/
  sourceLength : UInt32
  format : TexelFormat
  width : UInt32
  height : UInt32
  palette : Option Palette
  bytes : List UInt8
deriving DecidableEq, Repr

/-- The identity of a texture. -/
structure TextureKey where
  digest : UInt64
  format : TexelFormat
  width : UInt32
  height : UInt32
deriving DecidableEq, Repr

namespace TextureSource

/-- The console memory that the texture came from. -/
def span (s : TextureSource) : Span := .ofLength s.address s.sourceLength

def noPalette : UInt8 := 0xFF

/-- Format, palette format and size as bytes. -/
def description (s : TextureSource) : List UInt8 :=
  [s.format.code, (s.palette.map (·.format.code)).getD noPalette] ++
    Word.le32 s.width ++ Word.le32 s.height

/-- The bytes that are digested: texels, palette, description. -/
def identity (s : TextureSource) : List UInt8 :=
  s.bytes ++ (s.palette.map (·.bytes)).getD [] ++ s.description

def key (s : TextureSource) : TextureKey :=
  ⟨Digest.ofBytes s.identity, s.format, s.width, s.height⟩

def decode (s : TextureSource) : Except ConvertError (List UInt8) :=
  Color.flatten <$> s.format.decode s.width.toNat s.height.toNat s.bytes s.palette

end TextureSource

end DisplayPipeline
