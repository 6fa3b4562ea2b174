import DisplayPipeline.Texel.Packing
import DisplayPipeline.Texel.Palette

namespace DisplayPipeline

/-- Why an image cannot be converted. -/
inductive ConvertError where
  /-- The buffer ends before the image does. -/
  | sourceTooShort (needed actual : Nat)
  /-- Indexed texels came without a palette. -/
  | missingPalette (format : TexelFormat)
  /-- Neither side is canonical, or the target is indexed. -/
  | unsupported (source target : TexelFormat)
  /-- The size of the image cannot be counted. -/
  | overflow (width height : Nat)
deriving DecidableEq, Repr

namespace ConvertError

def message : ConvertError → String
  | sourceTooShort needed actual => s!"source buffer too short: need {needed} bytes, have {actual}"
  | missingPalette format => format.name ++ " requires a palette"
  | unsupported source target =>
    "conversion from " ++ source.name ++ " to " ++ target.name ++ " is not supported"
  | overflow width height => s!"image dimensions {width}x{height} overflow"

end ConvertError

namespace TexelFormat

def color (format : TexelFormat) (palette : Option Palette) (texel : UInt32) : Color :=
  let part := Word.fieldNat texel
  let indexed := (palette.map (·.lookup texel.toNat)).getD .transparent
  match format with
  | rgba5551 => .of5551 texel
  | rgb565 =>
    ⟨Channel.expand 5 (part 11 5), Channel.expand 6 (part 5 6), Channel.expand 5 (part 0 5), 0xFF⟩
  | rgba8888 => .ofWord texel
  | ia4 => .gray (Channel.expand 3 (part 1 3)) (Channel.expand 1 (part 0 1))
  | ia8 => .gray (Channel.expand 4 (part 4 4)) (Channel.expand 4 (part 0 4))
  | ia16 => .ofGray16 texel
  | i4 => .gray (Channel.expand 4 (part 0 4)) (Channel.expand 4 (part 0 4))
  | i8 => .gray texel.toUInt8 texel.toUInt8
  | ci4 => indexed
  | ci8 => indexed

/-- Succeeds with the size of the image if `actual` bytes hold it. -/
def requireBytes (format : TexelFormat) (width height actual : Nat) : Except ConvertError Nat :=
  match format.imageBytes? width height with
  | none => .error (.overflow width height)
  | some needed => if actual < needed then .error (.sourceTooShort needed actual) else .ok needed

def rowColors (format : TexelFormat) (palette : Option Palette) (width : Nat)
    (row : List UInt8) : List Color :=
  ((format.depth.unpack row).take width).map (format.color palette)

/-- The pixels of a packed image. Bytes after the image are ignored. -/
def decode (format : TexelFormat) (width height : Nat) (source : List UInt8)
    (palette : Option Palette) : Except ConvertError (List Color) := do
  let _ ← format.requireBytes width height source.length
  if format.isIndexed && palette.isNone then throw (.missingPalette format)
  if width * height * 4 ≥ sizeLimit then throw (.overflow width height)
  if width = 0 then return []
  return (TexelDepth.runs (format.rowBytes width) height source).flatMap
    (format.rowColors palette width)

end TexelFormat

end DisplayPipeline
