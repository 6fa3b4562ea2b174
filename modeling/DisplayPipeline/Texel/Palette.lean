import DisplayPipeline.Texel.Color
import DisplayPipeline.Texel.Channel

/-!
# Palettes

Colors that indexed texels refer to. An index past the end means the last entry; an empty palette
makes everything transparent.
-/

namespace DisplayPipeline

/-- The encoding of the entries of a palette. -/
inductive PaletteFormat where
  | rgba5551
  | ia16
deriving DecidableEq, Repr, Inhabited

namespace PaletteFormat

/-- The number that stands for the encoding in a command. -/
def code : PaletteFormat → UInt8
  | rgba5551 => 0
  | ia16 => 1

def name : PaletteFormat → String
  | rgba5551 => "Rgba5551"
  | ia16 => "Ia16"

def ofCode? : UInt8 → Option PaletteFormat
  | 0 => some rgba5551
  | 1 => some ia16
  | _ => none

end PaletteFormat

/-- The color of a 16-bit word with five bits for each channel and one for alpha. -/
def Color.of5551 (word : UInt32) : Color :=
  { red := Channel.expand 5 (Word.fieldNat word 11 5)
    green := Channel.expand 5 (Word.fieldNat word 6 5)
    blue := Channel.expand 5 (Word.fieldNat word 1 5)
    alpha := Channel.expand 1 (Word.fieldNat word 0 1) }

/-- The color of a 16-bit word with intensity above alpha. -/
def Color.ofGray16 (word : UInt32) : Color := Color.gray (word >>> 8).toUInt8 word.toUInt8

/-- A snapshot of palette entries. -/
structure Palette where
  format : PaletteFormat
  entries : Array UInt16
deriving DecidableEq, Repr, Inhabited

namespace Palette

def bytes (palette : Palette) : List UInt8 := palette.entries.toList.flatMap Word.be16

def entryColor (palette : Palette) (entry : UInt16) : Color :=
  match palette.format with
  | .rgba5551 => Color.of5551 entry.toUInt32
  | .ia16 => Color.ofGray16 entry.toUInt32

def lookup (palette : Palette) (index : Nat) : Color :=
  match palette.entries[min index (palette.entries.size - 1)]? with
  | some entry => palette.entryColor entry
  | none => .transparent

end Palette

end DisplayPipeline
