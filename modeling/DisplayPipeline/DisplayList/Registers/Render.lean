import DisplayPipeline.Combiner.Key
import DisplayPipeline.Combiner.Uniforms
import DisplayPipeline.DisplayList.Image
import DisplayPipeline.Geometry.Visibility
import DisplayPipeline.Texel.Palette

/-!
# Render registers

Modes, combiner, constant colors, scissor and the images that are drawn to. A change closes the open
batch, since the primitives in it were drawn with the earlier values.
-/

namespace DisplayPipeline

/-- How many pixels the console handles at a time, and what it does with them. -/
inductive CycleType where
  | one
  | two
  | copy
  | fill
deriving DecidableEq, Repr, Inhabited

namespace CycleType

/-- Whether rectangles include their right and lower edges. -/
def isInclusive : CycleType → Bool
  | copy | fill => true
  | one | two => false

end CycleType

/-- The mode words of the console. -/
structure Modes where
  high : UInt32 := 0
  low : UInt32 := 0
deriving DecidableEq, Repr, Inhabited

namespace Modes

def depthCompare : UInt32 := 0x10
def alphaCompare : UInt32 := 0x3
def coverageTimesAlpha : UInt32 := 0x1000
def alphaCoverageSelect : UInt32 := 0x2000

/-- Whether any bit of a mask is set in the low word. -/
def any (m : Modes) (mask : UInt32) : Bool := m.low &&& mask != 0

def cycleType (m : Modes) : CycleType :=
  match Word.fieldNat m.high 20 2 with
  | 0 => .one
  | 1 => .two
  | 2 => .copy
  | _ => .fill

/-- The encoding of palette entries that a high mode word selects. -/
def paletteFormatOf (high : UInt32) : PaletteFormat :=
  if Word.fieldNat high 14 2 = 3 then .ia16 else .rgba5551

/-- The encoding of palette entries in force. -/
def paletteFormat (m : Modes) : PaletteFormat := paletteFormatOf m.high

end Modes

/-- One of the two mode words. -/
inductive ModeWord where
  | high
  | low
deriving DecidableEq, Repr

/-- A change of the constant colors. -/
inductive ColorChange where
  | prim (color : UInt32) (minLevel lodFraction : UInt8)
  | env (color : UInt32)
  | fog (color : UInt32)
  | blend (color : UInt32)
  | fill (color : UInt32)
  | keyRed (center scale : UInt32)
  | keyGreenBlue (greenCenter greenScale blueCenter blueScale : UInt32)
  | conversion (k4 k5 : UInt16)
deriving DecidableEq, Repr

namespace ColorChange

def apply (c : Combiner.ConstantColors) : ColorChange → Combiner.ConstantColors
  | prim color minLevel lodFraction =>
    { c with prim := color, primMinLevel := minLevel, primLodFraction := lodFraction }
  | env color => { c with env := color }
  | fog color => { c with fog := color }
  | blend color => { c with blend := color }
  | fill color => { c with fill := color }
  | keyRed center scale =>
    { c with
      keyCenter := Word.setByte c.keyCenter 3 center
      keyScale := Word.setByte c.keyScale 3 scale }
  | keyGreenBlue greenCenter greenScale blueCenter blueScale =>
    { c with
      keyCenter := Word.setByte (Word.setByte c.keyCenter 2 greenCenter) 1 blueCenter
      keyScale := Word.setByte (Word.setByte c.keyScale 2 greenScale) 1 blueScale }
  | conversion k4 k5 => { c with k4, k5 }

end ColorChange

/-- The render registers. -/
structure RenderRegisters where
  geometryMode : GeometryMode := ⟨0⟩
  modes : Modes := {}
  mux : UInt64 := 0
  colors : Combiner.ConstantColors := {}
  scissor : QuarterRect
  colorImage : Image := {}
  /-- The color images of the current frame, the one set last first. -/
  recentImages : List Image := []
  depthImage : UInt32 := 0
deriving DecidableEq, Repr

/-- A change of the render registers. Addresses are segmented. -/
inductive RenderChange where
  /-- Keeps the mode bits in one mask and adds those in another. -/
  | geometryMode (kept added : UInt32)
  | modeBits (word : ModeWord) (shift length data : UInt32)
  | modes (modes : Modes)
  | mux (mux : UInt64)
  | color (change : ColorChange)
  | colorImage (image : Image)
  | depthImage (address : UInt32)
  | scissor (rect : QuarterRect)
  /-- The depth of primitives, which has no effect here. -/
  | primDepth
deriving DecidableEq, Repr

namespace RenderRegisters

/-- The most color images that are remembered. -/
def maxRecentImages : Nat := 4

/-- Makes an image the color image. An image remembered under its address is replaced. -/
def setColorImage (r : RenderRegisters) (image : Image) : RenderRegisters :=
  let others := r.recentImages.filter fun other => other.address ≠ image.address
  { r with
    colorImage := image
    recentImages := image :: others.take (maxRecentImages - 1) }

def apply (r : RenderRegisters) (segments : Segments) : RenderChange → RenderRegisters
  | .geometryMode kept added => { r with geometryMode := ⟨r.geometryMode.bits &&& kept ||| added⟩ }
  | .modeBits .high shift length data =>
    { r with modes.high := Word.setBits r.modes.high shift length data }
  | .modeBits .low shift length data =>
    { r with modes.low := Word.setBits r.modes.low shift length data }
  | .modes modes => { r with modes }
  | .mux mux => { r with mux }
  | .color change => { r with colors := change.apply r.colors }
  | .colorImage image => r.setColorImage (image.locate segments)
  | .depthImage address => { r with depthImage := segments.resolve address }
  | .scissor rect => { r with scissor := rect }
  | .primDepth => r

/-- Forgets the color images of the frame that has ended. -/
def endFrame (r : RenderRegisters) : RenderRegisters := { r with recentImages := [] }

/-- The color of fills. A color image of 16 bits takes two pixels from the fill word, of which the
first counts. -/
def fillColor (r : RenderRegisters) : Color :=
  if r.colorImage.isSixteenBit then Color.of5551 (r.colors.fill >>> 16)
  else Color.ofWord r.colors.fill

/-- The color of rectangles that are filled in the cycle type in force. -/
def rectColor (r : RenderRegisters) : Color :=
  if r.modes.cycleType = .fill then r.fillColor else Color.ofWord r.colors.prim

/-- The flags of the combiner program for drawing with or without a texture. -/
def combinerFlags (r : RenderRegisters) (textured : Bool) : Combiner.Flags :=
  [ (Combiner.Flags.twoCycle, r.modes.cycleType == .two),
    (Combiner.Flags.texturePresent, textured),
    (Combiner.Flags.depthCompare, r.modes.any Modes.depthCompare),
    (Combiner.Flags.alphaCompare, r.modes.any Modes.alphaCompare),
    (Combiner.Flags.alphaCoverageSelect, r.modes.any Modes.alphaCoverageSelect),
    (Combiner.Flags.coverageTimesAlpha, r.modes.any Modes.coverageTimesAlpha),
    (Combiner.Flags.fog, r.geometryMode.has GeometryMode.fog) ].foldl
      (fun flags (mask, holds) => flags.addIf mask holds) .none

end RenderRegisters

end DisplayPipeline
