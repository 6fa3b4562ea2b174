import DisplayPipeline.Command.Basic
import DisplayPipeline.DisplayList.Registers.Basic

/-!
# Texture loads for the renderer

What the renderer is told so that it can sample a tile: the texels gathered from memory, or a part
of the render target where the tile reads back an image that was drawn.
-/

namespace DisplayPipeline

/-- What the processing of an instruction can see. -/
structure Scene where
  ram : Ram
  settings : ListSettings
  registers : Registers

namespace Scene

/-- The color image of this frame that holds an address, if any; the one set last wins. -/
def colorImageAt? (scene : Scene) (address : UInt32) : Option Image :=
  scene.registers.render.recentImages.find? fun image =>
    image.covers scene.settings.screenHeight.toNat address

/-- The part of the render target that a tile samples. -/
def captureOf (scene : Scene) (unit : UInt8) (tile : Tile) (image : Image) (address : UInt32) :
    ColorCapture :=
  let pixel := (address - image.address).toNat / image.bytesPerPixel
  { unit
    address
    read :=
      { region :=
          { x0 := UInt32.ofNat (pixel % image.width)
            y0 := UInt32.ofNat (pixel / image.width)
            width := UInt32.ofNat tile.width
            height := UInt32.ofNat tile.height }
        bitDepth := if image.isSixteenBit then 16 else 32
        synchronous := scene.settings.synchronousReads } }

/-- The rows of texels of a tile that fit into texture memory, if one does. -/
def fittingRows? (tile : Tile) (rowBytes : Nat) : Option Nat :=
  if rowBytes = 0 ∨ rowBytes > Command.maxTexelBytes then none
  else some (min tile.height (Command.maxTexelBytes / rowBytes))

/-- The distance in memory of the rows of a tile. -/
def strideOf (tile : Tile) (load : TextureMemoryLoad) (rowBytes : Nat) : Nat :=
  match load.stride with
  | some stride => stride
  | none => if tile.lineBytes = 0 then rowBytes else tile.lineBytes

/-- Rows of memory at a distance from each other. -/
def gatherRows (ram : Ram) (address : UInt32) (stride rowBytes rows : Nat) : List UInt8 :=
  (List.range rows).flatMap fun row =>
    (ram.copy (address + UInt32.ofNat (row * stride)) rowBytes).data.toList

/-- The bytes from the first to the last of a number of rows. -/
def spanLength (stride rowBytes rows : Nat) : Nat :=
  if rows = 0 then 0 else stride * (rows - 1) + rowBytes

/-- The palette that texels of a format refer to. -/
def paletteOf (scene : Scene) (tile : Tile) (format : TexelFormat) : Option Palette :=
  let entries := scene.registers.texture.palette.toArray
  let palette (entries : Array UInt16) : Palette :=
    ⟨scene.registers.render.modes.paletteFormat, entries⟩
  match format with
  | .ci4 => some (palette (entries.extract (16 * tile.layout.bank) (16 * tile.layout.bank + 16)))
  | .ci8 => some (palette entries)
  | _ => none

/-- The texels of a tile, gathered from memory. Rows that texture memory cannot hold are left out. -/
def gather? (scene : Scene) (tile : Tile) (format : TexelFormat) (load : TextureMemoryLoad) :
    Option TextureSource := do
  let rowBytes := format.rowBytes tile.width
  let rows ← fittingRows? tile rowBytes
  let stride := strideOf tile load rowBytes
  return {
    address := load.address
    sourceLength := UInt32.ofNat (min (spanLength stride rowBytes rows) (UInt32.size - 1))
    format
    width := UInt32.ofNat tile.width
    height := UInt32.ofNat rows
    palette := scene.paletteOf tile format
    bytes := gatherRows scene.ram load.address stride rowBytes rows }

/-- The command that gives a texture unit what a tile samples, unless the tile cannot be sampled or
nothing was loaded. -/
def textureCommand? (scene : Scene) (unit : UInt8) (index : TileIndex) : Option Command := do
  let tile := scene.registers.texture.tiles.get index
  let format ← tile.format?
  let load ← scene.registers.texture.loadFor? tile
  match scene.colorImageAt? load.address with
  | some image => return .captureColorBuffer (scene.captureOf unit tile image load.address)
  | none => return .loadTexture ⟨unit, ← scene.gather? tile format load⟩

end Scene

end DisplayPipeline
