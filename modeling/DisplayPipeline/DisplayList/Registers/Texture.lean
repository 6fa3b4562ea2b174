import DisplayPipeline.Console.Ram
import DisplayPipeline.DisplayList.Tile

/-!
# Texture registers

The texture image, the tiles, what was loaded into texture memory and the palette. Texture memory
itself is not kept: a load is remembered as the place in memory that it read.
-/

namespace DisplayPipeline

/-- How triangles are textured. -/
structure TextureUse where
  on : Bool := false
  tile : TileIndex := .ofNat 0
  /-- What texture coordinates of vertices are multiplied by. -/
  scale : Vec2 := ⟨1, 1⟩
deriving DecidableEq, Repr, Inhabited

/-- A load into texture memory. -/
structure TextureMemoryLoad where
  /-- Where in texture memory, in units of eight bytes. -/
  start : Nat
  /-- The address of the first texel loaded. -/
  address : UInt32
  /-- The distance of rows in memory. A block has no rows of its own: the tile decides. -/
  stride : Option Nat
deriving DecidableEq, Repr

/-- The texture registers. -/
structure TextureRegisters where
  use : TextureUse := {}
  image : Image := {}
  tiles : Vector Tile 8 := .replicate 8 {}
  /-- The latest load to each place in texture memory, the most recent first. -/
  loads : List TextureMemoryLoad := []
  palette : Vector UInt16 256 := .replicate 256 0
deriving DecidableEq, Repr

/-- A change of the texture registers. Addresses are segmented. -/
inductive TextureChange where
  | use (use : TextureUse)
  | image (image : Image)
  | layout (tile : TileIndex) (layout : TileLayout)
  | bounds (tile : TileIndex) (bounds : QuarterRect)
  /-- Loads texels without a row structure, from a column and row of the image on. -/
  | loadBlock (tile : TileIndex) (column row : Nat)
  | loadTile (tile : TileIndex) (bounds : QuarterRect)
  /-- Loads palette entries from a column of the image on. -/
  | loadPalette (tile : TileIndex) (column count : Nat)
deriving DecidableEq, Repr

namespace TextureRegisters

def setTile (t : TextureRegisters) (tile : TileIndex) (value : Tile) : TextureRegisters :=
  { t with tiles := t.tiles.set tile value }

def setBounds (t : TextureRegisters) (tile : TileIndex) (bounds : QuarterRect) : TextureRegisters :=
  t.setTile tile { t.tiles.get tile with bounds }

/-- Remembers a load, in place of an earlier one to the same place. -/
def recordLoad (t : TextureRegisters) (load : TextureMemoryLoad) : TextureRegisters :=
  { t with loads := load :: t.loads.filter fun other => other.start ≠ load.start }

/-- Loads the part of the image within bounds that become those of the tile. -/
def loadTile (t : TextureRegisters) (tile : TileIndex) (bounds : QuarterRect) : TextureRegisters :=
  (t.setBounds tile bounds).recordLoad
    { start := (t.tiles.get tile).layout.start
      address := t.image.texelAddress (bounds.left / 4) (bounds.top / 4)
      stride := some t.image.rowBytes }

def loadBlock (t : TextureRegisters) (tile : TileIndex) (column row : Nat) : TextureRegisters :=
  t.recordLoad
    { start := (t.tiles.get tile).layout.start
      address := t.image.texelAddress column row
      stride := none }

/-- The place in texture memory of the first palette entry. -/
def paletteStart : Nat := 256

/-- Loads palette entries to the place of a tile. What does not fit is left out. -/
def loadPalette (t : TextureRegisters) (ram : Ram) (tile : TileIndex) (column count : Nat) :
    TextureRegisters :=
  let first := (t.tiles.get tile).layout.start - paletteStart
  let source := t.image.address + UInt32.ofNat (column * 2)
  { t with palette :=
      (List.range (min count (256 - first))).foldl (fun palette i =>
        palette.setIfInBounds (first + i) (ram.read16 (source + UInt32.ofNat (i * 2)))) t.palette }

def apply (t : TextureRegisters) (ram : Ram) (segments : Segments) :
    TextureChange → TextureRegisters
  | .use use => { t with use }
  | .image image => { t with image := image.locate segments }
  | .layout tile layout => t.setTile tile { t.tiles.get tile with layout }
  | .bounds tile bounds => t.setBounds tile bounds
  | .loadBlock tile column row => t.loadBlock tile column row
  | .loadTile tile bounds => t.loadTile tile bounds
  | .loadPalette tile column count => t.loadPalette ram tile column count

/-- The load whose texels a tile samples: the one to the tile's place, or else the most recent. -/
def loadFor? (t : TextureRegisters) (tile : Tile) : Option TextureMemoryLoad :=
  (t.loads.find? fun load => load.start = tile.layout.start).or t.loads.head?

end TextureRegisters

end DisplayPipeline
