import DisplayPipeline.DisplayList.Image
import DisplayPipeline.Numeric.Single
import DisplayPipeline.Numeric.Vector
import DisplayPipeline.Texel.Format

/-!
# Tiles

A tile says how a part of texture memory is sampled. Coordinates are turned into fractions of the
sampled size, after the tile's shift.
-/

namespace DisplayPipeline

/-- How a tile is sampled along one axis. -/
structure TileAxis where
  /-- The clamp and mirror bits. -/
  wrap : Nat := 0
  /-- The binary logarithm of the texels before sampling starts anew; zero for no limit. -/
  mask : Nat := 0
  /-- Halvings of a coordinate up to ten; above that, doublings missing to sixteen. -/
  shift : Nat := 0
deriving DecidableEq, Repr, Inhabited

namespace TileAxis

/-- The texels that are sampled between two bounds in quarters of a texel. -/
def extent (axis : TileAxis) (low high : Nat) : Nat :=
  let size := (high - low) / 4 + 1
  if axis.mask = 0 then size else min size (1 <<< min axis.mask 10)

def shifted (axis : TileAxis) (texel : Float32) : Float32 :=
  if axis.shift = 0 then texel
  else if axis.shift ≤ 10 then texel / Single.ofNat (1 <<< axis.shift)
  else texel * Single.ofNat (1 <<< (16 - axis.shift))

def origin (low : Nat) : Float32 := Single.ofNat low / 4

/-- A coordinate as a fraction of what is sampled. -/
def normalize (axis : TileAxis) (low high : Nat) (texel : Float32) : Float32 :=
  (axis.shifted texel - origin low) / Single.ofNat (axis.extent low high)

end TileAxis

/-- What a tile is told about the texels in texture memory. -/
structure TileLayout where
  format : Nat := 0
  size : Nat := 0
  /-- The distance of rows, in units of eight bytes. -/
  line : Nat := 0
  /-- The first texel in texture memory, in units of eight bytes. -/
  start : Nat := 0
  /-- The bank of sixteen palette entries for four-bit indices. -/
  bank : Nat := 0
  s : TileAxis := {}
  t : TileAxis := {}
deriving DecidableEq, Repr, Inhabited

namespace TileLayout

def ofWords (w0 w1 : UInt32) : TileLayout :=
  { format := Word.fieldNat w0 21 3
    size := Word.fieldNat w0 19 2
    line := Word.fieldNat w0 9 9
    start := Word.fieldNat w0 0 9
    bank := Word.fieldNat w1 20 4
    s := ⟨Word.fieldNat w1 8 2, Word.fieldNat w1 4 4, Word.fieldNat w1 0 4⟩
    t := ⟨Word.fieldNat w1 18 2, Word.fieldNat w1 14 4, Word.fieldNat w1 10 4⟩ }

end TileLayout

abbrev TileIndex : Type := Fin 8

namespace TileIndex

/-- The index in the lowest three bits of a number. -/
def ofNat (n : Nat) : TileIndex := ⟨n % 8, Nat.mod_lt n (by decide)⟩

/-- The tile after a tile; the first one comes after the last. -/
def next (tile : TileIndex) : TileIndex := ofNat (tile.val + 1)

end TileIndex

/-- A tile. -/
structure Tile where
  layout : TileLayout := {}
  bounds : QuarterRect := {}
deriving DecidableEq, Repr, Inhabited

namespace Tile

/-- The format of the texels, if they can be sampled. -/
def format? (tile : Tile) : Option TexelFormat :=
  TexelFormat.ofTile? tile.layout.format tile.layout.size

def width (tile : Tile) : Nat := tile.layout.s.extent tile.bounds.left tile.bounds.right

def height (tile : Tile) : Nat := tile.layout.t.extent tile.bounds.top tile.bounds.bottom

def origin (tile : Tile) : Vec2 := ⟨TileAxis.origin tile.bounds.left, TileAxis.origin tile.bounds.top⟩

/-- Coordinates in texels as fractions of the tile. -/
def normalize (tile : Tile) (texel : Vec2) : Vec2 :=
  { x := tile.layout.s.normalize tile.bounds.left tile.bounds.right texel.x
    y := tile.layout.t.normalize tile.bounds.top tile.bounds.bottom texel.y }

/-- The distance of rows in texture memory in bytes; 32-bit texels are held in two halves. -/
def lineBytes (tile : Tile) : Nat := tile.layout.line * (if tile.layout.size = 3 then 16 else 8)

end Tile

end DisplayPipeline
