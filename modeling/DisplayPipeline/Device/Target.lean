import DisplayPipeline.Device.Draw
import DisplayPipeline.Numeric.Half
import DisplayPipeline.Numeric.Unorm
import DisplayPipeline.Texel.Packing

/-!
# Render targets

The pixels that fills write into, and copies of them. A copy has the target's own channel format
and rows that start at multiples of 256 bytes; `Readback.rgba?` brings it back to canonical bytes.
-/

namespace DisplayPipeline

/-- How a target stores a channel. -/
inductive TargetFormat where
  | rgba8
  | rgba16f
  | rgba32f
deriving DecidableEq, Repr, Inhabited

namespace TargetFormat

def channelBytes : TargetFormat → Nat
  | rgba8 => 1
  | rgba16f => 2
  | rgba32f => 4

def pixelBytes (format : TargetFormat) : Nat := 4 * format.channelBytes

def isFloat : TargetFormat → Bool
  | rgba8 => false
  | _ => true

def store (format : TargetFormat) (v : UInt8) : List UInt8 :=
  match format with
  | rgba8 => [v]
  | rgba16f => Word.le16 (Half.ofSingle (Single.ofByte v))
  | rgba32f => Word.le32 (Single.ofByte v).toBits

def storePixel (format : TargetFormat) (c : Color) : List UInt8 := c.bytes.flatMap format.store

private def loadHalves : List UInt8 → List UInt8
  | lo :: hi :: rest => Unorm.toByte (Half.toSingle (Word.join16 hi lo)) :: loadHalves rest
  | _ => []

private def loadSingles : List UInt8 → List UInt8
  | a :: b :: c :: d :: rest =>
    Unorm.toByte (Float32.ofBits (Word.join32 d c b a)) :: loadSingles rest
  | _ => []

/-- The canonical channels of a run of stored ones. -/
def load (format : TargetFormat) (stored : List UInt8) : List UInt8 :=
  match format with
  | rgba8 => stored
  | rgba16f => loadHalves stored
  | rgba32f => loadSingles stored

/-- A channel after it was stored and loaded again. -/
def shown (format : TargetFormat) (v : UInt8) : UInt8 := (format.load (format.store v)).headD v

/-- Channels are loaded one by one. -/
theorem load_store_append (format : TargetFormat) (v : UInt8) (rest : List UInt8) :
    format.load (format.store v ++ rest) = format.shown v :: format.load rest := by
  cases format <;> rfl

def shownBytes (format : TargetFormat) : Vector UInt8 256 := .ofFn fun v => format.shown (.ofFin v)

end TargetFormat

/-- A copy of a part of a target as the device stores it. -/
structure Readback where
  format : TargetFormat
  width : Nat
  height : Nat
  /-- The distance in bytes between the starts of two rows. -/
  stride : Nat
  data : List UInt8
deriving DecidableEq, Repr

namespace Readback

/-- The bytes of a row without what lies between rows. -/
def rowBytes (r : Readback) : Nat := r.width * r.format.pixelBytes

def needed (r : Readback) : Nat := if r.height = 0 then 0 else r.stride * (r.height - 1) + r.rowBytes

private def stridedRows (stride size : Nat) : Nat → List UInt8 → List (List UInt8)
  | 0, _ => []
  | n + 1, data => data.take size :: stridedRows stride size n (data.drop stride)

/-- The canonical bytes of all rows, if the copy holds them. -/
def rgba? (r : Readback) : Option (List UInt8) :=
  if r.stride < r.rowBytes ∨ r.data.length < r.needed then none
  else if r.rowBytes = 0 then some []
  else some ((stridedRows r.stride r.rowBytes r.height r.data).flatMap r.format.load)

private theorem stridedRows_eq {stride size : Nat} (h : size ≤ stride) (n : Nat)
    (data : List UInt8) :
    stridedRows stride size n data = (TexelDepth.runs stride n data).map (·.take size) := by
  induction n generalizing data with
  | zero => rfl
  | succ n ih =>
    rw [stridedRows, TexelDepth.runs, List.map_cons, List.take_take, Nat.min_eq_left h, ih]

/-- The rows of a copy that holds them start at multiples of its stride. -/
theorem rgba?_eq {r : Readback} (hstride : r.rowBytes ≤ r.stride)
    (hdata : r.needed ≤ r.data.length) :
    r.rgba? = some ((TexelDepth.runs r.stride r.height r.data).flatMap fun row =>
      r.format.load (row.take r.rowBytes)) := by
  rw [rgba?, if_neg (by omega)]
  by_cases hrow : r.rowBytes = 0
  · have hempty : r.format.load [] = [] := by cases r.format <;> rfl
    simp [hrow, hempty]
  · rw [if_neg hrow, stridedRows_eq hstride, List.flatMap_map]

end Readback

/-- A finished picture in canonical pixels. -/
structure Frame where
  width : Nat
  height : Nat
  pixels : Array Color
deriving DecidableEq, Repr

namespace Frame

def stride (f : Frame) : Nat := f.width * 4

/-- The pixels as runs of equal neighbours with their lengths. A run may cross the end of a row. -/
def runs (f : Frame) : List (Nat × Color) :=
  f.pixels.foldr (fun c runs =>
    match runs with
    | [] => [(1, c)]
    | (count, d) :: rest => if c = d then (count + 1, d) :: rest else (1, c) :: runs) []

end Frame

/-- The target of fills: rows of pixels, from the top down. -/
structure RenderTarget where
  format : TargetFormat
  width : Nat
  height : Nat
  pixels : Array Color
deriving DecidableEq, Repr

namespace RenderTarget

def blank (format : TargetFormat) (width height : Nat) : RenderTarget :=
  ⟨format, width, height, Array.replicate (width * height) .transparent⟩

def pixel (t : RenderTarget) (x y : Nat) : Color := t.pixels.getD (y * t.width + x) .transparent

def paintRun (c : Color) (index count : Nat) (pixels : Array Color) : Array Color :=
  match count with
  | 0 => pixels
  | n + 1 => paintRun c (index + 1) n (pixels.setIfInBounds index c)

/-- Colors runs of `count` pixels in `rows` rows, the first one from an index on. -/
def paintRows (c : Color) (width index count rows : Nat) (pixels : Array Color) : Array Color :=
  match rows with
  | 0 => pixels
  | n + 1 => paintRows c width (index + width) count n (paintRun c index count pixels)

/-- Colors the pixels of a rectangle, as far as they are inside the target. -/
def fill (t : RenderTarget) (r : FillRect) : RenderTarget :=
  let x0 := r.x0.toNat
  let y0 := r.y0.toNat
  let x1 := min r.x1.toNat t.width
  let y1 := min r.y1.toNat t.height
  match t with
  | ⟨format, width, height, pixels⟩ =>
    ⟨format, width, height, paintRows r.color width (y0 * width + x0) (x1 - x0) (y1 - y0) pixels⟩

/-- The distance between the rows of a copy: whole units of 256 bytes, at least one. -/
def copyStride (t : RenderTarget) (width : Nat) : Nat :=
  max ((width * t.format.pixelBytes + 255) / 256) 1 * 256

/-- One row of a copy, filled up with zero bytes. -/
def copyRow (t : RenderTarget) (x y width : Nat) : List UInt8 :=
  let row := (List.range width).flatMap fun i => t.format.storePixel (t.pixel (x + i) y)
  row ++ List.replicate (t.copyStride width - row.length) 0

/-- A copy of a region, if it lies inside the target. -/
def copy? (t : RenderTarget) (x y width height : Nat) : Option Readback :=
  if x + width ≤ t.width ∧ y + height ≤ t.height then
    some
      { format := t.format
        width
        height
        stride := t.copyStride width
        data := (List.range height).flatMap fun i => t.copyRow x (y + i) width }
  else none

def frame (t : RenderTarget) : Frame :=
  let pixels :=
    match t.format with
    | .rgba8 => t.pixels
    | format =>
      let table := format.shownBytes
      let shown (v : UInt8) := table.get v.toFin
      t.pixels.map fun c => ⟨shown c.red, shown c.green, shown c.blue, shown c.alpha⟩
  ⟨t.width, t.height, pixels⟩

end RenderTarget

end DisplayPipeline
