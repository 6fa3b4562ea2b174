import DisplayPipeline.Device.Basic
import DisplayPipeline.Texel.Encode

/-!
# Color buffer reads

Pixels of the render target as console bytes. A deferred read answers with the copy that the deferred
read before it took of the same region, and takes a new copy for the next one.
-/

namespace DisplayPipeline

/-- A region of the target in pixels. -/
structure Region where
  x0 : UInt32
  y0 : UInt32
  width : UInt32
  height : UInt32
deriving DecidableEq, Repr, Inhabited

/-- What is to be read. -/
structure ColorRead where
  region : Region
  /-- The bits of a pixel: 16 for five bits each and one for alpha, 32 for canonical pixels. -/
  bitDepth : UInt8
  /-- Whether the pixels are those of this moment. -/
  synchronous : Bool
deriving DecidableEq, Repr, Inhabited

/-- A copy that waits for the next deferred read. -/
structure PendingCopy where
  region : Region
  copy : Readback
deriving DecidableEq, Repr

/-- Reads pixels back, with at most one copy waiting. -/
structure ColorReader where
  /-- How pixels are narrowed to 16 bits. -/
  narrowing : Narrowing
  pending : Option PendingCopy := none
deriving Repr

namespace ColorReader

def copyNow (d : Device) (r : Region) : Option Readback :=
  d.readPixels r.x0.toNat r.y0.toNat r.width.toNat r.height.toNat

def convert (narrowing : Narrowing) (bitDepth : UInt8) (copy : Readback) : Option (List UInt8) := do
  let rgba ← copy.rgba?
  match bitDepth with
  | 32 => some rgba
  | 16 => (TexelFormat.rgba5551.encode copy.width copy.height rgba narrowing).toOption
  | _ => none

def take (c : ColorReader) (d : Device) (read : ColorRead) : ColorReader × Option Readback :=
  if read.synchronous then (c, copyNow d read.region)
  else
    let answer := (c.pending.filter fun p => p.region = read.region).map (·.copy)
    ({ c with pending := (copyNow d read.region).map (⟨read.region, ·⟩) }, answer)

/-- The bytes that answer a read; none if there is nothing to show. -/
def read (c : ColorReader) (d : Device) (read : ColorRead) : ColorReader × Option (List UInt8) :=
  let (c, copy) := c.take d read
  (c, copy.bind (convert c.narrowing read.bitDepth))

end ColorReader

end DisplayPipeline
