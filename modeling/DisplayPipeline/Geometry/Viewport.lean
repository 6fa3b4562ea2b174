import DisplayPipeline.Console.Ram
import DisplayPipeline.Numeric.Single
import DisplayPipeline.Numeric.Vector

/-!
# Viewports

A viewport maps clip space to screen pixels, `y` pointing down. Positions are handed on relative to
the whole screen, so that whoever draws them needs no viewport.
-/

namespace DisplayPipeline

/-- A part of the screen: `pixel = projected * scale + offset`. -/
structure Viewport where
  scale : Vec2
  offset : Vec2
deriving DecidableEq, Repr, Inhabited

namespace Viewport

def full (width height : Nat) : Viewport :=
  let half : Vec2 := ⟨Single.ofNat width / 2, Single.ofNat height / 2⟩
  ⟨half, half⟩

/-- The viewport at an address: scales, then offsets, in quarters of a pixel. -/
def load (ram : Ram) (address : UInt32) : Viewport :=
  let quarters (offset : UInt32) := Single.ofInt (ram.readSigned (address + offset)) / 4
  ⟨⟨quarters 0, quarters 2⟩, ⟨quarters 8, quarters 10⟩⟩

/-- A position in the clip space of the viewport, in that of the whole screen. -/
def toScreen (v : Viewport) (p : Vec4) (screen : Vec2) : Vec4 :=
  let half : Vec2 := ⟨screen.x / 2, screen.y / 2⟩
  { x := p.x * v.scale.x / half.x + p.w * (v.offset.x / half.x - 1)
    y := p.y * v.scale.y / half.y - p.w * (v.offset.y / half.y - 1)
    z := p.z
    w := p.w }

end Viewport

end DisplayPipeline
