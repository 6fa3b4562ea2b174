import DisplayPipeline.Numeric.Single
import DisplayPipeline.Numeric.Vector

/-!
# Visibility

Points are in homogeneous clip coordinates. What can be seen lies in the square `-w ≤ x ≤ w`,
`-w ≤ y ≤ w`; depth does not matter. A triangle is dropped if it cannot touch the square, or if the
geometry mode drops the side that it shows.
-/

namespace DisplayPipeline

/-- The sides of the clip volume that a point lies beyond. -/
structure Outcode where
  left : Bool
  right : Bool
  bottom : Bool
  top : Bool
  /-- The point is not in front of the eye. -/
  behind : Bool
deriving DecidableEq, Repr, Inhabited

namespace Outcode

def all : Outcode := ⟨true, true, true, true, true⟩

def ofPoint (p : Vec4) : Outcode :=
  { left := p.x < -p.w
    right := p.x > p.w
    bottom := p.y < -p.w
    top := p.y > p.w
    behind := p.w ≤ 0 }

/-- The sides that two points have in common. -/
def inter (a b : Outcode) : Outcode :=
  { left := a.left && b.left
    right := a.right && b.right
    bottom := a.bottom && b.bottom
    top := a.top && b.top
    behind := a.behind && b.behind }

def isEmpty (c : Outcode) : Bool := !(c.left || c.right || c.bottom || c.top || c.behind)

/-- The sides as bits of a number, from the lowest bit up. -/
def bits (c : Outcode) : Nat :=
  c.left.toNat + 2 * c.right.toNat + 4 * c.bottom.toNat + 8 * c.top.toNat + 16 * c.behind.toNat

end Outcode

/-- Whether all points lie beyond one side of the clip volume. -/
def triviallyRejected (points : List Vec4) : Bool :=
  !(points.foldl (fun shared p => shared.inter (.ofPoint p)) Outcode.all).isEmpty

/-- The modes of drawing geometry, as the console's bits. -/
structure GeometryMode where
  bits : UInt32
deriving DecidableEq, Repr, Inhabited

namespace GeometryMode

def cullFront : UInt32 := 0x200
def cullBack : UInt32 := 0x400
def fog : UInt32 := 0x10000
def lighting : UInt32 := 0x20000

def has (mode : GeometryMode) (bit : UInt32) : Bool := mode.bits &&& bit == bit

end GeometryMode

/-- The corners of a triangle in clip coordinates. -/
structure Triangle where
  a : Vec4
  b : Vec4
  c : Vec4
deriving DecidableEq, Repr, Inhabited

namespace Triangle

def toList (t : Triangle) : List Vec4 := [t.a, t.b, t.c]

/-- A point in coordinates in which the visible square goes from -1 to 1. -/
def project (p : Vec4) : Vec2 := ⟨p.x / p.w, p.y / p.w⟩

/-- The part of a segment, from 0 at its start to 1 at its end, that is not known to be outside. -/
structure Stretch where
  entry : Float32
  exit : Float32

/-- Cuts a stretch off where `slope * t > room`; none if nothing is left. -/
def Stretch.cut (slope room : Float32) (s : Stretch) : Option Stretch :=
  if slope == 0 then if room < 0 then none else some s
  else
    let t := room / slope
    let s : Stretch :=
      if slope < 0 then { s with entry := Single.greatest s.entry t }
      else { s with exit := Single.least s.exit t }
    if s.entry > s.exit then none else some s

/-- Whether the segment from `a` to `b` touches the square. -/
def segmentTouchesSquare (a b : Vec2) : Bool :=
  let dx := b.x - a.x
  let dy := b.y - a.y
  (((((Stretch.mk 0 1).cut (-dx) (a.x + 1)).bind (·.cut dx (1 - a.x))).bind
    (·.cut (-dy) (a.y + 1))).bind (·.cut dy (1 - a.y))).isSome

/-- Twice the area of a triangle, positive if its corners run counter-clockwise. -/
def signedArea (a b c : Vec2) : Float32 := (b.x - a.x) * (c.y - a.y) - (c.x - a.x) * (b.y - a.y)

/-- Whether the center of the square is on the same side of all three edges. -/
def containsCenter (a b c : Vec2) : Bool :=
  let center : Vec2 := ⟨0, 0⟩
  let sides := [signedArea a b center, signedArea b c center, signedArea c a center]
  !(sides.any (· < 0) && sides.any (· > 0))

/-- Whether a part of the triangle can land in the square. Unless all corners lie beyond one side,
a triangle with a corner behind the eye is kept, as its corners cannot be projected. -/
def isVisible (t : Triangle) : Bool :=
  let codes := t.toList.map Outcode.ofPoint
  let shared := ((Outcode.ofPoint t.a).inter (.ofPoint t.b)).inter (.ofPoint t.c)
  if !shared.isEmpty then false
  else if codes.any (·.behind) then true
  else if codes.any (·.isEmpty) then true
  else
    let a := project t.a
    let b := project t.b
    let c := project t.c
    segmentTouchesSquare a b || segmentTouchesSquare b c || segmentTouchesSquare c a ||
      containsCenter a b c

/-- Whether the mode drops the side that the triangle shows. A triangle with a corner that is not in
front of the eye is kept; one without an area shows neither side. -/
def isCulled (t : Triangle) (mode : GeometryMode) : Bool :=
  if !mode.has GeometryMode.cullFront && !mode.has GeometryMode.cullBack then false
  else if t.toList.any (·.w ≤ 0) then false
  else
    let area := signedArea (project t.a) (project t.b) (project t.c)
    if area == 0 then true
    else if area > 0 then mode.has GeometryMode.cullFront
    else mode.has GeometryMode.cullBack

end Triangle

end DisplayPipeline
