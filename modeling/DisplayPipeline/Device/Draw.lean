import DisplayPipeline.Combiner.Uniforms

namespace DisplayPipeline

/-- A vertex as the programs see it. -/
structure Vertex where
  /-- The position in clip space. -/
  position : Vec4
  color : Vec4
  /-- Texture coordinates, as fractions of the texture's size. -/
  u : Float32
  v : Float32
deriving DecidableEq, Repr, Inhabited

namespace Vertex

/-- A white vertex at a place on a screen of the given size, both in pixels. -/
def onScreen (width height x y u v : Float32) : Vertex :=
  ⟨⟨x / width * 2 - 1, 1 - y / height * 2, 0, 1⟩, .splat 1, u, v⟩

def toList (v : Vertex) : List Float32 := v.position.toList ++ v.color.toList ++ [v.u, v.v]

/-- The vertex with the given numbers; a missing one is zero. -/
def ofList (c : List Float32) : Vertex :=
  ⟨.ofList c, .ofList (c.drop 4), c.getD 8 0, c.getD 9 0⟩

end Vertex

/-- A fill in pixels of the target; `x1` and `y1` are exclusive. -/
structure FillRect where
  x0 : UInt16
  y0 : UInt16
  x1 : UInt16
  y1 : UInt16
  color : Color
deriving DecidableEq, Repr, Inhabited

/-- Names a texture of a device. Handles are counted without a bound; a counter of 32 bits gives the
same ones as long as fewer than 2^32 textures were made. -/
structure TextureHandle where
  id : Nat
deriving DecidableEq, Repr, Inhabited

/-- Names a program of a device, counted as textures are: as by a counter of 32 bits while fewer than
2^32 programs were made. -/
structure ProgramHandle where
  id : Nat
deriving DecidableEq, Repr, Inhabited

/-- One thing for each of the two texture units. -/
structure PerUnit (α : Type) where
  unit0 : α
  unit1 : α
deriving DecidableEq, Repr, Inhabited

namespace PerUnit

def both {α : Type} (a : α) : PerUnit α := ⟨a, a⟩

/-- What belongs to a unit; only the lowest bit of its number counts. -/
def get {α : Type} (p : PerUnit α) (unit : UInt8) : α :=
  if unit &&& 1 = 0 then p.unit0 else p.unit1

/-- Replaces what belongs to a unit; only the lowest bit of its number counts. -/
def set {α : Type} (p : PerUnit α) (unit : UInt8) (a : α) : PerUnit α :=
  if unit &&& 1 = 0 then { p with unit0 := a } else { p with unit1 := a }

def map {α β : Type} (f : α → β) (p : PerUnit α) : PerUnit β := ⟨f p.unit0, f p.unit1⟩

def toList {α : Type} (p : PerUnit α) : List α := [p.unit0, p.unit1]

end PerUnit

/-- One draw of a triangle list. -/
structure Draw where
  program : ProgramHandle
  textures : PerUnit (Option TextureHandle)
  uniforms : Combiner.Uniforms
  vertices : List Vertex
  depthCompare : Bool
deriving DecidableEq, Repr

end DisplayPipeline
