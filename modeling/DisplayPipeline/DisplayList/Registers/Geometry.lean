import DisplayPipeline.Geometry.Lighting
import DisplayPipeline.Geometry.Matrices
import DisplayPipeline.Geometry.Viewport
import DisplayPipeline.Console.Segments

/-!
# Geometry registers

Segments, matrices, viewport, lights and loaded vertices. Nothing here is known to the renderer:
changes take effect with the vertices of later draws.
-/

namespace DisplayPipeline

/-- A vertex after its transformation. -/
structure LoadedVertex where
  /-- The position in the clip space of the viewport. -/
  clip : Vec4 := .splat 0
  color : Color := .transparent
  /-- Texture coordinates in texels. -/
  texel : Vec2 := ⟨0, 0⟩
deriving DecidableEq, Repr, Inhabited

/-- The geometry registers. -/
structure GeometryRegisters where
  segments : Segments := {}
  matrices : Matrices := {}
  viewport : Viewport
  lights : Lights := .off
  vertices : Vector LoadedVertex 32 := .replicate 32 {}
  /-- The word held for the next depth branch. -/
  heldWord : UInt32 := 0
deriving DecidableEq, Repr

/-- A change of the geometry registers. Addresses are segmented. -/
inductive GeometryChange where
  | loadVertices (first count : Nat) (address : UInt32)
  | vertexColor (index : Nat) (color : Color)
  /-- Texture coordinates in 32nds of a texel, in the halves of a word. -/
  | vertexTexel (index : Nat) (word : UInt32)
  | applyMatrix (use : MatrixUse) (address : UInt32)
  | popMatrices (count : Nat)
  | segment (index : Nat) (base : UInt32)
  | lightCount (count : Nat)
  | lightColor (slot : Nat) (word : UInt32)
  | light (slot : Nat) (address : UInt32)
  | viewport (address : UInt32)
  | holdWord (word : UInt32)
deriving DecidableEq, Repr

/-- How vertices are loaded. -/
structure VertexSetup where
  /-- What texture coordinates are multiplied by. -/
  texelScale : Vec2
  /-- Whether a vertex has a normal in place of a color. -/
  lit : Bool
deriving DecidableEq, Repr

namespace GeometryRegisters

def vertexStride : Nat := 16

/-- A texture coordinate in 32nds of a texel as a number of texels. -/
def texelOf (half : UInt16) : Float32 := Single.ofInt (Word.signed16 half) / 32

def vertexAt (g : GeometryRegisters) (ram : Ram) (setup : VertexSetup) (address : UInt32) :
    LoadedVertex :=
  let coordinate (offset : UInt32) := Single.ofInt (ram.readSigned (address + offset))
  let color := Color.ofWord (ram.read32 (address + 12))
  { clip := g.matrices.combined |> Mat4.transform ⟨coordinate 0, coordinate 2, coordinate 4, 1⟩
    color :=
      if setup.lit then
        g.lights.shade (Light.vectorOfBytes color.red color.green color.blue) g.matrices.modelview
          color.alpha
      else color
    texel :=
      { x := texelOf (ram.read16 (address + 8)) * setup.texelScale.x
        y := texelOf (ram.read16 (address + 10)) * setup.texelScale.y } }

/-- Loads vertices from memory. What does not fit into the buffer is left out. -/
def loadVertices (g : GeometryRegisters) (ram : Ram) (setup : VertexSetup) (first count : Nat)
    (address : UInt32) : GeometryRegisters :=
  let base := g.segments.resolve address
  { g with vertices :=
      (List.range (min count (32 - first))).foldl (fun vertices i =>
        vertices.setIfInBounds (first + i)
          (g.vertexAt ram setup (base + UInt32.ofNat (i * vertexStride)))) g.vertices }

/-- Changes one loaded vertex. There is none past the buffer. -/
def modifyVertex (g : GeometryRegisters) (index : Nat) (f : LoadedVertex → LoadedVertex) :
    GeometryRegisters :=
  match g.vertices[index]? with
  | none => g
  | some vertex => { g with vertices := g.vertices.setIfInBounds index (f vertex) }

def apply (g : GeometryRegisters) (ram : Ram) (setup : VertexSetup) :
    GeometryChange → GeometryRegisters
  | .loadVertices first count address => g.loadVertices ram setup first count address
  | .vertexColor index color => g.modifyVertex index ({ · with color })
  | .vertexTexel index word =>
    g.modifyVertex index ({ · with texel := ⟨texelOf (Word.upper word), texelOf (Word.lower word)⟩ })
  | .applyMatrix use address =>
    { g with matrices := g.matrices.apply (.load ram (g.segments.resolve address)) use }
  | .popMatrices count => { g with matrices := g.matrices.pop count }
  | .segment index base => { g with segments := g.segments.set index base }
  | .lightCount count => { g with lights := g.lights.setCount count }
  | .lightColor slot word => { g with lights := g.lights.setColor slot word }
  | .light slot address =>
    { g with lights := g.lights.set slot (.load ram (g.segments.resolve address)) }
  | .viewport address => { g with viewport := .load ram (g.segments.resolve address) }
  | .holdWord word => { g with heldWord := word }

end GeometryRegisters

end DisplayPipeline
