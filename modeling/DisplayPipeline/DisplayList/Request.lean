import DisplayPipeline.DisplayList.Instruction
import DisplayPipeline.DisplayList.TextureFetch

/-!
# Requests of instructions

What an instruction asks of the delivery to the renderer. It depends on the console alone, never on
what the renderer accepted.
-/

namespace DisplayPipeline

/-- The kinds of things that are drawn together. -/
inductive Shape where
  | triangles
  | rects
  | fills
deriving DecidableEq, Repr, Inhabited

/-- What a batch is opened for. -/
structure BatchKey where
  shape : Shape
  textured : Bool
  tile : TileIndex
  /-- Whether texels are copied rather than combined. -/
  copied : Bool
deriving DecidableEq, Repr, Inhabited

/-- Something that is drawn. -/
inductive Primitive where
  | triangle (a b c : Vertex)
  /-- A rectangle given by its corners. -/
  | corners (topLeft topRight bottomLeft bottomRight : Vertex)
  | rect (rect : TexturedRect)
  | fill (fill : FillRect)
deriving DecidableEq, Repr

/-- What an instruction asks for. -/
inductive Request where
  /-- Close the batch, as registers are about to change. -/
  | close
  /-- Close the batch and report writes to memory, as texture registers are about to change. -/
  | retexture
  /-- Count a triangle that is not drawn. -/
  | drop
  | draw (key : BatchKey) (primitive : Primitive)
deriving DecidableEq, Repr

namespace Scene

def vertexOf (scene : Scene) (v : LoadedVertex) : Vertex :=
  let texture := scene.registers.texture
  let uv := (texture.tiles.get texture.use.tile).normalize v.texel
  { position := scene.registers.geometry.viewport.toScreen v.clip scene.settings.screen
    color :=
      ⟨Single.ofByte v.color.red, Single.ofByte v.color.green, Single.ofByte v.color.blue,
        Single.ofByte v.color.alpha⟩
    u := uv.x
    v := uv.y }

def triangleKey (scene : Scene) : BatchKey :=
  let use := scene.registers.texture.use
  ⟨.triangles, use.on, use.tile, false⟩

/-- The loaded vertices at three positions, if the buffer has them. -/
def corners? (scene : Scene) (corners : Corners) :
    Option (LoadedVertex × LoadedVertex × LoadedVertex) := do
  let vertices := scene.registers.geometry.vertices
  return (← vertices[corners.a]?, ← vertices[corners.b]?, ← vertices[corners.c]?)

def triangleRequest (scene : Scene) (corners : Corners) : Request :=
  match scene.corners? corners with
  | none => .drop
  | some (a, b, c) =>
    let triangle : Triangle := ⟨a.clip, b.clip, c.clip⟩
    if !triangle.isVisible || triangle.isCulled scene.registers.render.geometryMode then .drop
    else
      .draw scene.triangleKey
        (.triangle (scene.vertexOf a) (scene.vertexOf b) (scene.vertexOf c))

/-- A pixel coordinate of a fill; it saturates. -/
def fillCoordinate (n : Nat) : UInt16 := UInt16.ofNat (min n 65535)

/-- Fills the part of a rectangle within the scissor. -/
def fillRequests (scene : Scene) (bounds : QuarterRect) : List Request :=
  let render := scene.registers.render
  let scissor := render.scissor
  let edge := if render.modes.cycleType.isInclusive then 1 else 0
  let x0 := max (bounds.left / 4) (scissor.left / 4)
  let y0 := max (bounds.top / 4) (scissor.top / 4)
  let x1 := min (bounds.right / 4 + edge) (scissor.right / 4)
  let y1 := min (bounds.bottom / 4 + edge) (scissor.bottom / 4)
  if x0 ≥ x1 ∨ y0 ≥ y1 then []
  else
    [.draw ⟨.fills, false, .ofNat 0, false⟩
      (.fill
        { x0 := fillCoordinate x0
          y0 := fillCoordinate y0
          x1 := fillCoordinate x1
          y1 := fillCoordinate y1
          color := render.rectColor })]

/-- A number of texels per pixel, held in 1024ths. -/
def stepOf (half : UInt16) : Float32 := Single.ofInt (Word.signed16 half) / 1024

/-- Draws a rectangle with a texture. Copying takes four texels a pixel across. -/
def rectRequests (scene : Scene) (rect : RectRequest) : List Request :=
  let cycle := scene.registers.render.modes.cycleType
  let copied := cycle = .copy
  let edge : Float32 := if cycle.isInclusive then 1 else 0
  let quarters (n : Nat) := Single.ofNat n / 4
  let x0 := quarters rect.bounds.left
  let y0 := quarters rect.bounds.top
  let x1 := quarters rect.bounds.right + edge
  let y1 := quarters rect.bounds.bottom + edge
  if x1 ≤ x0 ∨ y1 ≤ y0 then []
  else
    let s := GeometryRegisters.texelOf (Word.upper rect.start)
    let t := GeometryRegisters.texelOf (Word.lower rect.start)
    let across := stepOf (Word.upper rect.step)
    let across := if copied then across / 4 else across
    let down := stepOf (Word.lower rect.step)
    let width := x1 - x0
    let height := y1 - y0
    let tile := scene.registers.texture.tiles.get rect.tile
    if rect.flipped then
      let s1 := s + height * across
      let t1 := t + width * down
      let corner (x y : Float32) (texel : Vec2) : Vertex :=
        let uv := tile.normalize texel
        .onScreen scene.settings.screen.x scene.settings.screen.y x y uv.x uv.y
      [.draw ⟨.triangles, true, rect.tile, copied⟩
        (.corners (corner x0 y0 ⟨s, t⟩) (corner x1 y0 ⟨s, t1⟩) (corner x0 y1 ⟨s1, t⟩)
          (corner x1 y1 ⟨s1, t1⟩))]
    else
      let first := tile.normalize ⟨s, t⟩
      let last := tile.normalize ⟨s + width * across, t + height * down⟩
      [.draw ⟨.rects, true, rect.tile, copied⟩
        (.rect ⟨x0, y0, x1, y1, first.x, first.y, last.x, last.y⟩)]

def requests (scene : Scene) : Instruction → List Request
  | .nothing | .unknown _ | .flow _ | .geometry _ => []
  | .render _ => [.close]
  | .texture _ => [.retexture]
  | .triangle corners => [scene.triangleRequest corners]
  | .twoTriangles first second => [scene.triangleRequest first, scene.triangleRequest second]
  | .fillRect bounds => scene.fillRequests bounds
  | .texturedRect rect => scene.rectRequests rect

/-- The combiner program that a batch needs. Copying bypasses the combiner, which has the same
result as taking the texture's color and alpha as they are. -/
def combinerFor (scene : Scene) (key : BatchKey) : UInt64 × Combiner.Flags :=
  if key.copied then (0x00FFFFFFFFFCF279, ⟨Combiner.Flags.texturePresent⟩)
  else (scene.registers.render.mux, scene.registers.render.combinerFlags key.textured)

end Scene

end DisplayPipeline
