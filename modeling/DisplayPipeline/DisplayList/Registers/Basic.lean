import DisplayPipeline.DisplayList.Registers.Geometry
import DisplayPipeline.DisplayList.Registers.Render
import DisplayPipeline.DisplayList.Registers.Texture

namespace DisplayPipeline

/-- How display lists are processed. -/
structure ListSettings where
  /-- The most calls of a list within a list. -/
  maxDepth : Nat := 18
  /-- The most instructions of one run. -/
  budget : Nat := 1000000
  /-- The size of the console's screen in pixels. -/
  screenWidth : UInt32 := 320
  screenHeight : UInt32 := 240
  /-- Whether pixels of the color image are read at the moment they are asked for. -/
  synchronousReads : Bool := true
deriving DecidableEq, Repr

namespace ListSettings

/-- The size of the screen, at least one pixel each way. -/
def screen (s : ListSettings) : Vec2 :=
  ⟨Single.ofNat (max s.screenWidth 1).toNat, Single.ofNat (max s.screenHeight 1).toNat⟩

end ListSettings

/-- The registers of the console. -/
structure Registers where
  geometry : GeometryRegisters
  render : RenderRegisters
  texture : TextureRegisters := {}
deriving DecidableEq, Repr

namespace Registers

/-- The registers before the first display list. -/
def initial (settings : ListSettings) : Registers :=
  let width := max settings.screenWidth 1
  let height := max settings.screenHeight 1
  { geometry := { viewport := .full width.toNat height.toNat }
    render :=
      { scissor := { right := (width <<< 2).toNat, bottom := (height <<< 2).toNat } } }

def vertexSetup (r : Registers) : VertexSetup :=
  { texelScale := r.texture.use.scale
    lit := r.render.geometryMode.has GeometryMode.lighting }

def applyGeometry (r : Registers) (ram : Ram) (change : GeometryChange) : Registers :=
  { r with geometry := r.geometry.apply ram r.vertexSetup change }

def applyRender (r : Registers) (change : RenderChange) : Registers :=
  { r with render := r.render.apply r.geometry.segments change }

def applyTexture (r : Registers) (ram : Ram) (change : TextureChange) : Registers :=
  { r with texture := r.texture.apply ram r.geometry.segments change }

end Registers

end DisplayPipeline
