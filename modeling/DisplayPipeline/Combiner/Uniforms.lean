import DisplayPipeline.Numeric.Vector
import DisplayPipeline.Numeric.Single
import DisplayPipeline.Texel.Color

namespace DisplayPipeline.Combiner

/-- The constant colors as the console holds them, red in the most significant byte. -/
structure ConstantColors where
  prim : UInt32 := 0
  env : UInt32 := 0
  fog : UInt32 := 0
  blend : UInt32 := 0
  /-- The fill word, whose layout depends on the color image. -/
  fill : UInt32 := 0
  keyCenter : UInt32 := 0
  keyScale : UInt32 := 0
  /-- The conversion constants `k4` and `k5`, in two's complement. -/
  k4 : UInt16 := 0
  k5 : UInt16 := 0
  primLodFraction : UInt8 := 0
  primMinLevel : UInt8 := 0
deriving DecidableEq, Repr, Inhabited

/-- The uniform block of a program. -/
structure Uniforms where
  primColor : Vec4
  envColor : Vec4
  fogColor : Vec4
  blendColor : Vec4
  keyCenter : Vec4
  keyScale : Vec4
  /-- Primitive level of detail fraction, `k4`, `k5` and the alpha threshold. -/
  params : Vec4
deriving DecidableEq, Repr, Inhabited

namespace Uniforms

def zero : Uniforms :=
  let z := Vec4.splat 0
  ⟨z, z, z, z, z, z, z⟩

def size : Nat := 112

def toList (u : Uniforms) : List Float32 :=
  u.primColor.toList ++ u.envColor.toList ++ u.fogColor.toList ++ u.blendColor.toList ++
    u.keyCenter.toList ++ u.keyScale.toList ++ u.params.toList

/-- The channels of a color word as fractions of one. -/
def unitColor (word : UInt32) : Vec4 :=
  let c := Color.ofWord word
  ⟨Single.ofByte c.red, Single.ofByte c.green, Single.ofByte c.blue, Single.ofByte c.alpha⟩

/-- The block of the constant colors. The alpha threshold is the alpha of the blend color. -/
def ofColors (c : ConstantColors) : Uniforms :=
  { primColor := unitColor c.prim
    envColor := unitColor c.env
    fogColor := unitColor c.fog
    blendColor := unitColor c.blend
    keyCenter := unitColor c.keyCenter
    keyScale := unitColor c.keyScale
    params :=
      { x := Single.ofByte c.primLodFraction
        y := Single.ofInt (Word.signed16 c.k4) / 255
        z := Single.ofInt (Word.signed16 c.k5) / 255
        w := Single.ofByte c.blend.toUInt8 } }

end Uniforms

/-- A field of the uniform block as a program sees it. -/
structure UniformField where
  name : String
  offset : Nat
  size : Nat
deriving DecidableEq, Repr

/-- What a device needs to know to bind the inputs of a program. -/
structure UniformLayout where
  fields : List UniformField
  size : Nat
  /-- The number of textures that are bound. -/
  textureBindings : Nat
deriving DecidableEq, Repr

namespace UniformLayout

/-- The names of the fields of the block, in order. -/
def fieldNames : List String :=
  ["prim_color", "env_color", "fog_color", "blend_color", "key_center", "key_scale", "params"]

def ofProgram (textured : Bool) : UniformLayout :=
  { fields := fieldNames.zipIdx.map fun (name, i) => ⟨name, 16 * i, 16⟩
    size := Uniforms.size
    textureBindings := if textured then 2 else 0 }

end UniformLayout

end DisplayPipeline.Combiner
