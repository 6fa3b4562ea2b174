import DisplayPipeline.Texel.Decode
import DisplayPipeline.Texel.Diffusion

/-!
# Colors to texels

Encoding of canonical pixels. Each format projects a color onto a few channels, narrows them, and
joins them to a texel, the first channel in the most significant bits.
-/

namespace DisplayPipeline

/-- How a channel is narrowed: each pixel for itself, or with the loss spread to its neighbours. -/
inductive Narrowing where
  | nearest
  | diffused
deriving DecidableEq, Repr, Inhabited

/-- What a channel of a texel is taken from. -/
inductive ChannelSource where
  | red
  | green
  | blue
  | alpha
  | intensity
deriving DecidableEq, Repr

namespace ChannelSource

/-- The eight-bit value of the source in a color. -/
def value (c : Color) : ChannelSource → UInt8
  | red => c.red
  | green => c.green
  | blue => c.blue
  | alpha => c.alpha
  | intensity => c.intensity

end ChannelSource

/-- One channel of a texel. -/
structure TexelChannel where
  source : ChannelSource
  bits : Nat
deriving DecidableEq, Repr

namespace TexelFormat

/-- The channels of a texel, most significant first. Indexed formats have none. -/
def channels : TexelFormat → List TexelChannel
  | rgba5551 => [⟨.red, 5⟩, ⟨.green, 5⟩, ⟨.blue, 5⟩, ⟨.alpha, 1⟩]
  | rgb565 => [⟨.red, 5⟩, ⟨.green, 6⟩, ⟨.blue, 5⟩]
  | rgba8888 => [⟨.red, 8⟩, ⟨.green, 8⟩, ⟨.blue, 8⟩, ⟨.alpha, 8⟩]
  | ia4 => [⟨.intensity, 3⟩, ⟨.alpha, 1⟩]
  | ia8 => [⟨.intensity, 4⟩, ⟨.alpha, 4⟩]
  | ia16 => [⟨.intensity, 8⟩, ⟨.alpha, 8⟩]
  | i4 => [⟨.intensity, 4⟩]
  | i8 => [⟨.intensity, 8⟩]
  | ci4 | ci8 => []

end TexelFormat

namespace TexelChannel

/-- Whether a channel takes part in error diffusion. Single bits and full bytes do not. -/
def diffuses (c : TexelChannel) : Bool := 1 < c.bits && c.bits < 8

/-- The narrowed values of a channel over the rows of an image. -/
def quantize (c : TexelChannel) (narrowing : Narrowing) (rows : List (List Color)) :
    List (List Nat) :=
  let values := rows.map fun row => row.map (c.source.value ·)
  match narrowing, c.diffuses with
  | .diffused, true =>
    Channel.diffuseRows c.bits (List.replicate (rows.headD []).length 0) values
  | _, _ => values.map fun row => row.map (Channel.narrow c.bits)

/-- Puts a further channel below the bits of texels joined so far. -/
def join (c : TexelChannel) (upper : List (List UInt32)) (values : List (List Nat)) :
    List (List UInt32) :=
  upper.zipWith (fun us vs => us.zipWith (fun u v => u <<< UInt32.ofNat c.bits ||| UInt32.ofNat v) vs)
    values

end TexelChannel

namespace TexelFormat

def texels (format : TexelFormat) (narrowing : Narrowing) (rows : List (List Color)) :
    List (List UInt32) :=
  format.channels.foldl (fun upper c => c.join upper (c.quantize narrowing rows))
    (rows.map fun row => row.map fun _ => 0)

/-- The packed image of canonical pixels, given as bytes. Bytes after the image are ignored. -/
def encode (format : TexelFormat) (width height : Nat) (rgba : List UInt8)
    (narrowing : Narrowing) : Except ConvertError (List UInt8) := do
  if format.isIndexed then throw (.unsupported .rgba8888 format)
  let _ ← rgba8888.requireBytes width height rgba.length
  if width = 0 then return []
  let rows := (TexelDepth.runs (4 * width) height rgba).map Color.group
  return (format.texels narrowing rows).flatMap format.depth.pack

/-- Converts between a console format and the canonical one, whichever side is canonical. -/
def convert (source target : TexelFormat) (width height : Nat) (bytes : List UInt8)
    (palette : Option Palette) (narrowing : Narrowing) : Except ConvertError (List UInt8) :=
  if target = rgba8888 then Color.flatten <$> source.decode width height bytes palette
  else if source = rgba8888 then target.encode width height bytes narrowing
  else .error (.unsupported source target)

end TexelFormat

end DisplayPipeline
