import DisplayPipeline.Console.Ram
import DisplayPipeline.Numeric.Single
import DisplayPipeline.Numeric.Vector
import DisplayPipeline.Texel.Color

namespace DisplayPipeline

/-- A light. -/
structure Light where
  /-- Red, green and blue as fractions of one. -/
  color : Vec3 := .zero
  /-- The direction, of length one; zero for an ambient color. -/
  direction : Vec3 := .zero
deriving DecidableEq, Repr, Inhabited

namespace Light

/-- Red, green and blue bytes as a color of a light. -/
def colorOfBytes (red green blue : UInt8) : Vec3 :=
  ⟨Single.ofByte red, Single.ofByte green, Single.ofByte blue⟩

def vectorOfBytes (x y z : UInt8) : Vec3 :=
  ⟨Single.ofInt (Word.signed8 x), Single.ofInt (Word.signed8 y), Single.ofInt (Word.signed8 z)⟩

/-- The light at an address: a color, its copy, and a direction of signed bytes. -/
def load (ram : Ram) (address : UInt32) : Light :=
  let byte (offset : UInt32) := ram.byte (address + offset)
  { color := colorOfBytes (byte 0) (byte 1) (byte 2)
    direction := (vectorOfBytes (byte 8) (byte 9) (byte 10)).normalize }

end Light

/-- The lights in force. -/
structure Lights where
  slots : Vector Light 8
  /-- The number of lights that are on. -/
  count : Fin 8
deriving DecidableEq, Repr

namespace Lights

def off : Lights := ⟨.replicate 8 {}, 0⟩

/-- Turns the first `count` lights on. A count without a slot left for the ambient color turns all
off. -/
def setCount (l : Lights) (count : Nat) : Lights :=
  { l with count := if h : count < 8 then ⟨count, h⟩ else 0 }

/-- Replaces a light. There is none past the eighth slot. -/
def set (l : Lights) (slot : Nat) (light : Light) : Lights :=
  { l with slots := l.slots.setIfInBounds slot light }

/-- Gives a light the color in the upper three bytes of a word. -/
def setColor (l : Lights) (slot : Nat) (word : UInt32) : Lights :=
  let c := Color.ofWord word
  match l.slots[slot]? with
  | none => l
  | some light => l.set slot { light with color := Light.colorOfBytes c.red c.green c.blue }

def active (l : Lights) : List Light := l.slots.toList.take l.count

def ambient (l : Lights) : Vec3 := (l.slots.get l.count).color

/-- Adds what a light gives to a surface with the given normal; from behind it gives nothing. -/
def addLight (normal : Vec3) (rgb : Vec3) (light : Light) : Vec3 :=
  let intensity := Single.greatest (normal.dot light.direction) 0
  { x := rgb.x + light.color.x * intensity
    y := rgb.y + light.color.y * intensity
    z := rgb.z + light.color.z * intensity }

/-- A fraction of one as a byte; more than one saturates. -/
def channel (v : Float32) : UInt8 := Single.roundToByte (Single.least v 1 * 255)

/-- The color of a vertex whose normal is given in the model's space. The alpha channel is kept. -/
def shade (l : Lights) (normal : Vec3) (modelview : Mat4) (alpha : UInt8) : Color :=
  let normal := (Mat4.rotate normal modelview).normalize
  let rgb := l.active.foldl (addLight normal) l.ambient
  ⟨channel rgb.x, channel rgb.y, channel rgb.z, alpha⟩

end Lights

end DisplayPipeline
