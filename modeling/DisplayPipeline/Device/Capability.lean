namespace DisplayPipeline

/-- A set of optional features. -/
structure Capabilities where
  bits : UInt32
deriving DecidableEq, Repr, Inhabited

namespace Capabilities

/-- Programs may use screen-space derivatives. -/
def shaderDerivatives : Capabilities := ⟨1⟩

def readback : Capabilities := ⟨4⟩

/-- Those above, and render targets with floating point channels. -/
def all : Capabilities := ⟨7⟩

/-- Whether all features of `other` are among those of `c`. -/
def includes (c other : Capabilities) : Bool := c.bits &&& other.bits == other.bits

end Capabilities

end DisplayPipeline
