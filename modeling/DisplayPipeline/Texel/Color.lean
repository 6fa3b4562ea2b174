import DisplayPipeline.Word

namespace DisplayPipeline

/-- A canonical pixel. -/
structure Color where
  red : UInt8
  green : UInt8
  blue : UInt8
  alpha : UInt8
deriving DecidableEq, Repr, Inhabited

namespace Color

def transparent : Color := ⟨0, 0, 0, 0⟩

/-- The color whose channels are the bytes of `word`, red the most significant. -/
def ofWord (word : UInt32) : Color :=
  ⟨(word >>> 24).toUInt8, (word >>> 16).toUInt8, (word >>> 8).toUInt8, word.toUInt8⟩

def bytes (c : Color) : List UInt8 := [c.red, c.green, c.blue, c.alpha]

def gray (intensity alpha : UInt8) : Color := ⟨intensity, intensity, intensity, alpha⟩

/-- The mean of red, green and blue, rounded to nearest. -/
def intensity (c : Color) : UInt8 :=
  UInt8.ofNat ((c.red.toNat + c.green.toNat + c.blue.toNat + 1) / 3)

def flatten (pixels : List Color) : List UInt8 := pixels.flatMap bytes

/-- The pixels whose bytes are given. A rest of fewer than four bytes is dropped. -/
def group : List UInt8 → List Color
  | r :: g :: b :: a :: rest => ⟨r, g, b, a⟩ :: group rest
  | _ => []

end Color

end DisplayPipeline
