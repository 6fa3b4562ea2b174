/-!
# Single precision helpers

Operations on `Float32` that the core library lacks. `least` and `greatest` ignore an operand that
is not a number; `roundToByte` rounds halves away from zero and saturates.
-/

namespace DisplayPipeline.Single

/-- The single nearest to an integer, ties to even. -/
def ofInt : Int → Float32
  | .ofNat n => (UInt64.ofNat n).toFloat32
  | .negSucc n => -(UInt64.ofNat (n + 1)).toFloat32

/-- The single nearest to a number below `2 ^ 64`, ties to even. -/
def ofNat (n : Nat) : Float32 := (UInt64.ofNat n).toFloat32

/-- The smaller operand, or the other one if one is not a number. -/
def least (a b : Float32) : Float32 :=
  if a.isNaN then b else if b < a then b else a

/-- The larger operand, or the other one if one is not a number. -/
def greatest (a b : Float32) : Float32 :=
  if a.isNaN then b else if a < b then b else a

/-- Rounds to an integer with halves away from zero and saturates to a byte. -/
def roundToByte (v : Float32) : UInt8 := v.round.toUInt8

def ofByte (v : UInt8) : Float32 := v.toFloat32 / 255

end DisplayPipeline.Single
