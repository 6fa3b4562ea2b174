/-!
# Channel widths

A channel of `n` bits holds a fraction of `2 ^ n - 1`. Widening to eight bits and narrowing back
both round to nearest; no quotient is ever half way between two integers.
-/

namespace DisplayPipeline.Channel

/-- The largest value of a channel of `bits` bits. -/
def top (bits : Nat) : Nat := (1 <<< bits) - 1

/-- The eight-bit value nearest to `v / top bits`. -/
def expand (bits v : Nat) : UInt8 := UInt8.ofNat ((v * 255 + top bits / 2) / top bits)

/-- The value of a channel of `bits` bits nearest to `v / 255`. -/
def narrow (bits : Nat) (v : UInt8) : Nat := (v.toNat * top bits + 127) / 255

end DisplayPipeline.Channel
