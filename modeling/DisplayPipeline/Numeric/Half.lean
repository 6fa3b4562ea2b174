import DisplayPipeline.Numeric.Rounding

/-!
# Half precision values

Conversion between bit patterns of half and single precision. Widening is exact; narrowing rounds
to nearest, ties to even.
-/

namespace DisplayPipeline.Half

/-- The half nearest to a single. What is not a number keeps its leading fraction bits. -/
def ofSingle (v : Float32) : UInt16 :=
  let bits := v.toBits.toNat
  let sign := (bits >>> 31) <<< 15
  let exponent := (bits >>> 23) % 256
  let fraction := bits % (1 <<< 23)
  let magnitude :=
    if exponent = 255 then
      0x7C00 + (if fraction = 0 then 0 else 0x200 ||| (fraction >>> 13))
    else if exponent ≥ 143 then 0x7C00
    else if exponent ≥ 113 then
      -- A carry out of the fraction moves on to the next exponent, infinity included.
      Rounding.shiftRightEven (((exponent - 112) <<< 23) + fraction) 13
    else Rounding.shiftRightEven (fraction + (1 <<< 23)) (126 - exponent)
  UInt16.ofNat (sign + (if exponent = 0 then 0 else magnitude))

def toSingle (h : UInt16) : Float32 :=
  let bits := h.toNat
  let sign := (bits >>> 15) <<< 31
  let exponent := (bits >>> 10) % 32
  let fraction := bits % 1024
  let magnitude :=
    if exponent = 31 then (255 <<< 23) + (fraction <<< 13)
    else if exponent > 0 then ((exponent + 112) <<< 23) + (fraction <<< 13)
    else if fraction = 0 then 0
    else
      let top := fraction.log2
      ((top + 103) <<< 23) + ((fraction <<< (23 - top)) - (1 <<< 23))
  Float32.ofBits (UInt32.ofNat (sign + magnitude))

end DisplayPipeline.Half
