namespace DisplayPipeline.Unorm

/-- `1.5 * 2 ^ 52`: adding it to a double below `2 ^ 51` leaves no bits for a fraction. -/
def integerShift : Float := 6755399441055744

/-- Rounds to an integer, ties to even, for values below `2 ^ 51`. -/
def roundHalfEven (v : Float) : Float := (v + integerShift) - integerShift

/-- Cuts a double off at both ends of a range; what is not a number stays so. -/
def clamp (low high v : Float) : Float :=
  if v < low then low else if v > high then high else v

/-- The byte nearest to a fraction of one, ties to even; outside the unit range it saturates. -/
def toByte (v : Float32) : UInt8 :=
  (roundHalfEven (clamp 0 255 (v.toFloat * 255))).toUInt8

end DisplayPipeline.Unorm
