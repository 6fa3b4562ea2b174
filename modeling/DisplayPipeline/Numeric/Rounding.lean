namespace DisplayPipeline.Rounding

/-- `n / 2 ^ places`, rounded to nearest with ties to the even neighbour. -/
def shiftRightEven (n : Nat) (places : Nat) : Nat :=
  let whole := n >>> places
  let rest := n - (whole <<< places)
  let half := (1 <<< places) / 2
  if places = 0 then n
  else if rest > half ∨ (rest = half ∧ whole % 2 = 1) then whole + 1
  else whole

/-- `n` with at most `bits` significant bits, rounded to nearest with ties to even. -/
def significant (bits n : Nat) : Nat :=
  let excess := n.log2 + 1 - bits
  shiftRightEven n excess <<< excess

end DisplayPipeline.Rounding
