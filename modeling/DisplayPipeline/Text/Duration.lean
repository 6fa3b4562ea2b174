namespace DisplayPipeline.Text.Duration

/-- The decimal places of a count of thousandths, without zeros at the end. -/
def thousandths (n : Nat) : String :=
  let digits := [n / 100 % 10, n / 10 % 10, n % 10]
  let kept := (digits.reverse.dropWhile (· = 0)).reverse
  String.join (kept.map toString)

/-- A number of milliseconds in seconds, milliseconds, or, if there is none, nanoseconds. -/
def ofMilliseconds (n : Nat) : String :=
  if n = 0 then "0ns"
  else if n < 1000 then toString n ++ "ms"
  else if n % 1000 = 0 then toString (n / 1000) ++ "s"
  else toString (n / 1000) ++ "." ++ thousandths (n % 1000) ++ "s"

end DisplayPipeline.Text.Duration
