import DisplayPipeline.Texel.Channel

/-!
# Error diffusion

Narrowing of one channel of an image such that what each pixel loses is spread over its neighbours:
7/16 to the right, 3/16, 5/16 and 1/16 to the three below. Errors are counted in sixteenths of an
eight-bit step and every share is cut off toward zero.
-/

namespace DisplayPipeline.Channel

/-- A pixel's narrowed value and the error that is left. -/
structure Diffused where
  value : Nat
  error : Int
deriving DecidableEq, Repr

/-- Narrows one value after the error carried to it is added. -/
def diffuseOne (bits : Nat) (v : UInt8) (carried : Int) : Diffused :=
  let want := max 0 (min 4080 (v.toNat * 16 + carried))
  let value := narrow bits (UInt8.ofNat ((want.toNat + 8) / 16))
  ⟨value, want - (expand bits value).toNat * 16⟩

def share (error : Int) (sixteenths : Int) : Int := (error * sixteenths).tdiv 16

/-- Narrows a row from left to right; each value comes with the error from the row above. -/
def diffuseRow (bits : Nat) : Int → List (UInt8 × Int) → List Diffused
  | _, [] => []
  | right, (v, above) :: rest =>
    let d := diffuseOne bits v (above + right)
    d :: diffuseRow bits (share d.error 7) rest

/-- The errors that a row hands down, given the error of the pixel to the left of the first. -/
def handDown : Int → List Int → List Int
  | _, [] => []
  | left, e :: rest =>
    (share left 1 + share e 5 + share (rest.headD 0) 3) :: handDown e rest

def diffuseRows (bits : Nat) : List Int → List (List UInt8) → List (List Nat)
  | _, [] => []
  | above, row :: rest =>
    let out := diffuseRow bits 0 (row.zip above)
    out.map (·.value) :: diffuseRows bits (handDown 0 (out.map (·.error))) rest

end DisplayPipeline.Channel
