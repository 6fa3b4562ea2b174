import DisplayPipeline.Console.Ram
import DisplayPipeline.Numeric.Single
import DisplayPipeline.Numeric.Vector

/-!
# Matrices of the console

The projection, the modelview with a stack of saved ones, and their product. Matrices in memory are
in fixed point: sixteen integer parts, then sixteen fractions.
-/

namespace DisplayPipeline

namespace Mat4

/-- The number at a position of a matrix in memory. -/
def elementAt (ram : Ram) (address : UInt32) (index : Nat) : Float32 :=
  let offset := UInt32.ofNat (2 * index)
  let whole := ram.readSigned (address + offset)
  let fraction := (ram.read16 (address + (32 + offset))).toNat
  Single.ofInt (whole * 65536 + fraction) / 65536

def load (ram : Ram) (address : UInt32) : Mat4 :=
  let row (i : Nat) : Vec4 :=
    ⟨elementAt ram address (4 * i), elementAt ram address (4 * i + 1),
      elementAt ram address (4 * i + 2), elementAt ram address (4 * i + 3)⟩
  ⟨row 0, row 1, row 2, row 3⟩

end Mat4

/-- How a matrix is applied. -/
structure MatrixUse where
  /-- To the projection rather than the modelview. -/
  projection : Bool
  /-- Replace what is there rather than multiply. -/
  replace : Bool
  /-- Save the modelview before. -/
  save : Bool
deriving DecidableEq, Repr

namespace MatrixUse

def ofBits (bits : UInt32) : MatrixUse :=
  { projection := bits &&& 4 != 0
    replace := bits &&& 2 != 0
    save := bits &&& 1 != 0 }

end MatrixUse

/-- The matrices in force. -/
structure Matrices where
  projection : Mat4 := .identity
  modelview : Mat4 := .identity
  /-- The saved modelviews, the one saved last first. -/
  saved : List Mat4 := []
  /-- The modelview, then the projection. -/
  combined : Mat4 := .identity
deriving DecidableEq, Repr

namespace Matrices

def maxDepth : Nat := 10

def depth (m : Matrices) : Nat := m.saved.length

def isFull (m : Matrices) : Bool := m.depth ≥ maxDepth

def recombine (m : Matrices) : Matrices := { m with combined := m.modelview.mul m.projection }

def joined (matrix : Mat4) (use : MatrixUse) (before : Mat4) : Mat4 :=
  if use.replace then matrix else matrix.mul before

/-- Whether an application leaves out the saving that it asks for. -/
def dropsSave (m : Matrices) (use : MatrixUse) : Bool := !use.projection && use.save && m.isFull

/-- Applies a matrix. A full stack takes no further modelview, but the matrix is applied. -/
def apply (m : Matrices) (matrix : Mat4) (use : MatrixUse) : Matrices :=
  if use.projection then { m with projection := joined matrix use m.projection }.recombine
  else
    { m with
      saved := if use.save && !m.isFull then m.modelview :: m.saved else m.saved
      modelview := joined matrix use m.modelview }.recombine

/-- Goes back to the modelview saved `count` times ago, or to the oldest one. -/
def restore (m : Matrices) : Nat → Matrices
  | 0 => m
  | count + 1 =>
    match m.saved with
    | [] => m
    | modelview :: saved => restore { m with modelview, saved } count

/-- Takes back up to `count` saved modelviews. -/
def pop (m : Matrices) (count : Nat) : Matrices := (m.restore count).recombine

end Matrices

end DisplayPipeline
