namespace DisplayPipeline

/-- A pair of numbers. -/
structure Vec2 where
  x : Float32
  y : Float32
deriving DecidableEq, Repr, Inhabited

namespace Vec2

def toList (v : Vec2) : List Float32 := [v.x, v.y]

/-- The vector with the given components; a missing one is zero. -/
def ofList (c : List Float32) : Vec2 := ⟨c.getD 0 0, c.getD 1 0⟩

end Vec2

/-- A row vector of three components. -/
structure Vec3 where
  x : Float32
  y : Float32
  z : Float32
deriving DecidableEq, Repr, Inhabited

namespace Vec3

def zero : Vec3 := ⟨0, 0, 0⟩

def toList (v : Vec3) : List Float32 := [v.x, v.y, v.z]

/-- The vector with the given components; a missing one is zero. -/
def ofList (c : List Float32) : Vec3 := ⟨c.getD 0 0, c.getD 1 0, c.getD 2 0⟩

/-- The sum of the products of like components. -/
def dot (a b : Vec3) : Float32 := a.x * b.x + a.y * b.y + a.z * b.z

/-- The vector of length one in the same direction; the zero vector stays as it is. -/
def normalize (v : Vec3) : Vec3 :=
  let length := (v.dot v).sqrt
  if length == 0 then v else ⟨v.x / length, v.y / length, v.z / length⟩

end Vec3

/-- A row vector. -/
structure Vec4 where
  x : Float32
  y : Float32
  z : Float32
  w : Float32
deriving DecidableEq, Repr, Inhabited

namespace Vec4

def splat (v : Float32) : Vec4 := ⟨v, v, v, v⟩

def toList (v : Vec4) : List Float32 := [v.x, v.y, v.z, v.w]

/-- The vector with the given components; a missing one is zero. -/
def ofList (c : List Float32) : Vec4 := ⟨c.getD 0 0, c.getD 1 0, c.getD 2 0, c.getD 3 0⟩

/-- The sum of the products of like components. -/
def dot (a b : Vec4) : Float32 := a.x * b.x + a.y * b.y + a.z * b.z + a.w * b.w

end Vec4

/-- A matrix, given by its rows. -/
structure Mat4 where
  row0 : Vec4
  row1 : Vec4
  row2 : Vec4
  row3 : Vec4
deriving DecidableEq, Repr, Inhabited

namespace Mat4

/-- The matrix that leaves every vector as it is. -/
def identity : Mat4 := ⟨⟨1, 0, 0, 0⟩, ⟨0, 1, 0, 0⟩, ⟨0, 0, 1, 0⟩, ⟨0, 0, 0, 1⟩⟩

/-- The product of a row vector and a matrix. -/
def transform (v : Vec4) (m : Mat4) : Vec4 :=
  { x := v.dot ⟨m.row0.x, m.row1.x, m.row2.x, m.row3.x⟩
    y := v.dot ⟨m.row0.y, m.row1.y, m.row2.y, m.row3.y⟩
    z := v.dot ⟨m.row0.z, m.row1.z, m.row2.z, m.row3.z⟩
    w := v.dot ⟨m.row0.w, m.row1.w, m.row2.w, m.row3.w⟩ }

/-- The product of a row vector and the upper left part of a matrix. -/
def rotate (v : Vec3) (m : Mat4) : Vec3 :=
  { x := v.dot ⟨m.row0.x, m.row1.x, m.row2.x⟩
    y := v.dot ⟨m.row0.y, m.row1.y, m.row2.y⟩
    z := v.dot ⟨m.row0.z, m.row1.z, m.row2.z⟩ }

/-- The matrix that does what `a` does and then what `b` does. -/
def mul (a b : Mat4) : Mat4 :=
  ⟨transform a.row0 b, transform a.row1 b, transform a.row2 b, transform a.row3 b⟩

def toList (m : Mat4) : List Float32 :=
  m.row0.toList ++ m.row1.toList ++ m.row2.toList ++ m.row3.toList

/-- The matrix with the given components, row by row; a missing one is zero. -/
def ofList (c : List Float32) : Mat4 :=
  ⟨.ofList c, .ofList (c.drop 4), .ofList (c.drop 8), .ofList (c.drop 12)⟩

end Mat4

end DisplayPipeline
