import DisplayPipeline.Word

/-!
# Combiner stages

The color combiner evaluates `(a - b) * c + d` for color and for alpha, in one or two cycles. The
sixteen selectors of the inputs are bit fields of a 56-bit mux, held in two words:

    high: a0 at 20, c0 at 15, alpha a0 at 12, alpha c0 at 9, a1 at 5, c1 at 0
    low:  b0 at 28, b1 at 24, alpha a1 at 21, alpha c1 at 18, d0 at 15, alpha b0 at 12,
          alpha d0 at 9, d1 at 6, alpha b1 at 3, alpha d1 at 0
-/

namespace DisplayPipeline.Combiner

/-- What the color half of a cycle can read. -/
inductive ColorInput where
  | combined
  | texel0
  | texel1
  | primitive
  | shade
  | environment
  | one
  | noise
  | zero
  | keyCenter
  | k4
  | keyScale
  | combinedAlpha
  | texel0Alpha
  | texel1Alpha
  | primitiveAlpha
  | shadeAlpha
  | environmentAlpha
  | lodFraction
  | primitiveLodFraction
  | k5
deriving DecidableEq, Repr, Inhabited

namespace ColorInput

def name : ColorInput → String
  | combined => "Combined"
  | texel0 => "Texel0"
  | texel1 => "Texel1"
  | primitive => "Primitive"
  | shade => "Shade"
  | environment => "Environment"
  | one => "One"
  | noise => "Noise"
  | zero => "Zero"
  | keyCenter => "KeyCenter"
  | k4 => "K4"
  | keyScale => "KeyScale"
  | combinedAlpha => "CombinedAlpha"
  | texel0Alpha => "Texel0Alpha"
  | texel1Alpha => "Texel1Alpha"
  | primitiveAlpha => "PrimitiveAlpha"
  | shadeAlpha => "ShadeAlpha"
  | environmentAlpha => "EnvAlpha"
  | lodFraction => "LodFraction"
  | primitiveLodFraction => "PrimLodFraction"
  | k5 => "K5"

end ColorInput

/-- What the alpha half of a cycle can read. -/
inductive AlphaInput where
  | combined
  | texel0
  | texel1
  | primitive
  | shade
  | environment
  | one
  | zero
  | lodFraction
  | primitiveLodFraction
deriving DecidableEq, Repr, Inhabited

namespace AlphaInput

def name : AlphaInput → String
  | combined => "Combined"
  | texel0 => "Texel0"
  | texel1 => "Texel1"
  | primitive => "Primitive"
  | shade => "Shade"
  | environment => "Environment"
  | one => "One"
  | zero => "Zero"
  | lodFraction => "LodFraction"
  | primitiveLodFraction => "PrimLodFraction"

end AlphaInput

/-- The inputs of `(a - b) * c + d`. -/
structure Cycle (α : Type) where
  a : α
  b : α
  c : α
  d : α
deriving DecidableEq, Repr, Inhabited

namespace Cycle

def inputs {α : Type} (cycle : Cycle α) : List α := [cycle.a, cycle.b, cycle.c, cycle.d]

/-- Whether an input is among those that a cycle reads. -/
def reads {α : Type} [DecidableEq α] (cycle : Cycle α) (input : α) : Bool :=
  cycle.inputs.contains input

end Cycle

/-- The two cycles of one half of the combiner. -/
structure Cycles (α : Type) where
  first : Cycle α
  second : Cycle α
deriving DecidableEq, Repr, Inhabited

namespace Cycles

def toList {α : Type} (cycles : Cycles α) : List (Cycle α) := [cycles.first, cycles.second]

end Cycles

/-- Both halves of the combiner. -/
structure Stages where
  color : Cycles ColorInput
  alpha : Cycles AlphaInput
deriving DecidableEq, Repr, Inhabited

/-- The inputs that every color position can select. -/
private def commonInput : Nat → ColorInput
  | 0 => .combined
  | 1 => .texel0
  | 2 => .texel1
  | 3 => .primitive
  | 4 => .shade
  | _ => .environment

def colorA (selector : Nat) : ColorInput :=
  if selector ≤ 5 then commonInput selector
  else match selector with
    | 6 => .one
    | 7 => .noise
    | _ => .zero

def colorB (selector : Nat) : ColorInput :=
  if selector ≤ 5 then commonInput selector
  else match selector with
    | 6 => .keyCenter
    | 7 => .k4
    | _ => .zero

def colorC (selector : Nat) : ColorInput :=
  if selector ≤ 5 then commonInput selector
  else match selector with
    | 6 => .keyScale
    | 7 => .combinedAlpha
    | 8 => .texel0Alpha
    | 9 => .texel1Alpha
    | 10 => .primitiveAlpha
    | 11 => .shadeAlpha
    | 12 => .environmentAlpha
    | 13 => .lodFraction
    | 14 => .primitiveLodFraction
    | 15 => .k5
    | _ => .zero

def colorD (selector : Nat) : ColorInput :=
  if selector ≤ 5 then commonInput selector
  else match selector with
    | 6 => .one
    | _ => .zero

/-- The first, second and fourth alpha input of a selector. -/
def alphaABD : Nat → AlphaInput
  | 0 => .combined
  | 1 => .texel0
  | 2 => .texel1
  | 3 => .primitive
  | 4 => .shade
  | 5 => .environment
  | 6 => .one
  | _ => .zero

def alphaC : Nat → AlphaInput
  | 0 => .lodFraction
  | 1 => .texel0
  | 2 => .texel1
  | 3 => .primitive
  | 4 => .shade
  | 5 => .environment
  | 6 => .primitiveLodFraction
  | _ => .zero

/-- The stages that a mux selects. The top eight bits are not looked at. -/
def Stages.ofMux (mux : UInt64) : Stages :=
  let high := Word.fieldNat (mux >>> 32).toUInt32
  let low := Word.fieldNat mux.toUInt32
  { color :=
      { first := ⟨colorA (high 20 4), colorB (low 28 4), colorC (high 15 5), colorD (low 15 3)⟩
        second := ⟨colorA (high 5 4), colorB (low 24 4), colorC (high 0 5), colorD (low 6 3)⟩ }
    alpha :=
      { first := ⟨alphaABD (high 12 3), alphaABD (low 12 3), alphaC (high 9 3), alphaABD (low 9 3)⟩
        second :=
          ⟨alphaABD (low 21 3), alphaABD (low 3 3), alphaC (low 18 3), alphaABD (low 0 3)⟩ } }

/-- Whether any cycle reads the second texture. -/
def Stages.readsSecondTexel (stages : Stages) : Bool :=
  stages.color.toList.any (fun c => c.reads .texel1 || c.reads .texel1Alpha) ||
    stages.alpha.toList.any (fun c => c.reads .texel1)

end DisplayPipeline.Combiner
