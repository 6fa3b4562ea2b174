import DisplayPipeline.Device.Target
import DisplayPipeline.Device.Capability

/-!
# The device

A device without hardware: it keeps tables of textures and programs, checks the handles of draws,
and writes fills into its target. It accepts every program, as all programs that reach it are valid;
`Faults` makes it refuse what a failing driver would.
-/

namespace DisplayPipeline

/-- Why a device refuses a texture. -/
inductive TextureFault where
  | empty
  | tooLarge
  | wrongLength
deriving DecidableEq, Repr

namespace TextureFault

def message : TextureFault → String
  | empty => "empty texture"
  | tooLarge => "exceeds maximum texture dimension"
  | wrongLength => "data length does not match dimensions"

end TextureFault

/-- Why a device refuses a request. -/
inductive DeviceError where
  | textureRejected (width height : Nat) (reason : TextureFault)
  | compileFailed (label reason : String)
  | unknownProgram (handle : ProgramHandle)
  | unknownTexture (handle : TextureHandle)
deriving DecidableEq, Repr

namespace DeviceError

def message : DeviceError → String
  | textureRejected width height reason =>
    s!"texture {width}x{height} rejected: " ++ reason.message
  | compileFailed label reason =>
    "program `" ++ label ++ "` failed to compile: " ++ reason
  | unknownProgram handle => "unknown program ProgramHandle(" ++ toString handle.id ++ ")"
  | unknownTexture handle => "unknown texture TextureHandle(" ++ toString handle.id ++ ")"

end DeviceError

/-- What a device refuses although it is in order. -/
structure Faults where
  /-- Programs other than pass-through ones do not compile. -/
  programs : Bool := false
  /-- Pass-through programs do not compile. -/
  passThroughs : Bool := false
  /-- Draws are rejected. -/
  draws : Bool := false
  /-- Nothing can be read back. -/
  readbacks : Bool := false
  /-- No frame comes out. -/
  frames : Bool := false
deriving DecidableEq, Repr, Inhabited

/-- What the label of a pass-through program ends in. -/
def passThroughMark : String := ":passthrough"

/-- Whether a program with the given label is refused. -/
def Faults.refuses (f : Faults) (label : String) : Bool :=
  (f.passThroughs && label.endsWith passThroughMark) ||
    (f.programs && !label.endsWith passThroughMark)

/-- A texture as a device holds it. -/
structure DeviceTexture where
  width : Nat
  height : Nat
  rgba : List UInt8
deriving DecidableEq, Repr

/-- What a device is made with. -/
structure DeviceSpec where
  width : Nat := 320
  height : Nat := 240
  format : TargetFormat := .rgba8
  capabilities : Capabilities := .all
  maxTextureSide : Nat := 4096
deriving DecidableEq, Repr

/-- The state of a device. Tables list what is live, oldest first. -/
structure Device where
  target : RenderTarget
  capabilities : Capabilities
  maxTextureSide : Nat
  textures : List (TextureHandle × DeviceTexture) := []
  programs : List (ProgramHandle × String) := []
  /-- The next handle. A counter of 32 bits agrees with it while fewer than 2^32 textures were made. -/
  nextTexture : Nat := 1
  /-- The next handle. A counter of 32 bits agrees with it while fewer than 2^32 programs were made. -/
  nextProgram : Nat := 1
  /-- Draws since they were last taken. -/
  draws : Array Draw := #[]
  framesShown : Nat := 0
  faults : Faults := {}

namespace Device

def ofSpec (spec : DeviceSpec) : Device :=
  { target := .blank spec.format spec.width spec.height
    capabilities := spec.capabilities
    maxTextureSide := spec.maxTextureSide }

def texture? (d : Device) (handle : TextureHandle) : Option DeviceTexture :=
  d.textures.lookup handle

def label? (d : Device) (handle : ProgramHandle) : Option String := d.programs.lookup handle

/-- What is wrong with a texture of the given size, if anything. -/
def textureFault? (d : Device) (width height length : Nat) : Option TextureFault :=
  if width = 0 ∨ height = 0 then some .empty
  else if width > d.maxTextureSide ∨ height > d.maxTextureSide then some .tooLarge
  else if length ≠ width * height * 4 then some .wrongLength
  else none

/-- Takes over a texture given as canonical bytes. -/
def upload (d : Device) (width height : Nat) (rgba : List UInt8) :
    Device × Except DeviceError TextureHandle :=
  match d.textureFault? width height rgba.length with
  | some reason => (d, .error (.textureRejected width height reason))
  | none =>
    let handle : TextureHandle := ⟨d.nextTexture⟩
    ({ d with
        textures := d.textures ++ [(handle, ⟨width, height, rgba⟩)]
        nextTexture := d.nextTexture + 1 }, .ok handle)

/-- Forgets a texture. An unknown handle changes nothing. -/
def releaseTexture (d : Device) (handle : TextureHandle) : Device :=
  { d with textures := d.textures.filter fun t => t.1 ≠ handle }

def compile (d : Device) (label : String) : Device × Except DeviceError ProgramHandle :=
  if d.faults.refuses label then (d, .error (.compileFailed label "refused"))
  else
    let handle : ProgramHandle := ⟨d.nextProgram⟩
    ({ d with
        programs := d.programs ++ [(handle, label)]
        nextProgram := d.nextProgram + 1 }, .ok handle)

/-- Forgets a program. An unknown handle changes nothing. -/
def releaseProgram (d : Device) (handle : ProgramHandle) : Device :=
  { d with programs := d.programs.filter fun p => p.1 ≠ handle }

/-- What a draw refers to that is not live, if anything. -/
def drawFault? (d : Device) (draw : Draw) : Option DeviceError :=
  if d.faults.draws then some (.unknownProgram draw.program)
  else if (d.label? draw.program).isNone then some (.unknownProgram draw.program)
  else
    (draw.textures.toList.filterMap id).findSome? fun handle =>
      if (d.texture? handle).isNone then some (.unknownTexture handle) else none

def draw (d : Device) (draw : Draw) : Device × Except DeviceError Unit :=
  match d.drawFault? draw with
  | some e => (d, .error e)
  | none => ({ d with draws := d.draws.push draw }, .ok ())

def fill (d : Device) (r : FillRect) : Device := { d with target := d.target.fill r }

/-- A copy of a region of the target, if the device can make one. -/
def readPixels (d : Device) (x y width height : Nat) : Option Readback :=
  if d.faults.readbacks || !d.capabilities.includes .readback then none
  else d.target.copy? x y width height

def present (d : Device) : Device × Option Frame :=
  if d.faults.frames then (d, none)
  else ({ d with framesShown := d.framesShown + 1 }, some d.target.frame)

def takeDraws (d : Device) : Device × Array Draw := ({ d with draws := #[] }, d.draws)

end Device

end DisplayPipeline
