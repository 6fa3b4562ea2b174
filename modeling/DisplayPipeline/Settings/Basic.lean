import DisplayPipeline.DisplayList.Processor
import DisplayPipeline.Renderer.Basic

/-!
# Settings

The settings of a session, what has to hold of them, and what its parts are made with. Settings that
pass `validate` leave room in the ring for the largest command.
-/

namespace DisplayPipeline

/-- The kinds of devices that can be asked for. -/
inductive DeviceKind where
  | headless
deriving DecidableEq, Repr, Inhabited

/-- The settings of a session. -/
structure Settings where
  /-- How color images are narrowed to 16 bits when they are read back. -/
  narrowing : Narrowing := .nearest
  textureBudget : Nat := 33554432
  /-- The most textures that are cached; zero sets no limit. -/
  maxTextures : Nat := 0
  accuracy : Combiner.Accuracy := .fast
  digest : Digest.Route := .vectorized
  ringBytes : Nat := 4194304
  /-- How many milliseconds an allocation in the ring may take. -/
  ringPatience : Nat := 1000
  maxDepth : Nat := 18
  device : DeviceKind := .headless
  targetFormat : TargetFormat := .rgba8
  screenWidth : UInt32 := 320
  screenHeight : UInt32 := 240
deriving DecidableEq, Repr

/-- Why settings are refused. -/
inductive SettingsError where
  | ringTooSmall (bytes required : Nat)
  | zeroTextureBudget
  | zeroPatience
  | screenSize (width height : UInt32)
deriving DecidableEq, Repr

namespace SettingsError

def message : SettingsError → String
  | ringTooSmall bytes required =>
    s!"ring buffer of {bytes} bytes cannot hold a {required}-byte command"
  | zeroTextureBudget => "texture cache budget must be non-zero"
  | zeroPatience => "ring allocation timeout must be non-zero"
  | screenSize width height =>
    "invalid screen size " ++ toString width.toNat ++ "x" ++ toString height.toNat

end SettingsError

namespace Settings

/-- The bytes that the largest command takes in a ring. -/
def requiredRing : Nat := Pool.alignUp Command.maxBytes Pool.alignment

def maxScreenSide : UInt32 := 4096

def isScreenSide (n : UInt32) : Bool := n ≠ 0 && n ≤ maxScreenSide

/-- Refuses settings under which a session could not work. -/
def validate (s : Settings) : Except SettingsError Unit :=
  if Pool.roundedCapacity s.ringBytes < requiredRing then
    .error (.ringTooSmall s.ringBytes requiredRing)
  else if s.textureBudget = 0 then .error .zeroTextureBudget
  else if s.ringPatience = 0 then .error .zeroPatience
  else if !isScreenSide s.screenWidth || !isScreenSide s.screenHeight then
    .error (.screenSize s.screenWidth s.screenHeight)
  else .ok ()

/-- The least and the greatest depth of calls that is used. -/
def depthRange : Nat × Nat := (1, 64)

/-- How display lists are processed. The depth of calls is brought into its range. -/
def listSettings (s : Settings) : ListSettings :=
  { maxDepth := max depthRange.1 (min s.maxDepth depthRange.2)
    screenWidth := s.screenWidth
    screenHeight := s.screenHeight }

def rendererSpec (s : Settings) : RendererSpec :=
  { textures := { budget := s.textureBudget, maxEntries := s.maxTextures, digest := s.digest }
    accuracy := s.accuracy
    narrowing := s.narrowing
    screenWidth := s.screenWidth.toNat
    screenHeight := s.screenHeight.toNat }

def deviceSpec (s : Settings) : DeviceSpec :=
  { width := s.screenWidth.toNat
    height := s.screenHeight.toNat
    format := s.targetFormat }

end Settings

end DisplayPipeline
