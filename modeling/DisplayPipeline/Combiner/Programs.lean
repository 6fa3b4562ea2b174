import DisplayPipeline.Combiner.Shader
import DisplayPipeline.Device.Basic
import DisplayPipeline.Event

/-!
# Combiner programs

Compiled programs by key. A key keeps its program until the table is cleared; a table marked
obsolete clears itself at the next request. Where a program does not compile, the pass-through
program takes its place.
-/

namespace DisplayPipeline.Combiner

/-- A program and what is needed to use it. -/
structure Program where
  key : Key
  /-- Missing if not even the pass-through program compiled. -/
  handle : Option ProgramHandle
  layout : UniformLayout
  wgsl : String
  /-- Whether this is the pass-through program. -/
  fallback : Bool
  /-- How often the table had been rebuilt when the program was made. -/
  generation : Nat
  /-- The position of the program among all that the table made. -/
  serial : Nat
deriving DecidableEq, Repr

/-- Something to report about compilation. -/
inductive CompileEvent where
  | fellBack (key : Key) (cause : DeviceError)
  | passThroughFailed (key : Key) (cause : DeviceError)
deriving DecidableEq, Repr

namespace CompileEvent

def report : CompileEvent → Report
  | fellBack key cause =>
    ⟨.error, "combiner compile failed; using pass-through",
      [("key", key.hex), ("err", cause.message)]⟩
  | passThroughFailed key cause =>
    ⟨.error, "pass-through compile failed", [("key", key.hex), ("err", cause.message)]⟩

end CompileEvent

/-- The programs made so far, and counts of what happened. -/
structure Programs where
  accuracy : Accuracy
  capabilities : Capabilities
  /-- One program for each key, the newest last. -/
  table : List Program := []
  obsolete : Bool := false
  generation : Nat := 0
  hits : Nat := 0
  misses : Nat := 0
  fallbacks : Nat := 0
  rebuilds : Nat := 0
deriving Repr

namespace Programs

def find? (p : Programs) (key : Key) : Option Program := p.table.find? fun q => q.key = key

/-- Has every program made anew at its next request. -/
def markObsolete (p : Programs) : Programs := { p with obsolete := true }

/-- Notes what the device can do now. Losing a feature makes the table obsolete, gaining one does
not. -/
def setCapabilities (p : Programs) (capabilities : Capabilities) : Programs :=
  { p with
    capabilities
    obsolete := p.obsolete || !capabilities.includes p.capabilities }

/-- Drops every program and releases its handle. -/
def clear (p : Programs) (d : Device) : Programs × Device :=
  ({ p with table := [] }, (p.table.filterMap (·.handle)).foldl Device.releaseProgram d)

def refresh (p : Programs) (d : Device) : Programs × Device :=
  if p.obsolete then
    { p with rebuilds := p.rebuilds + 1, generation := p.generation + 1, obsolete := false }.clear d
  else (p, d)

/-- What the main program of a key is called. -/
def label (key : Key) : String := "combiner:" ++ key.hex

/-- Makes the program of a key, or its pass-through program. -/
def make (p : Programs) (key : Key) (d : Device) : Device × Program × List CompileEvent :=
  let wgsl := Shader.combine key.stages key p.accuracy p.capabilities
  let program : Program :=
    { key
      handle := none
      layout := .ofProgram key.isTextured
      wgsl
      fallback := false
      generation := p.generation
      serial := p.misses }
  match d.compile (label key) with
  | (d, .ok handle) => (d, { program with handle := some handle }, [])
  | (d, .error cause) =>
    let substitute :=
      { program with wgsl := Shader.passThrough key.stages.color key, fallback := true }
    match d.compile (label key ++ passThroughMark) with
    | (d, .ok handle) => (d, { substitute with handle := some handle }, [.fellBack key cause])
    | (d, .error second) =>
      (d, substitute, [.fellBack key cause, .passThroughFailed key second])

/-- The program of a key, made now if it is missing. -/
def build (p : Programs) (key : Key) (d : Device) :
    Programs × Device × Program × List CompileEvent :=
  let (p, d) := p.refresh d
  match p.find? key with
  | some program => ({ p with hits := p.hits + 1 }, d, program, [])
  | none =>
    let (d, program, events) := p.make key d
    ({ p with
        table := p.table ++ [program]
        misses := p.misses + 1
        fallbacks := p.fallbacks + if program.fallback then 1 else 0 },
      d, program, events)

end Programs

end DisplayPipeline.Combiner
