import DisplayPipeline.Renderer.Consume
import DisplayPipeline.Settings.Basic

/-!
# Sessions

A display list processor and a renderer with a pool between them. Every command that the processor
submits is carried out before the next one, so that the pool is idle whenever a call returns.
-/

namespace DisplayPipeline

/-- Why a session cannot be made or used. -/
inductive SessionError where
  | settings (cause : SettingsError)
  | renderer (cause : TextureError)
  | memory (cause : RamError)
  | list (cause : ListFault)
deriving DecidableEq, Repr

namespace SessionError

def message : SessionError → String
  | settings cause => "invalid configuration: " ++ cause.message
  | renderer cause => "failed to create renderer: " ++ cause.message
  | memory cause => "console RAM rejected: " ++ cause.message
  | list cause => cause.message

end SessionError

/-- The two ends of a pool: the pool and the renderer that serves it. -/
structure Servant where
  pool : Pool
  renderer : Renderer

namespace Servant

/-- Submits a command to the pool and has it served at once. -/
def outlet : Outlet Servant where
  submit command s :=
    match s with
    | ⟨pool, renderer⟩ =>
      let (pool, answer) := pool.push command.encode
      let (renderer, pool) := renderer.consume pool
      (⟨pool, renderer⟩, answer)

end Servant

/-- Something to report about a session. -/
inductive SessionEvent where
  | list (event : ListEvent)
  | rendering (event : RenderEvent)
  | cutOff (address : UInt32)
  | aborted (address : UInt32) (fault : ListFault)
deriving DecidableEq, Repr

namespace SessionEvent

def report : SessionEvent → Report
  | list event => event.report
  | rendering event => event.report
  | cutOff address =>
    ⟨.warning, "display list cut off by the command budget", [("address", toString address.toNat)]⟩
  | aborted address fault =>
    ⟨.warning, "display list aborted",
      [("address", toString address.toNat), ("err", fault.message)]⟩

/-- What is to be reported about the outcome of a run. -/
def ofOutcome (address : UInt32) : ListOutcome → Option SessionEvent
  | .completed => none
  | .exhausted => some (.cutOff address)
  | .aborted fault => some (.aborted address fault)

end SessionEvent

/-- A session. -/
structure Session where
  settings : Settings
  processor : ListProcessor
  servant : Servant
  /-- The counts of the display lists of finished calls. -/
  tally : ListTally := {}
  /-- Reports since they were last taken. -/
  events : Array SessionEvent := #[]

namespace Session

/-- A new session on the device that the settings ask for. -/
def ofSettings (settings : Settings) : Except SessionError Session := do
  settings.validate.mapError .settings
  let device := Device.ofSpec settings.deviceSpec
  let renderer ← (Renderer.ofSpec settings.rendererSpec device).mapError .renderer
  return {
    settings
    processor := .ofSettings settings.listSettings
    servant := ⟨.ofCapacity settings.ringBytes settings.ringPatience, renderer⟩ }

/-- Adds the counts of the processor to those of the session. -/
def mergeTally (s : Session) : Session :=
  let (processor, counted) := s.processor.takeTally
  { s with
    processor
    tally :=
      { s.tally with
        commands := s.tally.commands + counted.commands
        unknownOpcodes := s.tally.unknownOpcodes + counted.unknownOpcodes
        droppedTriangles := s.tally.droppedTriangles + counted.droppedTriangles
        stackOverflows := s.tally.stackOverflows + counted.stackOverflows } }

/-- Adds the reports of the parts to those of the session, those of the processor first. -/
def gatherEvents (s : Session) (outcome : Option SessionEvent) : Session :=
  let (processor, listed) := s.processor.takeEvents
  let (renderer, rendered) := s.servant.renderer.takeEvents
  { s with
    processor
    servant.renderer := renderer
    events :=
      s.events ++ listed.map .list ++ outcome.toArray ++ rendered.map .rendering }

/-- Runs the display list at a segmented address. -/
def run (s : Session) (memory : ByteArray) (address : UInt32) :
    Session × Except SessionError ListOutcome :=
  match Ram.ofBytes memory with
  | .error cause => (s, .error (.memory cause))
  | .ok ram =>
    let (processor, servant, outcome) := s.processor.run Servant.outlet ram address s.servant
    ({ s with processor, servant }.mergeTally.gatherEvents (SessionEvent.ofOutcome address outcome),
      .ok outcome)

def endFrame (s : Session) : Session × Except SessionError Unit :=
  let (processor, servant, outcome) := s.processor.endFrame Servant.outlet s.servant
  let s := { s with processor, servant }.gatherEvents none
  match outcome with
  | .ok () => (s.mergeTally, .ok ())
  | .error cause => (s, .error (.list cause))

/-- Takes note that the host wrote to memory. -/
def notify (s : Session) (address length : UInt32) : Session :=
  { s with processor := s.processor.notify address length }

def counters (s : Session) : List (String × Nat) :=
  s.servant.renderer.tally.counters ++ s.tally.lasting

def takeEvents (s : Session) : Session × Array SessionEvent := ({ s with events := #[] }, s.events)

def takeFrames (s : Session) : Session × Array Frame :=
  let (renderer, frames) := s.servant.renderer.takeFrames
  ({ s with servant.renderer := renderer }, frames)

end Session

end DisplayPipeline
