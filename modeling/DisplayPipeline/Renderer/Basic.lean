import DisplayPipeline.Combiner.Programs
import DisplayPipeline.Command.Decode
import DisplayPipeline.Ring.Pool
import DisplayPipeline.Texture.Cache

/-!
# The renderer

Carries out render commands on a device. Textures are looked up again at every draw, so that a
texture that has left the cache degrades to an untextured draw.
-/

namespace DisplayPipeline

/-- What a renderer is made with. -/
structure RendererSpec where
  textures : TextureCacheSpec := {}
  accuracy : Combiner.Accuracy := .fast
  /-- How pixels that are read back are narrowed. -/
  narrowing : Narrowing := .nearest
  /-- The size of the console's screen, in whose pixels rectangles are given. -/
  screenWidth : Nat := 320
  screenHeight : Nat := 240
deriving DecidableEq, Repr

/-- Counts of what a renderer did. -/
structure RenderTally where
  textureHits : Nat := 0
  textureMisses : Nat := 0
  textureFailures : Nat := 0
  combinerBuilds : Nat := 0
  combinerFallbacks : Nat := 0
  draws : Nat := 0
  skippedDraws : Nat := 0
  colorReads : Nat := 0
  frames : Nat := 0
  decodeErrors : Nat := 0
deriving DecidableEq, Repr

def RenderTally.counters (t : RenderTally) : List (String × Nat) :=
  [("texture_hits", t.textureHits), ("texture_misses", t.textureMisses),
    ("texture_failures", t.textureFailures), ("combiner_builds", t.combinerBuilds),
    ("combiner_fallbacks", t.combinerFallbacks), ("draws", t.draws),
    ("skipped_draws", t.skippedDraws), ("color_reads", t.colorReads), ("frames", t.frames),
    ("decode_errors", t.decodeErrors)]

/-- Something to report about rendering. -/
inductive RenderEvent where
  | compilation (event : Combiner.CompileEvent)
  | textureFailed (source : TextureSource) (cause : TextureError)
  | drawRejected (cause : DeviceError)
  | malformedCommand (cause : CommandError)
  | readFailed (cause : PoolError)
  | releaseFailed (cause : PoolError)
deriving DecidableEq, Repr

namespace RenderEvent

def report : RenderEvent → Report
  | compilation event => event.report
  | textureFailed source cause => cause.report source
  | drawRejected cause => ⟨.warning, "draw rejected by backend", [("err", cause.message)]⟩
  | malformedCommand cause =>
    ⟨.warning, "dropping malformed render command", [("err", cause.message)]⟩
  | readFailed cause => ⟨.warning, "failed to read render command", [("err", cause.message)]⟩
  | releaseFailed cause => ⟨.warning, "failed to release render command", [("err", cause.message)]⟩

end RenderEvent

/-- The state of a renderer. -/
structure Renderer where
  device : Device
  textures : TextureCache
  programs : Combiner.Programs
  reader : ColorReader
  /-- The size of the console's screen, at least one pixel each way. -/
  screenWidth : Nat
  screenHeight : Nat
  key : Combiner.Key := .ofMux 0 .none
  otherModeLow : UInt32 := 0
  uniforms : Combiner.Uniforms := .zero
  /-- The texture of each unit. -/
  bound : PerUnit (Option TextureKey) := .both none
  tally : RenderTally := {}
  /-- Finished frames since they were last taken. -/
  frames : Array Frame := #[]
  /-- Reports since they were last taken. -/
  events : Array RenderEvent := #[]

namespace Renderer

def ofSpec (spec : RendererSpec) (device : Device) : Except TextureError Renderer := do
  let textures ← TextureCache.ofSpec spec.textures
  return {
    device
    textures
    programs := { accuracy := spec.accuracy, capabilities := device.capabilities }
    reader := { narrowing := spec.narrowing }
    screenWidth := max spec.screenWidth 1
    screenHeight := max spec.screenHeight 1 }

/-- The mode bit that turns the depth comparison on. -/
def depthCompareBit : UInt32 := 0x10

def rectVertices (width height : Float32) (r : TexturedRect) : List Vertex :=
  let corner := Vertex.onScreen width height
  let topLeft := corner r.x0 r.y0 r.s0 r.t0
  let topRight := corner r.x1 r.y0 r.s1 r.t0
  let bottomLeft := corner r.x0 r.y1 r.s0 r.t1
  let bottomRight := corner r.x1 r.y1 r.s1 r.t1
  [topLeft, topRight, bottomLeft, bottomLeft, topRight, bottomRight]

/-- Fetches a texture and tells its key, if that succeeded. -/
def fetch (r : Renderer) (source : TextureSource) : Renderer × Option TextureKey :=
  match r.textures.fetch source r.device with
  | (textures, device, .ok fetched) =>
    let tally :=
      if fetched.hit then { r.tally with textureHits := r.tally.textureHits + 1 }
      else { r.tally with textureMisses := r.tally.textureMisses + 1 }
    ({ r with textures, device, tally }, some fetched.key)
  | (textures, device, .error cause) =>
    ({ r with
        textures, device
        tally := { r.tally with textureFailures := r.tally.textureFailures + 1 }
        events := r.events.push (.textureFailed source cause) }, none)

/-- Binds a source to a texture unit, or nothing if it cannot be fetched. -/
def bindSource (r : Renderer) (unit : UInt8) (source : TextureSource) : Renderer :=
  let (r, key) := r.fetch source
  { r with bound := r.bound.set unit key }

/-- The texture source that pixels read back make up. -/
def captureSource (capture : ColorCapture) (bytes : List UInt8) : TextureSource :=
  { address := capture.address
    sourceLength := UInt32.ofNat bytes.length
    format := if capture.read.bitDepth = 16 then .rgba5551 else .rgba8888
    width := capture.read.region.width
    height := capture.read.region.height
    palette := none
    bytes }

/-- Binds a part of the render target to a texture unit, or nothing if there is no data. -/
def capture (r : Renderer) (capture : ColorCapture) : Renderer :=
  let (reader, bytes) := r.reader.read r.device capture.read
  let r :=
    { r with reader, tally := { r.tally with colorReads := r.tally.colorReads + 1 } }
  match bytes with
  | none => { r with bound := r.bound.set capture.unit none }
  | some bytes => r.bindSource capture.unit (captureSource capture bytes)

/-- The handle of the program for the current key, made now if it is missing. -/
def currentProgram (r : Renderer) : Renderer × Option ProgramHandle :=
  let (programs, device, program, events) := r.programs.build r.key r.device
  let tally :=
    { r.tally with
      combinerBuilds := r.tally.combinerBuilds + (programs.misses - r.programs.misses)
      combinerFallbacks := r.tally.combinerFallbacks + (programs.fallbacks - r.programs.fallbacks) }
  ({ r with
      programs, device, tally
      events := r.events ++ (events.map .compilation).toArray }, program.handle)

/-- The live textures of the units; none for an untextured key. -/
def currentTextures (r : Renderer) : PerUnit (Option TextureHandle) :=
  if r.key.isTextured then
    r.bound.map fun key => (key.bind r.textures.find?).map (·.handle)
  else .both none

/-- Draws a triangle list; an empty one is nothing to do. -/
def draw (r : Renderer) (vertices : List Vertex) : Renderer :=
  if vertices.isEmpty then r
  else
    match r.currentProgram with
    | (r, none) =>
      { r with tally := { r.tally with skippedDraws := r.tally.skippedDraws + 1 } }
    | (r, some program) =>
      let draw : Draw :=
        { program
          textures := r.currentTextures
          uniforms := r.uniforms
          vertices
          depthCompare := r.otherModeLow &&& depthCompareBit != 0 }
      match r.device.draw draw with
      | (device, .ok ()) =>
        { r with device, tally := { r.tally with draws := r.tally.draws + 1 } }
      | (device, .error cause) =>
        { r with
          device
          tally := { r.tally with skippedDraws := r.tally.skippedDraws + 1 }
          events := r.events.push (.drawRejected cause) }

def fill (r : Renderer) (rects : List FillRect) : Renderer :=
  { r with
    device := rects.foldl Device.fill r.device
    tally := { r.tally with draws := r.tally.draws + rects.length } }

/-- Shows the frame. Programs built for features that the device has lost are made anew. -/
def endFrame (r : Renderer) : Renderer :=
  let programs := r.programs.setCapabilities r.device.capabilities
  let (device, frame) := r.device.present
  { r with
    programs, device
    frames := r.frames ++ frame.toArray
    tally := { r.tally with frames := r.tally.frames + 1 } }

/-- Drops the textures that came from a range of console memory. -/
def invalidate (r : Renderer) (address length : UInt32) : Renderer :=
  let (textures, device, _) := r.textures.invalidate (.ofLength address length) r.device
  { r with textures, device }

def execute (r : Renderer) : Command → Renderer
  | .setCombine mux flags => { r with key := .ofMux mux flags }
  | .setOtherModes _ low => { r with otherModeLow := low }
  | .setColors colors => { r with uniforms := .ofColors colors }
  | .loadTexture load => r.bindSource load.unit load.source
  | .invalidateRange address length => r.invalidate address length
  | .captureColorBuffer capture => r.capture capture
  | .drawTriangles vertices => r.draw vertices
  | .drawRects rects =>
    r.draw (rects.flatMap
      (rectVertices (Single.ofNat r.screenWidth) (Single.ofNat r.screenHeight)))
  | .fillRects rects => r.fill rects
  | .endFrame => r.endFrame

def takeFrames (r : Renderer) : Renderer × Array Frame := ({ r with frames := #[] }, r.frames)

def takeEvents (r : Renderer) : Renderer × Array RenderEvent := ({ r with events := #[] }, r.events)

end Renderer

end DisplayPipeline
