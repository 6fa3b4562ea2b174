import DisplayPipeline.DisplayList.Outlet
import DisplayPipeline.DisplayList.Request
import DisplayPipeline.Event

/-!
# Delivery to the renderer

Primitives of one kind are batched. Before a batch is opened, the renderer is told what it does not
know yet: memory that was written, the registers that draws depend on, and the textures. After a
refused command nothing counts as known.
-/

namespace DisplayPipeline

/-- Primitives that are drawn together. -/
structure Batch where
  key : BatchKey
  vertices : List Vertex := []
  rects : List TexturedRect := []
  fills : List FillRect := []
deriving DecidableEq, Repr

namespace Batch

def emptied (b : Batch) : Batch := { key := b.key }

/-- The command that draws the batch, unless it is empty. -/
def command? (b : Batch) : Option Command :=
  if b.vertices ≠ [] then some (.drawTriangles b.vertices)
  else if b.rects ≠ [] then some (.drawRects b.rects)
  else if b.fills ≠ [] then some (.fillRects b.fills)
  else none

/-- Adds a primitive at the end. A rectangle given by corners makes two triangles. -/
def add (b : Batch) : Primitive → Batch
  | .triangle p q r => { b with vertices := b.vertices ++ [p, q, r] }
  | .corners topLeft topRight bottomLeft bottomRight =>
    { b with
      vertices :=
        b.vertices ++ [topLeft, topRight, bottomLeft, bottomLeft, topRight, bottomRight] }
  | .rect rect => { b with rects := b.rects ++ [rect] }
  | .fill fill => { b with fills := b.fills ++ [fill] }

/-- Whether the batch has no room for the vertices of a primitive. -/
def isCrowdedFor (b : Batch) : Primitive → Bool
  | .triangle .. => b.vertices.length + 3 > Command.maxBatchVertices
  | .corners .. => b.vertices.length + 6 > Command.maxBatchVertices
  | .rect _ | .fill _ => false

/-- Whether the batch has no room for a further rectangle or fill. -/
def isFull (b : Batch) : Bool :=
  b.rects.length ≥ Command.maxBatchRects || b.fills.length ≥ Command.maxBatchFills

end Batch

/-- What the renderer was told last, where that is known. -/
structure Told where
  combiner : Option (UInt64 × Combiner.Flags) := none
  modes : Option Modes := none
  colors : Option Combiner.ConstantColors := none
  tiles : PerUnit (Option (TileIndex)) := .both none
deriving DecidableEq, Repr

/-- A range of memory that was written. -/
structure MemoryWrite where
  address : UInt32
  length : UInt32
deriving DecidableEq, Repr

/-- What is still to be delivered, and what was. -/
structure Delivery where
  batch : Option Batch := none
  told : Told := {}
  /-- Whether textures may differ from what the renderer was told. -/
  texturesStale : Bool := true
  /-- Writes that the renderer has not been told of, in order. -/
  writes : List MemoryWrite := []
deriving DecidableEq, Repr

namespace Delivery

def forget (d : Delivery) : Delivery := { d with told := {}, texturesStale := true }

end Delivery

/-- Counts of what display lists did. -/
structure ListTally where
  commands : Nat := 0
  unknownOpcodes : Nat := 0
  triangles : Nat := 0
  /-- Triangles that cannot be seen or that name vertices past the buffer. -/
  droppedTriangles : Nat := 0
  culledLists : Nat := 0
  stackOverflows : Nat := 0
  batches : Nat := 0
  /-- Refused submissions. -/
  refusals : Nat := 0
deriving DecidableEq, Repr

namespace ListTally

/-- The counts that are kept for the whole life of a session, by name. -/
def lasting (t : ListTally) : List (String × Nat) :=
  [("commands", t.commands), ("unknown_opcodes", t.unknownOpcodes),
    ("dropped_triangles", t.droppedTriangles), ("stack_overflows", t.stackOverflows)]

def counters (t : ListTally) : List (String × Nat) :=
  t.lasting ++
    [("triangles", t.triangles), ("culled_lists", t.culledLists), ("batches", t.batches),
      ("sink_errors", t.refusals)]

end ListTally

/-- Something to report about display lists. -/
inductive ListEvent where
  | budgetExhausted (budget : Nat) (start : UInt32)
  | callsTooDeep (depth : Nat) (address : UInt32)
  | matrixStackFull (address : UInt32)
  | unknownOpcode (code : UInt8) (address : UInt32)
  | refused (kind : CommandKind) (cause : PoolError)
deriving DecidableEq, Repr

namespace ListEvent

def report : ListEvent → Report
  | budgetExhausted budget start =>
    ⟨.warning, "display list exceeded its command budget",
      [("budget", toString budget), ("address", toString start.toNat)]⟩
  | callsTooDeep depth address =>
    ⟨.error, "display list call stack overflow; aborting list",
      [("depth", toString depth), ("address", toString address.toNat)]⟩
  | matrixStackFull address =>
    ⟨.warning, "modelview matrix stack full; push ignored", [("address", toString address.toNat)]⟩
  | unknownOpcode code address =>
    ⟨.warning, "unknown display list opcode; skipping",
      [("opcode", toString code.toNat), ("opcode_name", Opcode.nameOfByte code),
        ("address", toString address.toNat)]⟩
  | refused kind cause =>
    let fields := [("err", cause.message), ("opcode", kind.name)]
    if cause.isFinal then ⟨.error, "render command sink closed", fields⟩
    else ⟨.warning, "render command dropped", fields⟩

end ListEvent

/-- Counts and reports. -/
structure Journal where
  tally : ListTally := {}
  /-- Reports since they were last taken. -/
  events : Array ListEvent := #[]
deriving DecidableEq, Repr

namespace Journal

def report (j : Journal) (event : ListEvent) : Journal := { j with events := j.events.push event }

def refuse (j : Journal) (kind : CommandKind) (cause : PoolError) : Journal :=
  { j.report (.refused kind cause) with tally.refusals := j.tally.refusals + 1 }

end Journal

/-- The state of a delivery through an outlet. -/
structure Link (σ : Type) where
  delivery : Delivery
  journal : Journal
  sink : σ

/-- A part of a delivery, which a final refusal ends. -/
abbrev DeliverM (σ : Type) := EStateM PoolError (Link σ)

namespace DeliverM

variable {σ : Type}

/-- Changes what is known about the renderer. -/
def update (f : Delivery → Delivery) : DeliverM σ Unit :=
  modify fun link => { link with delivery := f link.delivery }

def count (f : ListTally → ListTally) : DeliverM σ Unit :=
  modify fun link => { link with journal.tally := f link.journal.tally }

/-- Submits a command and tells whether it was accepted. After a refusal the renderer is told
everything again. -/
def submit (o : Outlet σ) (command : Command) : DeliverM σ Bool := fun ⟨delivery, journal, sink⟩ =>
  match o.submit command sink with
  | (sink, .ok ()) => .ok true ⟨delivery, journal, sink⟩
  | (sink, .error cause) =>
    let link : Link σ := ⟨delivery.forget, journal.refuse command.kind cause, sink⟩
    if cause.isFinal then .error cause link else .ok false link

/-- Draws what the batch holds and keeps it open. -/
def drawBatch (o : Outlet σ) : DeliverM σ Unit := do
  let link ← get
  match link.delivery.batch.bind fun batch => batch.command?.map (batch, ·) with
  | none => pure ()
  | some (batch, command) =>
    update ({ · with batch := some batch.emptied })
    count fun tally => { tally with batches := tally.batches + 1 }
    let _ ← submit o command

/-- Draws what the batch holds and closes it. -/
def closeBatch (o : Outlet σ) : DeliverM σ Unit := do
  let link ← get
  if link.delivery.batch.isSome then
    drawBatch o
    update ({ · with batch := none })

def announce (o : Outlet σ) : List MemoryWrite → DeliverM σ Unit
  | [] => pure ()
  | write :: writes => do
    let _ ← submit o (.invalidateRange write.address write.length)
    announce o writes

/-- Tells the renderer of the writes that it does not know of. Textures then have to be sent
again. -/
def announceWrites (o : Outlet σ) : DeliverM σ Unit := do
  let link ← get
  if link.delivery.writes ≠ [] then
    update ({ · with writes := [] })
    announce o link.delivery.writes
    update ({ · with texturesStale := true })

def settle (o : Outlet σ) : DeliverM σ Unit := do
  closeBatch o
  announceWrites o

/-- Tells the renderer something it does not know, and remembers that if it was accepted. -/
def tell (o : Outlet σ) (command : Command) (isKnown : Told → Bool) (remember : Told → Told) :
    DeliverM σ Unit := do
  let link ← get
  if !isKnown link.delivery.told then
    if ← submit o command then
      update fun d => { d with told := remember d.told }

/-- Tells the renderer the registers that a batch depends on. -/
def tellRegisters (o : Outlet σ) (scene : Scene) (key : BatchKey) : DeliverM σ Unit := do
  let combiner := scene.combinerFor key
  let modes := scene.registers.render.modes
  let colors := scene.registers.render.colors
  tell o (.setCombine combiner.1 combiner.2) (·.combiner == some combiner)
    ({ · with combiner := some combiner })
  tell o (.setOtherModes modes.high modes.low) (·.modes == some modes)
    ({ · with modes := some modes })
  tell o (.setColors colors) (·.colors == some colors) ({ · with colors := some colors })

/-- Gives a texture unit what a tile samples, unless it has that. The answer is whether the
renderer is up to date. -/
def sendTexture (o : Outlet σ) (scene : Scene) (unit : UInt8) (tile : TileIndex) :
    DeliverM σ Bool := do
  let delivery := (← get).delivery
  if !delivery.texturesStale && delivery.told.tiles.get unit == some tile then return true
  let accepted ←
    match scene.textureCommand? unit tile with
    | none => pure true
    | some command => submit o command
  if accepted then
    update fun d => { d with told.tiles := d.told.tiles.set unit (some tile) }
  return accepted

/-- Gives the texture units that a program reads what they are to sample: a tile, and the one after
it. -/
def sendTextures (o : Outlet σ) (scene : Scene) (tile : TileIndex) (mux : UInt64) :
    DeliverM σ Unit := do
  let first ← sendTexture o scene 0 tile
  let second ←
    if (Combiner.Key.ofMux mux .none).stages.readsSecondTexel then
      sendTexture o scene 1 tile.next
    else pure true
  if first && second then
    update ({ · with texturesStale := false })

/-- Opens a batch, unless the open one is for the same key. Fills depend on nothing that the
renderer is told. -/
def openBatch (o : Outlet σ) (scene : Scene) (key : BatchKey) : DeliverM σ Unit := do
  let link ← get
  if link.delivery.batch.map (·.key) ≠ some key then
    settle o
    if key.shape ≠ .fills then
      tellRegisters o scene key
      if key.textured then
        sendTextures o scene key.tile (scene.combinerFor key).1
    update ({ · with batch := some { key } })

/-- Draws what the batch holds if a condition on it is met. -/
def drawBatchIf (o : Outlet σ) (condition : Batch → Bool) : DeliverM σ Unit := do
  let link ← get
  if link.delivery.batch.any condition then drawBatch o

/-- Adds a primitive to the batch for its key. -/
def draw (o : Outlet σ) (scene : Scene) (key : BatchKey) (primitive : Primitive) :
    DeliverM σ Unit := do
  openBatch o scene key
  drawBatchIf o (·.isCrowdedFor primitive)
  update fun d => { d with batch := d.batch.map (·.add primitive) }
  match primitive with
  | .triangle .. => count fun tally => { tally with triangles := tally.triangles + 1 }
  | _ => pure ()
  drawBatchIf o (·.isFull)

def perform (o : Outlet σ) (scene : Scene) : Request → DeliverM σ Unit
  | .close => closeBatch o
  | .retexture => do
    settle o
    update ({ · with texturesStale := true })
  | .drop => count fun tally => { tally with droppedTriangles := tally.droppedTriangles + 1 }
  | .draw key primitive => draw o scene key primitive

/-- Does everything that an instruction asks for, in order. -/
def performAll (o : Outlet σ) (scene : Scene) : List Request → DeliverM σ Unit
  | [] => pure ()
  | request :: requests => do
    perform o scene request
    performAll o scene requests

end DeliverM

end DisplayPipeline
