import DisplayPipeline.DisplayList.Delivery
import DisplayPipeline.DisplayList.OpcodeSet

/-!
# The display list processor

Walks display lists in console memory, keeps the registers, and delivers what is drawn. A run has its
own call stack, and its number of instructions is bounded, so that a corrupt list ends.
-/

namespace DisplayPipeline

/-- Why a display list was given up. -/
inductive ListFault where
  /-- A call at this address with as many calls open as may be. -/
  | callsTooDeep (depth : Nat) (address : UInt32)
  /-- A command was refused for good. -/
  | refused (cause : PoolError)
deriving DecidableEq, Repr

namespace ListFault

def message : ListFault → String
  | callsTooDeep depth address =>
    "display list call stack overflow at depth " ++ toString depth ++ " (call at " ++
      Text.Hex.literal 8 address.toNat ++ ")"
  | refused cause => "render command sink failed: " ++ cause.message

end ListFault

/-- How a run ended. -/
inductive ListOutcome where
  /-- The first list reached its end. -/
  | completed
  /-- There were too many instructions. -/
  | exhausted
  | aborted (fault : ListFault)
deriving DecidableEq, Repr

/-- Where a run is. -/
structure Walk where
  /-- The address of the next instruction. -/
  address : UInt32
  /-- Where the open calls go on, the innermost last. -/
  returns : Array UInt32 := #[]
  /-- The unknown opcodes that were reported. -/
  reported : OpcodeSet := {}
deriving DecidableEq, Repr

/-- Where an instruction leads. -/
inductive Move where
  | goTo (address : UInt32)
  | call (target back : UInt32)
  /-- Out of the innermost list. -/
  | leave
deriving DecidableEq, Repr

namespace Scene

/-- Whether all vertices in a range lie beyond one side of the clip volume. An empty range is not
culled. -/
def culls (scene : Scene) (first last : Nat) : Bool :=
  let vertices := scene.registers.geometry.vertices.toList
  let last := min last (vertices.length - 1)
  first ≤ last &&
    triviallyRejected (((vertices.take (last + 1)).drop first).map (·.clip))

/-- The offset in memory of a segmented address. -/
def locate (scene : Scene) (address : UInt32) : UInt32 :=
  scene.ram.clamp (scene.registers.geometry.segments.resolve address)

/-- Where an instruction leads; `after` is the address after it. -/
def move (scene : Scene) (after : UInt32) : Instruction → Move
  | .flow (.call target) => .call (scene.locate target) after
  | .flow (.jump target) => .goTo (scene.locate target)
  | .flow .branch => .goTo (scene.locate scene.registers.geometry.heldWord)
  | .flow .finish => .leave
  | .flow (.cull first last) => if scene.culls first last then .leave else .goTo after
  | _ => .goTo after

def advance (scene : Scene) : Instruction → Registers
  | .geometry change => scene.registers.applyGeometry scene.ram change
  | .render change => scene.registers.applyRender change
  | .texture change => scene.registers.applyTexture scene.ram change
  | _ => scene.registers

end Scene

/-- The state of a run. -/
structure Machine (σ : Type) where
  registers : Registers
  walk : Walk
  link : Link σ

namespace Machine

variable {σ : Type}

/-- What came of one instruction. -/
inductive Step (σ : Type) where
  | next (machine : Machine σ)
  | stop (machine : Machine σ) (outcome : ListOutcome)

def log (m : Machine σ) (f : Journal → Journal) : Machine σ :=
  { m with link.journal := f m.link.journal }

/-- Counts and reports an unknown opcode; each is reported once a run. -/
def noteUnknown (m : Machine σ) (code : UInt8) (address : UInt32) : Machine σ :=
  let m := m.log fun j => { j with tally.unknownOpcodes := j.tally.unknownOpcodes + 1 }
  if m.walk.reported.contains code then m
  else
    { m.log (·.report (.unknownOpcode code address)) with
      walk.reported := m.walk.reported.insert code }

/-- Counts and reports what is remarkable about an instruction. -/
def note (m : Machine σ) (scene : Scene) (address : UInt32) : Instruction → Machine σ
  | .unknown code => m.noteUnknown code address
  | .geometry (.applyMatrix use _) =>
    if scene.registers.geometry.matrices.dropsSave use then
      m.log (·.report (.matrixStackFull address))
    else m
  | .flow (.cull first last) =>
    if scene.culls first last then
      m.log fun j => { j with tally.culledLists := j.tally.culledLists + 1 }
    else m
  | _ => m

def follow (m : Machine σ) (maxDepth : Nat) (address : UInt32) : Move → Step σ
  | .goTo target => .next { m with walk.address := target }
  | .call target back =>
    let depth := m.walk.returns.size
    if depth ≥ maxDepth then
      .stop
        (m.log fun j =>
          { j.report (.callsTooDeep depth address) with
            tally.stackOverflows := j.tally.stackOverflows + 1 })
        (.aborted (.callsTooDeep depth address))
    else
      .next { m with walk.address := target, walk.returns := m.walk.returns.push back }
  | .leave =>
    match m.walk.returns.back? with
    | none => .stop m .completed
    | some back => .next { m with walk.address := back, walk.returns := m.walk.returns.pop }

/-- Carries out the instruction at the address. What it asks for is delivered before the registers
change. -/
def step (o : Outlet σ) (ram : Ram) (settings : ListSettings) (m : Machine σ) : Step σ :=
  let address := m.walk.address
  let scene : Scene := ⟨ram, settings, m.registers⟩
  let (instruction, after) := Instruction.fetch ram address
  let m := m.log fun j => { j with tally.commands := j.tally.commands + 1 }
  match DeliverM.performAll o scene (scene.requests instruction) m.link with
  | .error cause link => .stop { m with link } (.aborted (.refused cause))
  | .ok () link =>
    let m := ({ m with link }.note scene address instruction)
    { m with registers := scene.advance instruction }.follow settings.maxDepth address
      (scene.move after instruction)

/-- Carries out at most `budget` instructions; none tells that they were not enough. -/
def walkFor (o : Outlet σ) (ram : Ram) (settings : ListSettings) :
    Nat → Machine σ → Machine σ × Option ListOutcome
  | 0, m => (m, none)
  | budget + 1, m =>
    match m.step o ram settings with
    | .next m => walkFor o ram settings budget m
    | .stop m outcome => (m, some outcome)

/-- Draws what is left in the batch. A final refusal becomes the outcome; after one nothing more is
tried. -/
def finish (o : Outlet σ) (m : Machine σ) (outcome : ListOutcome) : Machine σ × ListOutcome :=
  match outcome with
  | .aborted (.refused _) => (m, outcome)
  | _ =>
    match DeliverM.closeBatch o m.link with
    | .ok () link => ({ m with link }, outcome)
    | .error cause link => ({ m with link }, .aborted (.refused cause))

end Machine

/-- A display list processor between runs. -/
structure ListProcessor where
  settings : ListSettings
  registers : Registers
  delivery : Delivery := {}
  journal : Journal := {}
deriving DecidableEq, Repr

namespace ListProcessor

variable {σ : Type}

def ofSettings (settings : ListSettings) : ListProcessor :=
  { settings, registers := .initial settings }

/-- Runs the display list at a segmented address. -/
def run (p : ListProcessor) (o : Outlet σ) (ram : Ram) (start : UInt32) (sink : σ) :
    ListProcessor × σ × ListOutcome :=
  let m : Machine σ :=
    { registers := p.registers
      walk := { address := ram.clamp (p.registers.geometry.segments.resolve start) }
      link := ⟨p.delivery, p.journal, sink⟩ }
  let (m, ended) := m.walkFor o ram p.settings p.settings.budget
  let m :=
    if ended.isNone then m.log (·.report (.budgetExhausted p.settings.budget start)) else m
  let (m, outcome) := m.finish o (ended.getD .exhausted)
  (⟨p.settings, m.registers, m.link.delivery, m.link.journal⟩, m.link.sink, outcome)

/-- Ends the frame: delivers what is left, forgets the color images, and submits the end. -/
def endFrame (p : ListProcessor) (o : Outlet σ) (sink : σ) :
    ListProcessor × σ × Except ListFault Unit :=
  match DeliverM.settle o ⟨p.delivery, p.journal, sink⟩ with
  | .error cause link =>
    ({ p with delivery := link.delivery, journal := link.journal }, link.sink,
      .error (.refused cause))
  | .ok () link =>
    let registers := { p.registers with render := p.registers.render.endFrame }
    match DeliverM.submit o .endFrame link with
    | .error cause link =>
      (⟨p.settings, registers, link.delivery, link.journal⟩, link.sink, .error (.refused cause))
    | .ok _ link => (⟨p.settings, registers, link.delivery, link.journal⟩, link.sink, .ok ())

/-- Takes note that the host wrote to memory. -/
def notify (p : ListProcessor) (address length : UInt32) : ListProcessor :=
  if length = 0 then p
  else { p with delivery.writes := p.delivery.writes ++ [⟨address, length⟩] }

/-- Hands out the counts and starts them anew. -/
def takeTally (p : ListProcessor) : ListProcessor × ListTally :=
  ({ p with journal.tally := {} }, p.journal.tally)

def takeEvents (p : ListProcessor) : ListProcessor × Array ListEvent :=
  ({ p with journal.events := #[] }, p.journal.events)

end ListProcessor

end DisplayPipeline
