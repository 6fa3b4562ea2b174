import DisplayPipeline.Proofs.Combiner.Histories
import DisplayPipeline.Proofs.Renderer.Requests
import Mathlib.Algebra.Ring.Nat

/-!
# What a renderer's counts account for

A device may refuse programs and draws, give nothing back and show no frame, and do so otherwise before
each command. The counts of a renderer add up all the same: a draw is made or counted as skipped, a
texture that is asked for is a hit, a miss or a failure, and the programs counted are those that the
table made.
-/

namespace DisplayPipeline

/-- A command, and what becomes of the device before it is carried out. -/
structure RenderTrial where
  command : Command
  /-- From now on the device fails in other ways, has other features, or has lost what it held. -/
  upset : Device → Device := id

namespace Command

/-- Whether a command draws triangles or rectangles, all of them at once. -/
def drawsPrimitives : Command → Bool
  | drawTriangles vertices => !vertices.isEmpty
  | drawRects rects => !rects.isEmpty
  | _ => false

def fills : Command → List FillRect
  | fillRects rects => rects
  | _ => []

def isLoad (c : Command) : Bool := c.kind = .loadTexture

def isCapture (c : Command) : Bool := c.kind = .captureColorBuffer

def isEnd (c : Command) : Bool := c.kind = .endFrame

end Command

namespace RenderTally

def drawn (t : RenderTally) : RenderTally := { t with draws := t.draws + 1 }

def skipped (t : RenderTally) : RenderTally := { t with skippedDraws := t.skippedDraws + 1 }

def drawsAsked (t : RenderTally) : Nat := t.draws + t.skippedDraws

def texturesAsked (t : RenderTally) : Nat := t.textureHits + t.textureMisses + t.textureFailures

end RenderTally

namespace Combiner.Programs

private theorem le_counts_build (p : Programs) (key : Key) (d : Device) :
    p.misses ≤ (p.build key d).1.misses ∧ p.fallbacks ≤ (p.build key d).1.fallbacks := by
  obtain ⟨refreshed, device, hrefresh, hbuild⟩ := p.build_cases key d
  have hkept : refreshed.misses = p.misses ∧ refreshed.fallbacks = p.fallbacks := by
    rw [refresh] at hrefresh
    split at hrefresh <;> cases hrefresh <;> exact ⟨rfl, rfl⟩
  rcases hbuild with ⟨q, -, hbuild⟩ | ⟨after, q, events, -, -, hbuild⟩
  · rw [hbuild]
    exact ⟨hkept.1.ge, hkept.2.ge⟩
  · rw [hbuild, ← hkept.1, ← hkept.2]
    exact ⟨Nat.le_add_right _ _, Nat.le_add_right _ _⟩

end Combiner.Programs

namespace Renderer

def upset (r : Renderer) (trial : RenderTrial) : Renderer :=
  { r with device := trial.upset r.device }

def undergo (r : Renderer) (trial : RenderTrial) : Renderer :=
  (r.upset trial).execute trial.command

def undergoAll (r : Renderer) (trials : List RenderTrial) : Renderer := trials.foldl undergo r

def givesData (r : Renderer) : Command → Bool
  | .captureColorBuffer capture => (r.reader.read r.device capture.read).2.isSome
  | _ => false

/-- How many captures there are pixels for. -/
def dataGiven : Renderer → List RenderTrial → Nat
  | _, [] => 0
  | r, trial :: trials =>
    ((r.upset trial).givesData trial.command).toNat + dataGiven (r.undergo trial) trials

section Counts

variable {r : Renderer} {vertices : List Vertex}

private theorem counts_bindSource (r : Renderer) (unit : UInt8) (source : TextureSource) :
    ∃ hits misses failures, hits + misses + failures = 1 ∧
      (r.bindSource unit source).programs = r.programs ∧
      (r.bindSource unit source).tally =
        { r.tally with
          textureHits := r.tally.textureHits + hits
          textureMisses := r.tally.textureMisses + misses
          textureFailures := r.tally.textureFailures + failures } := by
  rw [bindSource, fetch]
  obtain ⟨textures, device, reply⟩ := r.textures.fetch source r.device
  cases reply with
  | error cause => exact ⟨0, 0, 1, rfl, rfl, rfl⟩
  | ok fetched =>
    obtain ⟨handle, key, hit⟩ := fetched
    cases hit with
    | true => exact ⟨1, 0, 0, rfl, rfl, rfl⟩
    | false => exact ⟨0, 1, 0, rfl, rfl, rfl⟩

private theorem texturesAsked_bindSource (r : Renderer) (unit : UInt8) (source : TextureSource) :
    (r.bindSource unit source).tally.texturesAsked = r.tally.texturesAsked + 1 := by
  obtain ⟨hits, misses, failures, hone, -, htally⟩ := r.counts_bindSource unit source
  rw [htally]
  simp only [RenderTally.texturesAsked]
  omega

/-- What came of a draw: the device took it down, or it was skipped for want of a program, or refused
and reported. -/
inductive DrawEnd (r after : Renderer) (vertices : List Vertex) : Prop where
  | drawn (draw : Draw) (hvertices : draw.vertices = vertices)
      (hdevice : after.device.draws = r.device.draws.push draw)
      (htally : after.tally = r.currentProgram.1.tally.drawn)
  | unprogrammed (hprogram : r.currentProgram.2 = none)
      (hdevice : after.device.draws = r.device.draws)
      (htally : after.tally = r.currentProgram.1.tally.skipped)
  | rejected (cause : DeviceError) (hreport : after.events.back? = some (.drawRejected cause))
      (hdevice : after.device.draws = r.device.draws)
      (htally : after.tally = r.currentProgram.1.tally.skipped)

private theorem draws_currentProgram (r : Renderer) :
    r.currentProgram.1.device.draws = r.device.draws :=
  (r.programs.build_sameBesidePrograms r.key r.device).keeps Device.draws fun _ _ => rfl

private theorem drawEnd (hsome : vertices ≠ []) : r.DrawEnd (r.draw vertices) vertices := by
  have hlisted : ¬ vertices.isEmpty = true := by simpa using hsome
  have hdraws := r.draws_currentProgram
  cases hcurrent : r.currentProgram with
  | mk ready program =>
    rw [hcurrent] at hdraws
    cases program with
    | none =>
      rw [draw_skipped hlisted hcurrent]
      exact .unprogrammed (by rw [hcurrent]) hdraws (by rw [hcurrent]; rfl)
    | some program =>
      rw [draw_drawWith hlisted hcurrent]
      cases hfault : ready.device.drawFault? (ready.drawOf program vertices) with
      | none =>
        have hdraw : ready.device.draw (ready.drawOf program vertices) =
            ({ ready.device with
              draws := ready.device.draws.push (ready.drawOf program vertices) }, .ok ()) := by
          rw [Device.draw, hfault]
        rw [drawWith_ok hdraw]
        exact .drawn (ready.drawOf program vertices) rfl (by rw [← hdraws]) (by rw [hcurrent]; rfl)
      | some cause =>
        have hdraw : ready.device.draw (ready.drawOf program vertices) =
            (ready.device, .error cause) := by
          rw [Device.draw, hfault]
        rw [drawWith_error hdraw]
        exact .rejected cause (by simp) hdraws (by rw [hcurrent]; rfl)

private theorem programs_draw (hsome : vertices ≠ []) :
    (r.draw vertices).programs = (r.programs.build r.key r.device).1 := by
  have hlisted : ¬ vertices.isEmpty = true := by simpa using hsome
  change _ = r.currentProgram.1.programs
  cases hcurrent : r.currentProgram with
  | mk ready program =>
    cases program with
    | none => rw [draw_skipped hlisted hcurrent]
    | some program =>
      rw [draw_drawWith hlisted hcurrent, drawWith]
      split <;> rfl

/-- Between two states the counts grew by what commands asked for, of which the captures in number
`data` had pixels, and by the programs that the table made meanwhile. -/
structure Accounts (before after : Renderer) (commands : List Command) (data : Nat) : Prop where
  draws : after.tally.drawsAsked = before.tally.drawsAsked +
    (commands.countP (·.drawsPrimitives) + (commands.flatMap (·.fills)).length)
  textures : after.tally.texturesAsked =
    before.tally.texturesAsked + (commands.countP (·.isLoad) + data)
  reads : after.tally.colorReads = before.tally.colorReads + commands.countP (·.isCapture)
  frames : after.tally.frames = before.tally.frames + commands.countP (·.isEnd)
  builds : after.tally.combinerBuilds + before.programs.misses =
    before.tally.combinerBuilds + after.programs.misses
  fallbacks : after.tally.combinerFallbacks + before.programs.fallbacks =
    before.tally.combinerFallbacks + after.programs.fallbacks

private theorem Accounts.refl (r : Renderer) : r.Accounts r [] 0 := by constructor <;> rfl

private theorem Accounts.trans {between after : Renderer} {commands more : List Command}
    {data rest : Nat}
    (h : r.Accounts between commands data) (h' : between.Accounts after more rest) :
    r.Accounts after (commands ++ more) (data + rest) where
  draws := by
    rw [h'.draws, h.draws, List.countP_append, List.flatMap_append, List.length_append]
    omega
  textures := by
    rw [h'.textures, h.textures, List.countP_append]
    omega
  reads := by rw [h'.reads, h.reads, List.countP_append, Nat.add_assoc]
  frames := by rw [h'.frames, h.frames, List.countP_append, Nat.add_assoc]
  builds := by
    have hfirst := h.builds
    have hthen := h'.builds
    omega
  fallbacks := by
    have hfirst := h.fallbacks
    have hthen := h'.fallbacks
    omega

private theorem tally_draw (hsome : vertices ≠ []) : ∃ drawn skipped, drawn + skipped = 1 ∧
    (r.draw vertices).tally =
      { r.currentProgram.1.tally with
        draws := r.tally.draws + drawn
        skippedDraws := r.tally.skippedDraws + skipped } := by
  cases r.drawEnd hsome with
  | drawn _ _ _ htally => exact ⟨1, 0, rfl, htally⟩
  | unprogrammed _ _ htally => exact ⟨0, 1, rfl, htally⟩
  | rejected _ _ _ htally => exact ⟨0, 1, rfl, htally⟩

private theorem accounts_draw {command : Command}
    (hdraws : command.drawsPrimitives = !vertices.isEmpty)
    (hfills : command.fills = []) (hload : command.isLoad = false)
    (hcapture : command.isCapture = false) (hend : command.isEnd = false) :
    r.Accounts (r.draw vertices) [command] 0 := by
  by_cases hsome : vertices = []
  · rw [draw_empty (by simp [hsome])]
    constructor <;> simp [hdraws, hsome, hfills, hload, hcapture, hend]
  · have hlisted : vertices.isEmpty = false := by simpa using hsome
    obtain ⟨drawn, skipped, hone, htally⟩ := r.tally_draw hsome
    obtain ⟨hmisses, hfallbacks⟩ := r.programs.le_counts_build r.key r.device
    constructor <;>
      simp only [htally, r.programs_draw hsome, currentProgram, List.countP_singleton, hdraws,
        hlisted, hload, hcapture, hend, List.flatMap_cons, hfills]
    case draws =>
      change r.tally.draws + drawn + (r.tally.skippedDraws + skipped) =
        r.tally.draws + r.tally.skippedDraws + 1
      omega
    case builds => omega
    case fallbacks => omega
    all_goals rfl

private theorem accounts_capture (capture : ColorCapture) :
    r.Accounts (r.capture capture) [.captureColorBuffer capture]
      (r.givesData (.captureColorBuffer capture)).toNat := by
  rw [Renderer.capture]
  cases hread : r.reader.read r.device capture.read with
  | mk reader bytes =>
    cases bytes with
    | none =>
      have hdata : r.givesData (.captureColorBuffer capture) = false := by rw [givesData, hread]; rfl
      constructor
      case textures => rw [hdata]; rfl
      all_goals rfl
    | some bytes =>
      have hdata : r.givesData (.captureColorBuffer capture) = true := by rw [givesData, hread]; rfl
      obtain ⟨hits, misses, failures, -, hprograms, htally⟩ :=
        counts_bindSource
          { r with reader, tally := { r.tally with colorReads := r.tally.colorReads + 1 } }
          capture.unit (captureSource capture bytes)
      constructor
      case textures =>
        rw [texturesAsked_bindSource, hdata]
        rfl
      case builds | fallbacks => rw [htally, hprograms]
      all_goals
        rw [htally]
        rfl

private theorem accounts_loadTexture (load : TextureLoad) :
    r.Accounts (r.bindSource load.unit load.source) [.loadTexture load] 0 := by
  obtain ⟨hits, misses, failures, -, hprograms, htally⟩ :=
    r.counts_bindSource load.unit load.source
  constructor
  case textures => exact r.texturesAsked_bindSource load.unit load.source
  case builds | fallbacks => rw [htally, hprograms]
  all_goals
    rw [htally]
    rfl

private theorem accounts_execute (r : Renderer) (command : Command) :
    r.Accounts (r.execute command) [command] (r.givesData command).toNat := by
  cases command with
  | loadTexture load => exact accounts_loadTexture load
  | captureColorBuffer capture => exact accounts_capture capture
  | drawTriangles vertices => exact accounts_draw rfl rfl rfl rfl rfl
  | drawRects rects => exact accounts_draw (by cases rects <;> rfl) rfl rfl rfl rfl
  | setCombine | setOtherModes | setColors | invalidateRange => constructor <;> rfl
  | fillRects rects =>
    constructor
    case draws =>
      change r.tally.draws + rects.length + r.tally.skippedDraws =
        r.tally.draws + r.tally.skippedDraws + (0 + (rects ++ []).length)
      rw [List.append_nil]
      omega
    all_goals rfl
  | endFrame => constructor <;> rfl

end Counts

section Runs

variable {spec : RendererSpec} {device : Device} {first : Renderer}

private theorem drawEnd_execute (r : Renderer) {command : Command}
    (h : command.drawsPrimitives = true) :
    r.DrawEnd (r.execute command) (r.triangles (.execute command)) := by
  cases command with
  | drawTriangles vertices => exact drawEnd (by simpa [Command.drawsPrimitives] using h)
  | drawRects rects =>
    refine drawEnd ?_
    cases rects with
    | nil => cases h
    | cons rect rects => exact List.cons_ne_nil _ _
  | _ => cases h

private theorem accounts_undergo (r : Renderer) (trial : RenderTrial) :
    r.Accounts (r.undergo trial) [trial.command]
      ((r.upset trial).givesData trial.command).toNat := by
  have h := (r.upset trial).accounts_execute trial.command
  exact ⟨h.draws, h.textures, h.reads, h.frames, h.builds, h.fallbacks⟩

/-- Over a run the counts grow by what its commands ask for. -/
theorem accounts_undergoAll (r : Renderer) (trials : List RenderTrial) :
    r.Accounts (r.undergoAll trials) (trials.map (·.command)) (r.dataGiven trials) := by
  induction trials generalizing r with
  | nil => exact .refl r
  | cons trial trials ih => exact (r.accounts_undergo trial).trans (ih (r.undergo trial))

private theorem counts_ofSpec (hstart : ofSpec spec device = .ok first) :
    first.tally = {} ∧ first.programs.misses = 0 ∧ first.programs.fallbacks = 0 := by
  rw [ofSpec] at hstart
  cases htextures : TextureCache.ofSpec spec.textures with
  | error cause =>
    rw [htextures] at hstart
    cases hstart
  | ok textures =>
    rw [htextures] at hstart
    cases hstart
    exact ⟨rfl, rfl, rfl⟩

/-- Whatever a new renderer is told and however its device fails, each draw, each fill and each texture
that is asked for is counted once, as are captures and frames, and the programs counted are those that
the table made. A command with something to draw has the device take its triangles down, or counts as
skipped because there is no program or because the refusal was reported. -/
theorem undergoAll_accountsForWork (hstart : ofSpec spec device = .ok first)
    (trials : List RenderTrial) :
    let r := first.undergoAll trials
    let commands := trials.map (·.command)
    r.tally.draws + r.tally.skippedDraws =
        commands.countP (·.drawsPrimitives) + (commands.flatMap (·.fills)).length ∧
      r.tally.textureHits + r.tally.textureMisses + r.tally.textureFailures =
        commands.countP (·.isLoad) + first.dataGiven trials ∧
      r.tally.colorReads = commands.countP (·.isCapture) ∧
      r.tally.frames = commands.countP (·.isEnd) ∧
      r.tally.combinerBuilds = r.programs.misses ∧
      r.tally.combinerFallbacks = r.programs.fallbacks ∧
      ∀ trial : RenderTrial, trial.command.drawsPrimitives = true →
        (r.upset trial).DrawEnd (r.undergo trial)
          ((r.upset trial).triangles (.execute trial.command)) := by
  intro r commands
  obtain ⟨htally, hmisses, hfallbacks⟩ := counts_ofSpec hstart
  have h : first.Accounts r commands (first.dataGiven trials) := first.accounts_undergoAll trials
  have hdraws := h.draws
  have htextures := h.textures
  have hreads := h.reads
  have hframes := h.frames
  have hbuilds := h.builds
  have hrefused := h.fallbacks
  rw [htally] at hdraws htextures hreads hframes hbuilds hrefused
  rw [hmisses] at hbuilds
  rw [hfallbacks] at hrefused
  exact ⟨hdraws.trans (Nat.zero_add _), htextures.trans (Nat.zero_add _),
    hreads.trans (Nat.zero_add _), hframes.trans (Nat.zero_add _), hbuilds.trans (Nat.zero_add _),
    hrefused.trans (Nat.zero_add _), fun trial hdrawn => drawEnd_execute _ hdrawn⟩

def smallScreen : Renderer where
  device := .ofSpec { width := 2, height := 2 }
  textures := { budget := 16, maxEntries := 0 }
  programs := { accuracy := .fast, capabilities := .all }
  reader := { narrowing := .nearest }
  screenWidth := 2
  screenHeight := 2

def failing (faults : Faults) (d : Device) : Device := { d with faults }

def cornerCapture : Command := .captureColorBuffer ⟨0, 0, ⟨⟨0, 0, 1, 1⟩, 32, true⟩⟩

/-- A triangle for which no program compiles, one that the device refuses, one that it draws, none at
all, two fills, a capture without and one with pixels, and a frame that does not come out. -/
def troubledTrials : List RenderTrial :=
  [⟨.drawTriangles (List.replicate 3 default), failing { programs := true, passThroughs := true }⟩,
    ⟨.setCombine 1 .none, failing {}⟩,
    ⟨.drawTriangles (List.replicate 3 default), failing { draws := true }⟩,
    ⟨.drawTriangles (List.replicate 3 default), failing {}⟩, ⟨.drawTriangles [], id⟩,
    ⟨.fillRects (List.replicate 2 default), id⟩, ⟨cornerCapture, failing { readbacks := true }⟩,
    ⟨cornerCapture, failing {}⟩, ⟨.endFrame, failing { frames := true }⟩]

theorem undergoAll_accountsForWork_troubled :
    let spec : RendererSpec := { textures := { budget := 16 }, screenWidth := 2, screenHeight := 2 }
    let r := smallScreen.undergoAll troubledTrials
    ofSpec spec (.ofSpec { width := 2, height := 2 }) = .ok smallScreen ∧
      r.tally.draws + r.tally.skippedDraws = 5 ∧ r.tally.skippedDraws = 2 ∧
      r.tally.textureHits + r.tally.textureMisses + r.tally.textureFailures = 1 ∧
      r.tally.colorReads = 2 ∧ r.tally.frames = 1 ∧ r.frames = #[] ∧
      r.tally.combinerBuilds = 2 ∧ r.tally.combinerFallbacks = 1 := by
  intro spec r
  have hstart : ofSpec spec (.ofSpec { width := 2, height := 2 }) = .ok smallScreen := rfl
  obtain ⟨hdraws, htextures, hreads, hframes, hbuilds, hrefused, -⟩ :=
    undergoAll_accountsForWork hstart troubledTrials
  refine ⟨hstart, hdraws.trans rfl, by decide +kernel, htextures.trans (by decide +kernel),
    hreads.trans rfl, hframes.trans rfl, by decide +kernel, hbuilds.trans (by decide +kernel),
    hrefused.trans (by decide +kernel)⟩

end Runs

end Renderer

end DisplayPipeline
