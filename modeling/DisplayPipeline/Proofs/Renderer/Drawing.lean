import DisplayPipeline.Renderer.Basic

namespace DisplayPipeline.Renderer

def drawOf (r : Renderer) (program : ProgramHandle) (vertices : List Vertex) : Draw where
  program
  textures := r.currentTextures
  uniforms := r.uniforms
  vertices
  depthCompare := r.otherModeLow &&& depthCompareBit != 0

/-- Draws with a program, and counts and reports a refusal. -/
def drawWith (r : Renderer) (program : ProgramHandle) (vertices : List Vertex) : Renderer :=
  match r.device.draw (r.drawOf program vertices) with
  | (device, .ok ()) =>
    { r with device, tally := { r.tally with draws := r.tally.draws + 1 } }
  | (device, .error cause) =>
    { r with
      device
      tally := { r.tally with skippedDraws := r.tally.skippedDraws + 1 }
      events := r.events.push (.drawRejected cause) }

variable {r after : Renderer} {program : ProgramHandle} {vertices : List Vertex} {device : Device}

theorem draw_empty (h : vertices.isEmpty = true) : r.draw vertices = r := by
  rw [draw, if_pos h]

theorem draw_skipped (h : ¬ vertices.isEmpty = true) (hcurrent : r.currentProgram = (after, none)) :
    r.draw vertices =
      { after with tally := { after.tally with skippedDraws := after.tally.skippedDraws + 1 } } := by
  rw [draw, if_neg h, hcurrent]

theorem draw_drawWith (h : ¬ vertices.isEmpty = true)
    (hcurrent : r.currentProgram = (after, some program)) :
    r.draw vertices = after.drawWith program vertices := by
  rw [draw, if_neg h, hcurrent]
  rfl

theorem drawWith_ok (h : r.device.draw (r.drawOf program vertices) = (device, .ok ())) :
    r.drawWith program vertices =
      { r with device, tally := { r.tally with draws := r.tally.draws + 1 } } := by
  rw [drawWith, h]

theorem drawWith_error {cause : DeviceError}
    (h : r.device.draw (r.drawOf program vertices) = (device, .error cause)) :
    r.drawWith program vertices =
      { r with
        device
        tally := { r.tally with skippedDraws := r.tally.skippedDraws + 1 }
        events := r.events.push (.drawRejected cause) } := by
  rw [drawWith, h]

theorem draw_keeps (r : Renderer) (vertices : List Vertex) :
    ∃ programs device tally events, r.draw vertices = { r with programs, device, tally, events } := by
  by_cases hempty : vertices.isEmpty = true
  · exact ⟨_, _, _, _, draw_empty hempty⟩
  · obtain ⟨programs, device, tally, events, hready⟩ : ∃ programs device tally events,
        r.currentProgram.1 = { r with programs, device, tally, events } := ⟨_, _, _, _, rfl⟩
    cases hcurrent : r.currentProgram with
    | mk ready program =>
      rw [hcurrent] at hready
      dsimp only at hready
      cases program with
      | none =>
        rw [draw_skipped hempty hcurrent, hready]
        exact ⟨_, _, _, _, rfl⟩
      | some program =>
        rw [draw_drawWith hempty hcurrent, drawWith, hready]
        split <;> exact ⟨_, _, _, _, rfl⟩

end DisplayPipeline.Renderer
