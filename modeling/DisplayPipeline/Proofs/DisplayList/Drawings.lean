import DisplayPipeline.Proofs.DisplayList.Course
import Mathlib.Algebra.Ring.Nat

namespace DisplayPipeline

inductive Drawing where
  | triangle (a b c : Vertex)
  | rect (rect : TexturedRect)
  | fill (fill : FillRect)
deriving DecidableEq, Repr

namespace Drawing

/-- The triangles that a list of vertices stands for, three vertices each. -/
def triangles : List Vertex → List Drawing
  | a :: b :: c :: rest => .triangle a b c :: triangles rest
  | _ => []

private theorem triangles_append (vertices more : List Vertex) (h : 3 ∣ vertices.length) :
    triangles (vertices ++ more) = triangles vertices ++ triangles more := by
  induction vertices using triangles.induct with
  | case1 a b c rest ih =>
    have hrest : 3 ∣ rest.length := by
      simp only [List.length_cons] at h
      omega
    simp only [List.cons_append, triangles, ih hrest]
  | case2 vertices hshort =>
    match vertices with
    | [] => rfl
    | [_] => simp at h
    | [_, _] => simp at h
    | a :: b :: c :: rest => exact absurd rfl (hshort a b c rest)

end Drawing

namespace Scene

/-- A triangle is drawn if the buffer holds its corners, it can be seen and it is not culled. -/
def triangleDrawings (scene : Scene) (corners : Corners) : List Drawing :=
  let vertices := scene.registers.geometry.vertices
  match vertices[corners.a]?, vertices[corners.b]?, vertices[corners.c]? with
  | some a, some b, some c =>
    let triangle : Triangle := ⟨a.clip, b.clip, c.clip⟩
    if triangle.isVisible = true ∧ triangle.isCulled scene.registers.render.geometryMode = false then
      [.triangle (scene.vertexOf a) (scene.vertexOf b) (scene.vertexOf c)]
    else []
  | _, _, _ => []

/-- Whether a fill of a rectangle reaches a pixel. The last column and row belong to it when pixels
are copied or filled, and nothing outside of the scissor is touched. -/
def Fills (scene : Scene) (bounds : QuarterRect) (x y : Nat) : Prop :=
  let scissor := scene.registers.render.scissor
  let edge := if scene.registers.render.modes.cycleType.isInclusive then 1 else 0
  (bounds.left / 4 ≤ x ∧ x < bounds.right / 4 + edge) ∧
    (bounds.top / 4 ≤ y ∧ y < bounds.bottom / 4 + edge) ∧
    (scissor.left / 4 ≤ x ∧ x < scissor.right / 4) ∧
    (scissor.top / 4 ≤ y ∧ y < scissor.bottom / 4)

def fillDrawings (scene : Scene) (bounds : QuarterRect) : List Drawing :=
  let render := scene.registers.render
  let scissor := render.scissor
  let edge := if render.modes.cycleType.isInclusive then 1 else 0
  let x0 := max (bounds.left / 4) (scissor.left / 4)
  let y0 := max (bounds.top / 4) (scissor.top / 4)
  let x1 := min (bounds.right / 4 + edge) (scissor.right / 4)
  let y1 := min (bounds.bottom / 4 + edge) (scissor.bottom / 4)
  if x0 < x1 ∧ y0 < y1 then
    [.fill ⟨fillCoordinate x0, fillCoordinate y0, fillCoordinate x1, fillCoordinate y1,
      render.rectColor⟩]
  else []

theorem fillDrawings_eq_nil_iff (scene : Scene) (bounds : QuarterRect) :
    scene.fillDrawings bounds = [] ↔ ∀ x y, ¬ scene.Fills bounds x y := by
  unfold fillDrawings Fills
  dsimp only
  generalize (if scene.registers.render.modes.cycleType.isInclusive = true then 1 else 0) = edge
  constructor
  · intro hnil x y hfills
    split at hnil
    · cases hnil
    · omega
  · intro hnone
    apply if_neg
    intro hsome
    refine hnone (max (bounds.left / 4) (scene.registers.render.scissor.left / 4))
      (max (bounds.top / 4) (scene.registers.render.scissor.top / 4)) ?_
    omega

section Rects

variable (scene : Scene) (rect : RectRequest)

def rectFirst : Vec2 := ⟨Single.ofNat rect.bounds.left / 4, Single.ofNat rect.bounds.top / 4⟩

/-- The last column and row belong to a rectangle when pixels are copied or filled. -/
def rectLast : Vec2 :=
  let edge : Float32 := if scene.registers.render.modes.cycleType.isInclusive then 1 else 0
  ⟨Single.ofNat rect.bounds.right / 4 + edge, Single.ofNat rect.bounds.bottom / 4 + edge⟩

def rectTexel : Vec2 :=
  ⟨GeometryRegisters.texelOf (Word.upper rect.start), GeometryRegisters.texelOf (Word.lower rect.start)⟩

/-- The texels per pixel. Four pixels across share a step when they are copied. -/
def rectSteps : Vec2 :=
  let across := stepOf (Word.upper rect.step)
  ⟨if scene.registers.render.modes.cycleType = .copy then across / 4 else across,
    stepOf (Word.lower rect.step)⟩

/-- The texel at the last corner. In a flipped rectangle the first coordinate runs down. -/
def rectLastTexel : Vec2 :=
  let first := rectFirst rect
  let last := scene.rectLast rect
  let steps := scene.rectSteps rect
  if rect.flipped then
    ⟨(rectTexel rect).x + (last.y - first.y) * steps.x,
      (rectTexel rect).y + (last.x - first.x) * steps.y⟩
  else
    ⟨(rectTexel rect).x + (last.x - first.x) * steps.x,
      (rectTexel rect).y + (last.y - first.y) * steps.y⟩

def rectCorner (x y s t : Float32) : Vertex :=
  let uv := (scene.registers.texture.tiles.get rect.tile).normalize ⟨s, t⟩
  .onScreen scene.settings.screen.x scene.settings.screen.y x y uv.x uv.y

/-- A rectangle with a texture is one rectangle, or two triangles if it is flipped. -/
def rectDrawings : List Drawing :=
  let first := rectFirst rect
  let last := scene.rectLast rect
  let texel := rectTexel rect
  let lastTexel := scene.rectLastTexel rect
  let tile := scene.registers.texture.tiles.get rect.tile
  if last.x ≤ first.x ∨ last.y ≤ first.y then []
  else if rect.flipped then
    let topLeft := scene.rectCorner rect first.x first.y texel.x texel.y
    let topRight := scene.rectCorner rect last.x first.y texel.x lastTexel.y
    let bottomLeft := scene.rectCorner rect first.x last.y lastTexel.x texel.y
    let bottomRight := scene.rectCorner rect last.x last.y lastTexel.x lastTexel.y
    [.triangle topLeft topRight bottomLeft, .triangle bottomLeft topRight bottomRight]
  else
    let uv := tile.normalize texel
    let lastUv := tile.normalize lastTexel
    [.rect ⟨first.x, first.y, last.x, last.y, uv.x, uv.y, lastUv.x, lastUv.y⟩]

end Rects

def drawings (scene : Scene) : Instruction → List Drawing
  | .triangle corners => scene.triangleDrawings corners
  | .twoTriangles first second => scene.triangleDrawings first ++ scene.triangleDrawings second
  | .fillRect bounds => scene.fillDrawings bounds
  | .texturedRect rect => scene.rectDrawings rect
  | .nothing | .unknown _ | .flow _ | .geometry _ | .render _ | .texture _ => []

end Scene

/-- The triangles that an instruction names, drawn or not. -/
def Instruction.triangleSlots : Instruction → Nat
  | .triangle _ => 1
  | .twoTriangles _ _ => 2
  | _ => 0

namespace Visit

def drawings (v : Visit) (ram : Ram) (settings : ListSettings) : List Drawing :=
  (v.scene ram settings).drawings (v.instruction ram)

def triangleSlots (v : Visit) (ram : Ram) : Nat := (v.instruction ram).triangleSlots

end Visit

namespace Primitive

def drawings : Primitive → List Drawing
  | .triangle a b c => [.triangle a b c]
  | .corners topLeft topRight bottomLeft bottomRight =>
    [.triangle topLeft topRight bottomLeft, .triangle bottomLeft topRight bottomRight]
  | .rect area => [.rect area]
  | .fill area => [.fill area]

def shape : Primitive → Shape
  | .triangle _ _ _ | .corners _ _ _ _ => .triangles
  | .rect _ => .rects
  | .fill _ => .fills

def triangleSlots : Primitive → Nat
  | .triangle _ _ _ => 1
  | _ => 0

end Primitive

namespace Request

def drawings : Request → List Drawing
  | .draw _ primitive => primitive.drawings
  | _ => []

def triangleSlots : Request → Nat
  | .drop => 1
  | .draw _ primitive => primitive.triangleSlots
  | _ => 0

def Suits : Request → Prop
  | .draw key primitive => key.shape = primitive.shape
  | _ => True

end Request

namespace Scene

variable (scene : Scene)

private theorem drawings_triangleRequest (corners : Corners) :
    (scene.triangleRequest corners).drawings = scene.triangleDrawings corners := by
  unfold triangleRequest triangleDrawings corners?
  dsimp only
  cases scene.registers.geometry.vertices[corners.a]? with
  | none => rfl
  | some a =>
    cases scene.registers.geometry.vertices[corners.b]? with
    | none => rfl
    | some b =>
      cases scene.registers.geometry.vertices[corners.c]? with
      | none => rfl
      | some c =>
        dsimp only [Option.bind_eq_bind, Option.bind_some, Option.pure_def]
        cases hvisible : Triangle.isVisible ⟨a.clip, b.clip, c.clip⟩ <;>
          cases hculled :
            Triangle.isCulled ⟨a.clip, b.clip, c.clip⟩ scene.registers.render.geometryMode <;>
          rfl

theorem triangleRequest_cases (corners : Corners) :
    scene.triangleRequest corners = .drop ∨
      ∃ a b c, scene.triangleRequest corners = .draw scene.triangleKey (.triangle a b c) := by
  unfold triangleRequest
  split
  · exact Or.inl rfl
  · dsimp only
    split
    · exact Or.inl rfl
    · exact Or.inr ⟨_, _, _, rfl⟩

theorem fillRequests_cases (bounds : QuarterRect) :
    scene.fillRequests bounds = [] ∨
      ∃ area, scene.fillRequests bounds = [.draw ⟨.fills, false, .ofNat 0, false⟩ (.fill area)] := by
  unfold fillRequests
  dsimp only
  generalize (if scene.registers.render.modes.cycleType.isInclusive = true then 1 else 0) = edge
  split
  · exact Or.inl rfl
  · exact Or.inr ⟨_, rfl⟩

theorem rectRequests_cases (rect : RectRequest) :
    scene.rectRequests rect = [] ∨
      ∃ key primitive, scene.rectRequests rect = [.draw key primitive] ∧
        key.shape = primitive.shape ∧ primitive.triangleSlots = 0 ∧ key.shape ≠ .fills ∧
        key.textured = true ∧ key.tile = rect.tile ∧
        key.copied = decide (scene.registers.render.modes.cycleType = .copy) := by
  unfold rectRequests
  dsimp only
  generalize (if scene.registers.render.modes.cycleType.isInclusive = true then (1 : Float32)
    else 0) = edge
  by_cases hempty : Single.ofNat rect.bounds.right / 4 + edge ≤ Single.ofNat rect.bounds.left / 4 ∨
      Single.ofNat rect.bounds.bottom / 4 + edge ≤ Single.ofNat rect.bounds.top / 4
  · exact Or.inl (if_pos hempty)
  · rw [if_neg hempty]
    cases rect.flipped with
    | true => exact Or.inr ⟨_, _, rfl, rfl, rfl, nofun, rfl, rfl, rfl⟩
    | false => exact Or.inr ⟨_, _, rfl, rfl, rfl, nofun, rfl, rfl, rfl⟩

private theorem drawings_fillRequests (bounds : QuarterRect) :
    (scene.fillRequests bounds).flatMap Request.drawings = scene.fillDrawings bounds := by
  unfold fillRequests fillDrawings
  dsimp only
  generalize (if scene.registers.render.modes.cycleType.isInclusive = true then 1 else 0) = edge
  split
  · rename_i hempty
    rw [if_neg (by omega)]
    rfl
  · rename_i hsome
    rw [if_pos (by omega)]
    rfl

private theorem drawings_rectRequests (rect : RectRequest) :
    (scene.rectRequests rect).flatMap Request.drawings = scene.rectDrawings rect := by
  unfold rectRequests rectDrawings rectLastTexel rectFirst rectLast
  dsimp only
  generalize (if scene.registers.render.modes.cycleType.isInclusive = true then (1 : Float32)
    else 0) = edge
  by_cases hempty : Single.ofNat rect.bounds.right / 4 + edge ≤ Single.ofNat rect.bounds.left / 4 ∨
      Single.ofNat rect.bounds.bottom / 4 + edge ≤ Single.ofNat rect.bounds.top / 4
  · rw [if_pos hempty, if_pos hempty]
    rfl
  · rw [if_neg hempty, if_neg hempty]
    cases rect.flipped <;> rfl

/-- Together the requests of an instruction draw what it draws. -/
theorem drawings_requests (instruction : Instruction) :
    (scene.requests instruction).flatMap Request.drawings = scene.drawings instruction := by
  cases instruction with
  | triangle corners => simp [requests, drawings, drawings_triangleRequest]
  | twoTriangles first second => simp [requests, drawings, drawings_triangleRequest]
  | fillRect bounds => exact scene.drawings_fillRequests bounds
  | texturedRect rect => exact scene.drawings_rectRequests rect
  | _ => rfl

private theorem triangleRequest_slots (corners : Corners) :
    (scene.triangleRequest corners).triangleSlots = 1 := by
  rcases scene.triangleRequest_cases corners with h | ⟨_, _, _, h⟩ <;> rw [h] <;> rfl

theorem triangleSlots_requests (instruction : Instruction) :
    ((scene.requests instruction).map Request.triangleSlots).sum = instruction.triangleSlots := by
  cases instruction with
  | triangle corners => simp [requests, triangleRequest_slots, Instruction.triangleSlots]
  | twoTriangles first second => simp [requests, triangleRequest_slots, Instruction.triangleSlots]
  | fillRect bounds =>
    rcases scene.fillRequests_cases bounds with h | ⟨_, h⟩ <;> rw [requests, h] <;> rfl
  | texturedRect rect =>
    rcases scene.rectRequests_cases rect with h | ⟨_, _, h, _, hslots, _⟩
    · rw [requests, h]
      rfl
    · rw [requests, h]
      simp only [List.map_singleton, Request.triangleSlots, hslots]
      rfl
  | _ => rfl

private theorem suits_triangleRequest (corners : Corners) :
    (scene.triangleRequest corners).Suits := by
  rcases scene.triangleRequest_cases corners with h | ⟨_, _, _, h⟩ <;> rw [h]
  · trivial
  · rfl

theorem suits_requests (instruction : Instruction) :
    ∀ request ∈ scene.requests instruction, request.Suits := by
  cases instruction with
  | triangle corners => exact List.forall_mem_singleton.mpr (scene.suits_triangleRequest corners)
  | twoTriangles first second =>
    exact List.forall_mem_cons.mpr ⟨scene.suits_triangleRequest first,
      List.forall_mem_singleton.mpr (scene.suits_triangleRequest second)⟩
  | fillRect bounds =>
    rcases scene.fillRequests_cases bounds with h | ⟨_, h⟩ <;> rw [requests, h]
    · exact fun _ hnone => absurd hnone List.not_mem_nil
    · exact List.forall_mem_singleton.mpr rfl
  | texturedRect rect =>
    rcases scene.rectRequests_cases rect with h | ⟨_, _, h, hshape, _⟩ <;> rw [requests, h]
    · exact fun _ hnone => absurd hnone List.not_mem_nil
    · exact List.forall_mem_singleton.mpr hshape
  | render change => exact List.forall_mem_singleton.mpr trivial
  | texture change => exact List.forall_mem_singleton.mpr trivial
  | _ => exact fun _ hnone => absurd hnone List.not_mem_nil

end Scene

namespace Command

def drawings : Command → List Drawing
  | .drawTriangles vertices => Drawing.triangles vertices
  | .drawRects rects => rects.map .rect
  | .fillRects fills => fills.map .fill
  | _ => []

/-- A command that draws holds something, and no more than a command may hold. -/
def WithinLimits : Command → Prop
  | .drawTriangles vertices => vertices ≠ [] ∧ 3 ∣ vertices.length ∧ vertices.length ≤ 96
  | .drawRects rects => rects ≠ [] ∧ rects.length ≤ 64
  | .fillRects fills => fills ≠ [] ∧ fills.length ≤ 128
  | _ => True

def IsHush (command : Command) : Prop := command.drawings = [] ∧ command.WithinLimits

end Command

namespace Batch

def drawings (b : Batch) : List Drawing :=
  Drawing.triangles b.vertices ++ b.rects.map .rect ++ b.fills.map .fill

/-- A batch holds only what is of its shape, and no more than a command may hold. -/
structure Sound (b : Batch) : Prop where
  vertices : b.vertices ≠ [] → b.key.shape = .triangles
  rects : b.rects ≠ [] → b.key.shape = .rects
  fills : b.fills ≠ [] → b.key.shape = .fills
  whole : 3 ∣ b.vertices.length
  fewVertices : b.vertices.length ≤ 96
  fewRects : b.rects.length ≤ 64
  fewFills : b.fills.length ≤ 128

variable {b : Batch}

theorem sound_emptied (b : Batch) : b.emptied.Sound where
  vertices h := absurd rfl h
  rects h := absurd rfl h
  fills h := absurd rfl h
  whole := Nat.dvd_zero 3
  fewVertices := Nat.zero_le _
  fewRects := Nat.zero_le _
  fewFills := Nat.zero_le _

theorem eq_emptied_of_command? (h : b.command? = none) : b = b.emptied := by
  unfold command? at h
  split at h
  · cases h
  · rename_i hvertices
    split at h
    · cases h
    · rename_i hrects
      split at h
      · cases h
      · rename_i hfills
        obtain ⟨key, vertices, rects, fills⟩ := b
        simp only [ne_eq, Decidable.not_not] at hvertices hrects hfills
        rw [hvertices, hrects, hfills]
        rfl

section Shapes

variable (hb : b.Sound)
include hb

theorem Sound.vertices_eq_nil (h : b.key.shape ≠ .triangles) : b.vertices = [] :=
  Decidable.byContradiction fun hsome => h (hb.vertices hsome)

theorem Sound.rects_eq_nil (h : b.key.shape ≠ .rects) : b.rects = [] :=
  Decidable.byContradiction fun hsome => h (hb.rects hsome)

private theorem Sound.fills_eq_nil (h : b.key.shape ≠ .fills) : b.fills = [] :=
  Decidable.byContradiction fun hsome => h (hb.fills hsome)

private theorem Sound.drawings_of_triangles (h : b.key.shape = .triangles) :
    b.drawings = Drawing.triangles b.vertices := by
  have hrects := hb.rects_eq_nil (by rw [h]; decide)
  have hfills := hb.fills_eq_nil (by rw [h]; decide)
  simp [drawings, hrects, hfills]

private theorem Sound.drawings_of_rects (h : b.key.shape = .rects) :
    b.drawings = b.rects.map .rect := by
  have hvertices := hb.vertices_eq_nil (by rw [h]; decide)
  have hfills := hb.fills_eq_nil (by rw [h]; decide)
  simp [drawings, hvertices, hfills, Drawing.triangles]

private theorem Sound.drawings_of_fills (h : b.key.shape = .fills) :
    b.drawings = b.fills.map .fill := by
  have hvertices := hb.vertices_eq_nil (by rw [h]; decide)
  have hrects := hb.rects_eq_nil (by rw [h]; decide)
  simp [drawings, hvertices, hrects, Drawing.triangles]

theorem Sound.command {command : Command} (h : b.command? = some command) :
    command.drawings = b.drawings ∧ command.WithinLimits := by
  rcases command?_cases h with ⟨rfl, hsome⟩ | ⟨rfl, hsome⟩ | ⟨rfl, hsome⟩
  · exact ⟨(hb.drawings_of_triangles (hb.vertices hsome)).symm, hsome, hb.whole, hb.fewVertices⟩
  · exact ⟨(hb.drawings_of_rects (hb.rects hsome)).symm, hsome, hb.fewRects⟩
  · exact ⟨(hb.drawings_of_fills (hb.fills hsome)).symm, hsome, hb.fewFills⟩

private theorem Sound.addVertices (vertices : List Vertex) (hshape : b.key.shape = .triangles)
    (hwhole : 3 ∣ vertices.length) (hroom : b.vertices.length + vertices.length ≤ 96) :
    let after : Batch := { b with vertices := b.vertices ++ vertices }
    after.Sound ∧ after.drawings = b.drawings ++ Drawing.triangles vertices := by
  intro after
  have hsound : after.Sound :=
    { hb with
      vertices := fun _ => hshape
      whole := by
        rw [List.length_append]
        exact Nat.dvd_add hb.whole hwhole
      fewVertices := by
        rw [List.length_append]
        exact hroom }
  refine ⟨hsound, ?_⟩
  rw [hsound.drawings_of_triangles hshape, hb.drawings_of_triangles hshape,
    Drawing.triangles_append _ _ hb.whole]

/-- A primitive that suits a batch with room is drawn after all that waits there. -/
theorem Sound.add {primitive : Primitive} (hshape : b.key.shape = primitive.shape)
    (hcrowded : b.isCrowdedFor primitive = false) (hfull : b.isFull = false) :
    (b.add primitive).Sound ∧ (b.add primitive).drawings = b.drawings ++ primitive.drawings := by
  simp only [isFull, Bool.or_eq_false_iff, decide_eq_false_iff_not, ge_iff_le, Nat.not_le] at hfull
  cases primitive with
  | triangle p q r =>
    simp only [isCrowdedFor, decide_eq_false_iff_not, Nat.not_lt] at hcrowded
    exact hb.addVertices [p, q, r] hshape (Nat.dvd_refl 3) hcrowded
  | corners topLeft topRight bottomLeft bottomRight =>
    simp only [isCrowdedFor, decide_eq_false_iff_not, Nat.not_lt] at hcrowded
    exact hb.addVertices
      [topLeft, topRight, bottomLeft, bottomLeft, topRight, bottomRight] hshape ⟨2, rfl⟩ hcrowded
  | rect area =>
    have hsound : (b.add (.rect area)).Sound :=
      { hb with
        rects := fun _ => hshape
        fewRects := by
          rw [Batch.add, List.length_append]
          exact hfull.1 }
    refine ⟨hsound, ?_⟩
    rw [hsound.drawings_of_rects hshape, hb.drawings_of_rects hshape, Batch.add, List.map_append]
    rfl
  | fill area =>
    have hsound : (b.add (.fill area)).Sound :=
      { hb with
        fills := fun _ => hshape
        fewFills := by
          rw [Batch.add, List.length_append]
          exact hfull.2 }
    refine ⟨hsound, ?_⟩
    rw [hsound.drawings_of_fills hshape, hb.drawings_of_fills hshape, Batch.add, List.map_append]
    rfl

end Shapes

end Batch

end DisplayPipeline
