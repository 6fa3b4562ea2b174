import DisplayPipeline.DisplayList.Request
import DisplayPipeline.Proofs.Checked.Textures

namespace DisplayPipeline.Checked

/-! ## Colors -/

def color5551 (word : UInt32) : Checked Color := do
  return {
    red := Channel.expand 5 (← place 32 (← fieldNat word 11 5))
    green := Channel.expand 5 (← place 32 (← fieldNat word 6 5))
    blue := Channel.expand 5 (← place 32 (← fieldNat word 1 5))
    alpha := Channel.expand 1 (← place 2 (← fieldNat word 0 1)) }

private theorem color5551_eq (word : UInt32) : color5551 word = .ok (.of5551 word) := by
  have hfive (shift : UInt32) : Word.fieldNat word shift 5 < 32 :=
    Word.fieldNat_lt word shift (by decide)
  have hone : Word.fieldNat word 0 1 < 2 := Word.fieldNat_lt word _ (by decide)
  simp (disch := decide) only [color5551, fieldNat_eq, ok_bind, place_eq (hfive 11),
    place_eq (hfive 6), place_eq (hfive 1), place_eq hone]
  rfl

def cycleType (m : Modes) : Checked CycleType := do
  match ← fieldNat m.high 20 2 with
  | 0 => return .one
  | 1 => return .two
  | 2 => return .copy
  | _ => return .fill

theorem cycleType_eq (m : Modes) : cycleType m = .ok m.cycleType := by
  rw [cycleType, fieldNat_eq (by decide) (by decide), ok_bind, Modes.cycleType]
  split <;> simp only [*, pure_eq_ok]

def rectColor (r : RenderRegisters) : Checked Color := do
  if (← cycleType r.modes) = .fill then
    if r.colorImage.isSixteenBit then color5551 (r.colors.fill >>> 16)
    else return Color.ofWord r.colors.fill
  else return Color.ofWord r.colors.prim

private theorem rectColor_eq (r : RenderRegisters) : rectColor r = .ok r.rectColor := by
  rw [rectColor, cycleType_eq, ok_bind, RenderRegisters.rectColor, RenderRegisters.fillColor]
  split
  · split
    · exact color5551_eq _
    · rfl
  · rfl

/-! ## Primitives -/

def vertexOf (scene : Scene) (v : LoadedVertex) : Checked Vertex := do
  let texture := scene.registers.texture
  let uv ← normalize (texture.tiles.get (← place 8 texture.use.tile)) v.texel
  return { scene.vertexOf v with u := uv.x, v := uv.y }

private theorem vertexOf_eq {scene : Scene} (h : scene.registers.Bounded) (v : LoadedVertex) :
    vertexOf scene v = .ok (scene.vertexOf v) := by
  simp only [vertexOf, place_eq (Fin.isLt _), ok_bind, Fin.eta, normalize_eq (h.texture.tiles _)]
  rfl

def cornersOf (scene : Scene) (corners : Corners) :
    Checked (Option (LoadedVertex × LoadedVertex × LoadedVertex)) := do
  let vertices := scene.registers.geometry.vertices
  if corners.a < 32 ∧ corners.b < 32 ∧ corners.c < 32 then
    return some (vertices.get (← place 32 corners.a), vertices.get (← place 32 corners.b),
      vertices.get (← place 32 corners.c))
  else return none

private theorem cornersOf_eq (scene : Scene) (corners : Corners) :
    cornersOf scene corners = .ok (scene.corners? corners) := by
  have hvertex {i : Nat} (h : i < 32) : scene.registers.geometry.vertices[i]? =
      some (scene.registers.geometry.vertices.get ⟨i, h⟩) := Vector.getElem?_eq_getElem h
  have hnone {i : Nat} (h : ¬ i < 32) : scene.registers.geometry.vertices[i]? = none :=
    Vector.getElem?_eq_none (Nat.le_of_not_lt h)
  unfold cornersOf Scene.corners?
  dsimp only
  by_cases ha : corners.a < 32
  · by_cases hb : corners.b < 32
    · by_cases hc : corners.c < 32
      · rw [if_pos ⟨ha, hb, hc⟩, place_eq ha, place_eq hb, place_eq hc, hvertex ha, hvertex hb,
          hvertex hc]
        rfl
      · rw [if_neg fun h => hc h.2.2, hvertex ha, hvertex hb, hnone hc]
        rfl
    · rw [if_neg fun h => hb h.2.1, hvertex ha, hnone hb]
      rfl
  · rw [if_neg fun h => ha h.1, hnone ha]
    rfl

def triangleRequest (scene : Scene) (corners : Corners) : Checked Request := do
  match ← cornersOf scene corners with
  | none => return .drop
  | some (a, b, c) =>
    let triangle : Triangle := ⟨a.clip, b.clip, c.clip⟩
    if !triangle.isVisible || triangle.isCulled scene.registers.render.geometryMode then return .drop
    else
      return .draw scene.triangleKey
        (.triangle (← vertexOf scene a) (← vertexOf scene b) (← vertexOf scene c))

private theorem triangleRequest_eq {scene : Scene} (h : scene.registers.Bounded)
    (corners : Corners) :
    triangleRequest scene corners = .ok (scene.triangleRequest corners) := by
  rw [triangleRequest, cornersOf_eq, ok_bind, Scene.triangleRequest]
  cases scene.corners? corners with
  | none => rfl
  | some found =>
    obtain ⟨a, b, c⟩ := found
    simp only [vertexOf_eq h, ok_bind]
    split <;> rfl

def fillRequests (scene : Scene) (bounds : QuarterRect) : Checked (List Request) := do
  let render := scene.registers.render
  let scissor := render.scissor
  let edge := if (← cycleType render.modes).isInclusive then 1 else 0
  let right ← sum 32 (bounds.right / 4) edge
  let bottom ← sum 32 (bounds.bottom / 4) edge
  let x0 := max (bounds.left / 4) (scissor.left / 4)
  let y0 := max (bounds.top / 4) (scissor.top / 4)
  let x1 := min right (scissor.right / 4)
  let y1 := min bottom (scissor.bottom / 4)
  if x0 ≥ x1 ∨ y0 ≥ y1 then return []
  else
    let color ← rectColor render
    return [.draw ⟨.fills, false, .ofNat 0, false⟩
      (.fill
        { x0 := Scene.fillCoordinate x0
          y0 := Scene.fillCoordinate y0
          x1 := Scene.fillCoordinate x1
          y1 := Scene.fillCoordinate y1
          color })]

private theorem fillRequests_eq (scene : Scene) {bounds : QuarterRect} (h : bounds.Bounded) :
    fillRequests scene bounds = .ok (scene.fillRequests bounds) := by
  have hedge : (if scene.registers.render.modes.cycleType.isInclusive then 1 else 0) ≤ 1 := by
    split <;> decide
  have hright := h.right
  have hbottom := h.bottom
  rw [fillRequests, cycleType_eq]
  simp only [ok_bind]
  rw [sum_eq (by omega), ok_bind, sum_eq (by omega), ok_bind, rectColor_eq]
  simp only [ok_bind, pure_eq_ok, Scene.fillRequests, apply_ite Except.ok]

def rectRequests (scene : Scene) (rect : RectRequest) : Checked (List Request) := do
  let cycle ← cycleType scene.registers.render.modes
  let copied := cycle = .copy
  let edge : Float32 := if cycle.isInclusive then 1 else 0
  let quarters (n : Nat) := Single.ofNat n / 4
  let x0 := quarters rect.bounds.left
  let y0 := quarters rect.bounds.top
  let x1 := quarters rect.bounds.right + edge
  let y1 := quarters rect.bounds.bottom + edge
  if x1 ≤ x0 ∨ y1 ≤ y0 then return []
  else
    let s := GeometryRegisters.texelOf (Word.upper rect.start)
    let t := GeometryRegisters.texelOf (Word.lower rect.start)
    let across := Scene.stepOf (Word.upper rect.step)
    let across := if copied then across / 4 else across
    let down := Scene.stepOf (Word.lower rect.step)
    let width := x1 - x0
    let height := y1 - y0
    let tile := scene.registers.texture.tiles.get (← place 8 rect.tile)
    if rect.flipped then
      let s1 := s + height * across
      let t1 := t + width * down
      let corner (x y : Float32) (texel : Vec2) : Checked Vertex := do
        let uv ← normalize tile texel
        return .onScreen scene.settings.screen.x scene.settings.screen.y x y uv.x uv.y
      return [.draw ⟨.triangles, true, rect.tile, copied⟩
        (.corners (← corner x0 y0 ⟨s, t⟩) (← corner x1 y0 ⟨s, t1⟩) (← corner x0 y1 ⟨s1, t⟩)
          (← corner x1 y1 ⟨s1, t1⟩))]
    else
      let first ← normalize tile ⟨s, t⟩
      let last ← normalize tile ⟨s + width * across, t + height * down⟩
      return [.draw ⟨.rects, true, rect.tile, copied⟩
        (.rect ⟨x0, y0, x1, y1, first.x, first.y, last.x, last.y⟩)]

private theorem rectRequests_eq {scene : Scene} (h : scene.registers.Bounded) (rect : RectRequest) :
    rectRequests scene rect = .ok (scene.rectRequests rect) := by
  simp only [rectRequests, Scene.rectRequests, cycleType_eq, ok_bind, place_eq (Fin.isLt _), Fin.eta,
    normalize_eq (h.texture.tiles _), pure_eq_ok, apply_ite Except.ok]

def requests (scene : Scene) : Instruction → Checked (List Request)
  | .triangle corners => do return [← triangleRequest scene corners]
  | .twoTriangles first second => do
    return [← triangleRequest scene first, ← triangleRequest scene second]
  | .fillRect bounds => fillRequests scene bounds
  | .texturedRect rect => rectRequests scene rect
  | instruction => return scene.requests instruction

theorem requests_eq {scene : Scene} (h : scene.registers.Bounded) {instruction : Instruction}
    (hinstruction : instruction.Bounded) :
    requests scene instruction = .ok (scene.requests instruction) := by
  cases instruction with
  | triangle corners =>
    rw [requests, triangleRequest_eq h, ok_bind]
    rfl
  | twoTriangles first second =>
    rw [requests, triangleRequest_eq h, ok_bind, triangleRequest_eq h, ok_bind]
    rfl
  | fillRect bounds => exact fillRequests_eq scene hinstruction
  | texturedRect rect => exact rectRequests_eq h rect
  | _ => rfl

end DisplayPipeline.Checked
