import DisplayPipeline.Proofs.Combiner.Histories
import DisplayPipeline.Proofs.DisplayList.Drawings
import DisplayPipeline.Proofs.Renderer.Drawing
import DisplayPipeline.Proofs.Renderer.LiveHandles

/-!
# What is seen of commands

Fills are all that changes the pixels of a target. A fill colors the pixels of its rectangle inside
the target and no others, and the frame that a command ends has the pixels of the target.
-/

namespace DisplayPipeline

/-- The right and lower edges are not part of a fill. -/
def FillRect.Covers (r : FillRect) (x y : Nat) : Prop :=
  (r.x0.toNat ≤ x ∧ x < r.x1.toNat) ∧ r.y0.toNat ≤ y ∧ y < r.y1.toNat

instance (r : FillRect) (x y : Nat) : Decidable (r.Covers x y) :=
  inferInstanceAs (Decidable (_ ∧ _ ∧ _))

namespace RenderTarget

variable {t : RenderTarget} {c d : Color}

def Full (t : RenderTarget) : Prop := t.pixels.size = t.width * t.height

instance (t : RenderTarget) : Decidable t.Full := inferInstanceAs (Decidable (_ = _))

theorem full_blank (format : TargetFormat) (width height : Nat) :
    (blank format width height).Full := by
  simp [Full, blank]

@[simp]
theorem size_paintRun (c : Color) (index count : Nat) (pixels : Array Color) :
    (paintRun c index count pixels).size = pixels.size := by
  induction count generalizing index pixels with
  | zero => rfl
  | succ count ih => rw [paintRun, ih, Array.size_setIfInBounds]

private theorem getD_paintRun (index count i : Nat) (pixels : Array Color) (hi : i < pixels.size) :
    (paintRun c index count pixels).getD i d =
      if index ≤ i ∧ i < index + count then c else pixels.getD i d := by
  induction count generalizing index pixels with
  | zero => rw [paintRun, if_neg (by omega)]
  | succ count ih =>
    rw [paintRun, ih _ _ (by simpa using hi)]
    by_cases hfirst : index = i
    · rw [if_neg (by omega), if_pos (by omega), Array.getD_eq_getD_getElem?,
        Array.getElem?_setIfInBounds, if_pos hfirst, if_pos (by omega)]
      rfl
    · have hother : (pixels.setIfInBounds index c).getD i d = pixels.getD i d := by
        rw [Array.getD_eq_getD_getElem?, Array.getElem?_setIfInBounds, if_neg hfirst,
          Array.getD_eq_getD_getElem?]
      rw [hother]
      by_cases hinside : index + 1 ≤ i ∧ i < index + 1 + count
      · rw [if_pos hinside, if_pos (by omega)]
      · rw [if_neg hinside, if_neg (by omega)]

@[simp]
theorem size_paintRows (c : Color) (width index count rows : Nat) (pixels : Array Color) :
    (paintRows c width index count rows pixels).size = pixels.size := by
  induction rows generalizing index pixels with
  | zero => rfl
  | succ rows ih => rw [paintRows, ih, size_paintRun]

private theorem getD_paintRows (width index count rows i : Nat) (pixels : Array Color)
    (hi : i < pixels.size) :
    (paintRows c width index count rows pixels).getD i d =
      if ∃ row < rows, index + row * width ≤ i ∧ i < index + row * width + count then c
      else pixels.getD i d := by
  induction rows generalizing index pixels with
  | zero => simp [paintRows]
  | succ rows ih =>
    rw [paintRows, ih _ _ (by simpa using hi), getD_paintRun _ _ _ _ hi]
    have hrows : (∃ row < rows + 1, index + row * width ≤ i ∧ i < index + row * width + count) ↔
        (index ≤ i ∧ i < index + count) ∨
          ∃ row < rows, index + width + row * width ≤ i ∧
            i < index + width + row * width + count := by
      rw [Nat.exists_lt_succ_left]
      simp only [Nat.zero_mul, Nat.add_zero, Nat.succ_mul, Nat.add_assoc, Nat.add_comm width]
    rw [if_congr hrows rfl rfl]
    by_cases hfirst : index ≤ i ∧ i < index + count
    · rw [if_pos (Or.inl hfirst), if_pos hfirst, ite_self]
    · simp only [hfirst, false_or, if_false]

private theorem within_row_iff {width count row x0 x y : Nat} (hx : x < width)
    (hrun : x0 + count ≤ width) :
    (row * width + x0 ≤ y * width + x ∧ y * width + x < row * width + x0 + count) ↔
      y = row ∧ x0 ≤ x ∧ x < x0 + count := by
  constructor
  · rintro ⟨hstart, hend⟩
    have hrow : y = row := by
      rcases Nat.lt_trichotomy y row with hlt | hsame | hgt
      · have := Nat.mul_le_mul_right width (Nat.succ_le_of_lt hlt)
        rw [Nat.succ_mul] at this
        omega
      · exact hsame
      · have := Nat.mul_le_mul_right width (Nat.succ_le_of_lt hgt)
        rw [Nat.succ_mul] at this
        omega
    subst hrow
    omega
  · rintro ⟨rfl, hstart, hend⟩
    omega

theorem Full.fill (h : t.Full) (r : FillRect) : (t.fill r).Full := by
  rw [Full] at h ⊢
  rw [RenderTarget.fill]
  simpa using h

theorem pixel_fill (h : t.Full) (r : FillRect) {x y : Nat} (hx : x < t.width) (hy : y < t.height) :
    (t.fill r).pixel x y = if r.Covers x y then r.color else t.pixel x y := by
  have hi : y * t.width + x < t.pixels.size := by
    have := Nat.mul_le_mul_left t.width (Nat.succ_le_of_lt hy)
    rw [Nat.mul_succ, Nat.mul_comm] at this
    rw [h]
    omega
  rw [pixel, RenderTarget.fill]
  dsimp only
  rw [getD_paintRows _ _ _ _ _ _ hi, ← pixel]
  congr 1
  rw [eq_iff_iff, FillRect.Covers]
  constructor
  · rintro ⟨row, hrow, hinside⟩
    have hrun : r.x0.toNat + (min r.x1.toNat t.width - r.x0.toNat) ≤ t.width := by omega
    have hplace : r.y0.toNat * t.width + r.x0.toNat + row * t.width =
        (r.y0.toNat + row) * t.width + r.x0.toNat := by
      rw [Nat.add_mul]
      omega
    rw [hplace, within_row_iff hx hrun] at hinside
    omega
  · rintro ⟨⟨hleft, hright⟩, htop, hbottom⟩
    refine ⟨y - r.y0.toNat, by omega, ?_⟩
    have hplace : r.y0.toNat * t.width + r.x0.toNat + (y - r.y0.toNat) * t.width =
        y * t.width + r.x0.toNat := by
      rw [Nat.add_right_comm, ← Nat.add_mul, Nat.add_sub_cancel' htop]
    rw [hplace]
    omega

def paint (t : RenderTarget) : Drawing → RenderTarget
  | .fill r => t.fill r
  | .triangle _ _ _ | .rect _ => t

private theorem foldl_paint_triangles (t : RenderTarget) (vertices : List Vertex) :
    (Drawing.triangles vertices).foldl paint t = t := by
  induction vertices using Drawing.triangles.induct with
  | case1 a b c rest ih => exact ih
  | case2 vertices hshort =>
    rw [Drawing.triangles]
    · rfl
    · exact hshort

private theorem foldl_paint_rects (t : RenderTarget) (rects : List TexturedRect) :
    (rects.map Drawing.rect).foldl paint t = t := by
  induction rects with
  | nil => rfl
  | cons rect rects ih => exact ih

end RenderTarget

namespace Device

private theorem target_fills (d : Device) (rects : List FillRect) :
    (rects.foldl fill d).target = (rects.map Drawing.fill).foldl RenderTarget.paint d.target := by
  induction rects generalizing d with
  | nil => rfl
  | cons rect rects ih => exact ih (d.fill rect)

private theorem draw_target (d : Device) (draw : Draw) :
    (d.draw draw).1.target = d.target ∧ (d.draw draw).1.faults = d.faults := by
  rw [Device.draw]
  split <;> exact ⟨rfl, rfl⟩

end Device

namespace Renderer

variable {r after last : Renderer}

/-- What is seen, and whether frames come out, is the same. -/
structure SameScreen (r after : Renderer) : Prop where
  target : after.device.target = r.device.target
  faults : after.device.faults = r.device.faults
  frames : after.frames = r.frames

theorem SameScreen.refl (r : Renderer) : r.SameScreen r := ⟨rfl, rfl, rfl⟩

theorem SameScreen.trans (h : r.SameScreen after) (h' : after.SameScreen last) :
    r.SameScreen last :=
  ⟨h'.target.trans h.target, h'.faults.trans h.faults, h'.frames.trans h.frames⟩

private theorem sameScreen_bindSource (r : Renderer) (unit : UInt8) (source : TextureSource) :
    r.SameScreen (r.bindSource unit source) := by
  obtain ⟨tally, events, hbind, -⟩ := r.bindSource_eq unit source
  have hdevice := r.textures.fetch_sameBesideTextures source r.device
  rw [hbind]
  exact ⟨hdevice.keeps Device.target fun _ _ => rfl, hdevice.keeps Device.faults fun _ _ => rfl, rfl⟩

private theorem sameScreen_capture (r : Renderer) (capture : ColorCapture) :
    r.SameScreen (r.capture capture) := by
  rw [Renderer.capture]
  cases r.reader.read r.device capture.read with
  | mk reader bytes =>
    cases bytes with
    | none => exact ⟨rfl, rfl, rfl⟩
    | some bytes =>
      have hbound := sameScreen_bindSource
        { r with reader, tally := { r.tally with colorReads := r.tally.colorReads + 1 } }
        capture.unit (captureSource capture bytes)
      exact ⟨hbound.target, hbound.faults, hbound.frames⟩

theorem sameScreen_invalidate (r : Renderer) (address length : UInt32) :
    r.SameScreen (r.invalidate address length) := by
  have hdevice := r.textures.invalidate_sameBesideTextures (.ofLength address length) r.device
  exact ⟨hdevice.keeps Device.target fun _ _ => rfl, hdevice.keeps Device.faults fun _ _ => rfl, rfl⟩

private theorem sameScreen_currentProgram (r : Renderer) : r.SameScreen r.currentProgram.1 := by
  have hdevice := r.programs.build_sameBesidePrograms r.key r.device
  exact ⟨hdevice.keeps Device.target fun _ _ => rfl, hdevice.keeps Device.faults fun _ _ => rfl, rfl⟩

private theorem sameScreen_drawWith (r : Renderer) (program : ProgramHandle)
    (vertices : List Vertex) :
    r.SameScreen (r.drawWith program vertices) := by
  obtain ⟨htarget, hfaults⟩ := r.device.draw_target (r.drawOf program vertices)
  rw [drawWith]
  cases hdraw : r.device.draw (r.drawOf program vertices) with
  | mk device answer =>
    rw [hdraw] at htarget hfaults
    cases answer <;> exact ⟨htarget, hfaults, rfl⟩

private theorem sameScreen_draw (r : Renderer) (vertices : List Vertex) :
    r.SameScreen (r.draw vertices) := by
  by_cases hempty : vertices.isEmpty = true
  · rw [draw_empty hempty]
    exact .refl r
  · have hready := r.sameScreen_currentProgram
    cases hcurrent : r.currentProgram with
    | mk ready program =>
      rw [hcurrent] at hready
      cases program with
      | none =>
        rw [draw_skipped hempty hcurrent]
        exact ⟨hready.target, hready.faults, hready.frames⟩
      | some program =>
        rw [draw_drawWith hempty hcurrent]
        exact hready.trans (ready.sameScreen_drawWith program vertices)

private theorem target_execute (r : Renderer) (command : Command) :
    (r.execute command).device.target =
      command.drawings.foldl RenderTarget.paint r.device.target := by
  cases command with
  | setCombine | setOtherModes | setColors => rfl
  | loadTexture load => exact (r.sameScreen_bindSource _ _).target
  | invalidateRange address length => exact (r.sameScreen_invalidate _ _).target
  | captureColorBuffer capture => exact (r.sameScreen_capture capture).target
  | drawTriangles vertices =>
    rw [Command.drawings, RenderTarget.foldl_paint_triangles]
    exact (r.sameScreen_draw vertices).target
  | drawRects rects =>
    rw [Command.drawings, RenderTarget.foldl_paint_rects]
    exact (r.sameScreen_draw _).target
  | fillRects rects => exact r.device.target_fills rects
  | endFrame =>
    obtain ⟨shown, frame, hpresent⟩ := r.device.present_eq
    rw [execute, endFrame, hpresent]
    rfl

private theorem faults_execute (r : Renderer) (command : Command) :
    (r.execute command).device.faults = r.device.faults := by
  cases command with
  | setCombine | setOtherModes | setColors => rfl
  | loadTexture load => exact (r.sameScreen_bindSource _ _).faults
  | invalidateRange address length => exact (r.sameScreen_invalidate _ _).faults
  | captureColorBuffer capture => exact (r.sameScreen_capture capture).faults
  | drawTriangles vertices => exact (r.sameScreen_draw vertices).faults
  | drawRects rects => exact (r.sameScreen_draw _).faults
  | fillRects rects =>
    rw [execute, Renderer.fill, Device.fill_eq]
  | endFrame =>
    obtain ⟨shown, frame, hpresent⟩ := r.device.present_eq
    rw [execute, endFrame, hpresent]

/-- Commands paint what they draw, one after the other. -/
theorem target_foldl_execute (r : Renderer) (commands : List Command) :
    (commands.foldl execute r).device.target =
      (commands.flatMap Command.drawings).foldl RenderTarget.paint r.device.target := by
  induction commands generalizing r with
  | nil => rfl
  | cons command commands ih =>
    rw [List.foldl_cons, ih, target_execute, List.flatMap_cons, List.foldl_append]

theorem faults_foldl_execute (r : Renderer) (commands : List Command) :
    (commands.foldl execute r).device.faults = r.device.faults := by
  induction commands generalizing r with
  | nil => rfl
  | cons command commands ih => rw [List.foldl_cons, ih, faults_execute]

theorem frames_endFrame (hformat : r.device.target.format = .rgba8)
    (hshown : r.device.faults.frames = false) :
    (r.execute .endFrame).frames = r.frames.push
      ⟨r.device.target.width, r.device.target.height, r.device.target.pixels⟩ := by
  rw [execute, endFrame, Device.present, hshown]
  simp [RenderTarget.frame, hformat]

end Renderer

end DisplayPipeline
