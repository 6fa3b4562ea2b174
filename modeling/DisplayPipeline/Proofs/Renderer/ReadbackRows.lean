import DisplayPipeline.Proofs.Renderer.Screen
import DisplayPipeline.Proofs.Renderer.TargetCopies

/-!
# Rows of a read-back

A copy is brought back to canonical bytes exactly if its rows do not overlap and the last one is there
to its end. What comes back is the rows without what lies between them. Reading a region back thus
gives stretches of the target's own rows, although target and copy space their rows differently.
-/

namespace DisplayPipeline

namespace Readback

variable {r : Readback}

def row (r : Readback) (y : Nat) : List UInt8 := (r.data.drop (y * r.stride)).take r.rowBytes

/-- The data reaches the end of the last row. -/
def Complete (r : Readback) : Prop :=
  r.height = 0 ∨ (r.height - 1) * r.stride + r.rowBytes ≤ r.data.length

private theorem needed_le_iff : r.needed ≤ r.data.length ↔ r.Complete := by
  rw [needed, Complete, Nat.mul_comm r.stride]
  by_cases hheight : r.height = 0
  · simp [hheight]
  · simp [hheight]

private theorem rgba?_isSome_iff : r.rgba?.isSome ↔ r.rowBytes ≤ r.stride ∧ r.Complete := by
  rw [← needed_le_iff, rgba?]
  split_ifs with hlacking hempty
  · simp only [Option.isSome_none, Bool.false_eq_true, false_iff]
    omega
  all_goals
    simp only [Option.isSome_some, true_iff]
    omega

private theorem measures_of_rgba? {rgba : List UInt8} (h : r.rgba? = some rgba) :
    r.rowBytes ≤ r.stride ∧ r.Complete :=
  rgba?_isSome_iff.mp (Option.isSome_iff_exists.mpr ⟨rgba, h⟩)

private theorem Complete.length_row (h : r.Complete) {y : Nat} (hy : y < r.height) :
    (r.row y).length = r.rowBytes := by
  have hlast : (r.height - 1) * r.stride + r.rowBytes ≤ r.data.length := h.resolve_left (by omega)
  have hbefore : y * r.stride ≤ (r.height - 1) * r.stride := Nat.mul_le_mul_right _ (by omega)
  rw [row, List.length_take, List.length_drop]
  omega

private theorem rgba?_eq_rows {rgba : List UInt8} (h : r.rgba? = some rgba) :
    rgba = (List.range r.height).flatMap fun y => r.format.load (r.row y) := by
  obtain ⟨hstride, hcomplete⟩ := measures_of_rgba? h
  have hrows := rgba?_eq hstride (needed_le_iff.mpr hcomplete)
  rw [h, TexelDepth.runs_eq_map, List.flatMap_map] at hrows
  rw [Option.some_inj.mp hrows]
  congr 1
  funext y
  rw [List.take_take, Nat.min_eq_left hstride, Nat.mul_comm, row]

end Readback

namespace RenderTarget

variable {t : RenderTarget} {x y width height : Nat}

/-- A stretch of pixels, from one in a row on, as they lie in the target. -/
def stretch (t : RenderTarget) (x y width : Nat) : List Color :=
  (t.pixels.toList.drop (y * t.width + x)).take width

/-- Inside the target a stretch does not leave its row. -/
theorem stretch_eq_pixels (h : t.Full) (hx : x + width ≤ t.width) (hy : y < t.height) :
    t.stretch x y width = (List.range width).map fun i => t.pixel (x + i) y := by
  have hend : y * t.width + x + width ≤ t.pixels.size := by
    have hrows : (y + 1) * t.width ≤ t.height * t.width := Nat.mul_le_mul_right _ hy
    rw [Nat.add_one_mul] at hrows
    rw [h, Nat.mul_comm t.width]
    omega
  have hlength : (t.stretch x y width).length = width := by
    rw [stretch, List.length_take, List.length_drop, Array.length_toList]
    omega
  refine List.ext_getElem (by simp [hlength]) fun i hi _ => ?_
  rw [hlength] at hi
  have hbound : y * t.width + (x + i) < t.pixels.size := by omega
  simp only [stretch, List.getElem_take, List.getElem_drop, List.getElem_map, List.getElem_range,
    Array.getElem_toList, pixel]
  rw [← Array.getElem_eq_getD (h := hbound) Color.transparent]
  simp only [Nat.add_assoc]

private theorem runBytes_eq_stretch (h : t.Full) (hx : x + width ≤ t.width) (hy : y < t.height) :
    t.runBytes x y width = Color.flatten (t.stretch x y width) := by
  rw [runBytes, stretch_eq_pixels h hx hy, Color.flatten, List.flatMap_map]

private theorem shownBytes_eq_stretches (hformat : t.format = .rgba8) (h : t.Full)
    (hx : x + width ≤ t.width) (hy : y + height ≤ t.height) :
    t.shownBytes x y width height =
      (List.range height).flatMap fun j => Color.flatten (t.stretch x (y + j) width) := by
  have hshown : t.format.shown = id := by
    rw [hformat]
    rfl
  rw [shownBytes, hshown]
  refine List.flatMap_congr fun j hj => ?_
  have hrow : y + j < t.height := by
    have := List.mem_range.mp hj
    omega
  rw [List.map_id, runBytes_eq_stretch h hx hrow]

end RenderTarget

namespace Device

variable {d : Device}

private theorem readPixels_eq (hcan : d.capabilities.includes .readback = true)
    (hworks : d.faults.readbacks = false) (x y width height : Nat) :
    d.readPixels x y width height = d.target.copy? x y width height := by
  rw [readPixels, hcan, hworks]
  rfl

/-- Whether a copy can be brought back depends on its measures alone, and what comes back is its rows.
A region of a target of bytes that is read and brought back is that region of the target, row by row;
outside the target nothing is read. Sums are exact here: one that 32 bits cannot hold is beyond every
target that they can measure. -/
theorem readback_showsRows :
    (∀ r : Readback, (r.rgba?.isSome ↔ r.rowBytes ≤ r.stride ∧ r.Complete) ∧
      ∀ rgba, r.rgba? = some rgba →
        (∀ y < r.height, (r.row y).length = r.rowBytes) ∧
        rgba = ((List.range r.height).flatMap fun y => r.format.load (r.row y)) ∧
        (r.format = .rgba8 → rgba = (List.range r.height).flatMap r.row)) ∧
    ∀ d : Device, d.capabilities.includes .readback = true → d.faults.readbacks = false →
      d.target.format = .rgba8 → d.target.Full → ∀ x y width height : UInt32,
      let inside := x.toNat + width.toNat ≤ d.target.width ∧ y.toNat + height.toNat ≤ d.target.height
      let read := d.readPixels x.toNat y.toNat width.toNat height.toNat
      (inside → ∃ copy, read = some copy ∧ copy.rgba? = some ((List.range height.toNat).flatMap
        fun j => Color.flatten (d.target.stretch x.toNat (y.toNat + j) width.toNat))) ∧
      (¬ inside → read = none) ∧
      (d.target.width < UInt32.size → UInt32.size ≤ x.toNat + width.toNat → read = none) ∧
      (d.target.height < UInt32.size → UInt32.size ≤ y.toNat + height.toNat → read = none) := by
  refine ⟨fun r => ⟨Readback.rgba?_isSome_iff, fun rgba hrgba => ?_⟩, ?_⟩
  · obtain ⟨-, hcomplete⟩ := Readback.measures_of_rgba? hrgba
    have hrows := Readback.rgba?_eq_rows hrgba
    refine ⟨fun y hy => hcomplete.length_row hy, hrows, fun hformat => ?_⟩
    rw [hrows, hformat]
    rfl
  · intro d hcan hworks hformat hfull x y width height inside read
    have hread : read = d.target.copy? x.toNat y.toNat width.toNat height.toNat :=
      readPixels_eq hcan hworks _ _ _ _
    have houtside (hout : ¬ inside) : read = none := by rw [hread, RenderTarget.copy?, if_neg hout]
    refine ⟨fun hin => ?_, houtside, fun hwidth hsum => ?_, fun hheight hsum => ?_⟩
    · obtain ⟨copy, hcopy⟩ : ∃ copy, read = some copy :=
        ⟨_, by rw [hread, RenderTarget.copy?, if_pos hin]⟩
      refine ⟨copy, hcopy, ?_⟩
      rw [d.target.rgba?_copy _ _ _ _ (hread ▸ hcopy),
        RenderTarget.shownBytes_eq_stretches hformat hfull hin.1 hin.2]
    · exact houtside fun hin => by omega
    · exact houtside fun hin => by omega

/-- The two right columns of a target that was filled but for its first column and row, and a region
one column further. The last row of a copy may end where its pixels end. -/
theorem readback_showsRows_rightEdge :
    let d := (ofSpec { width := 4, height := 2 }).fill ⟨1, 1, 100, 100, ⟨7, 8, 9, 255⟩⟩
    let short : Readback := ⟨.rgba8, 1, 2, 6, [1, 2, 3, 4, 0, 0, 5, 6, 7, 8]⟩
    (∃ copy, d.readPixels 2 0 2 2 = some copy ∧
      copy.rgba? = some [0, 0, 0, 0, 0, 0, 0, 0, 7, 8, 9, 255, 7, 8, 9, 255]) ∧
      d.readPixels 3 0 2 2 = none ∧ d.readPixels 0xFFFFFFFF 0 2 2 = none ∧
      short.rgba? = some [1, 2, 3, 4, 5, 6, 7, 8] ∧ (short.row 1).length = 4 := by
  intro d short
  obtain ⟨hcopies, hdevices⟩ := readback_showsRows
  have hregion := hdevices d (by decide) rfl rfl (by decide +kernel)
  obtain ⟨-, houtside, -, -⟩ := hregion 3 0 2 2
  obtain ⟨-, -, hbeyond, -⟩ := hregion 0xFFFFFFFF 0 2 2
  have hshort : short.rgba? = some [1, 2, 3, 4, 5, 6, 7, 8] := by decide +kernel
  refine ⟨?_, houtside (by decide +kernel), hbeyond (by decide +kernel) (by decide +kernel), hshort,
    ((hcopies short).2 _ hshort).1 1 (by decide)⟩
  obtain ⟨copy, hread, hshown⟩ := (hregion 2 0 2 2).1 (by decide +kernel)
  exact ⟨copy, hread, hshown.trans (by decide +kernel)⟩

end Device

end DisplayPipeline
