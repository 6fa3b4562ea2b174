import DisplayPipeline.Device.ColorRead
import DisplayPipeline.Proofs.Texel.Rows

namespace DisplayPipeline

namespace TargetFormat

variable (format : TargetFormat)

private theorem length_store (v : UInt8) : (format.store v).length = format.channelBytes := by
  cases format <;> rfl

private theorem load_nil : format.load [] = [] := by
  cases format <;> rfl

private theorem load_flatMap_store (values : List UInt8) :
    format.load (values.flatMap format.store) = values.map format.shown := by
  induction values with
  | nil => exact format.load_nil
  | cons v values ih => rw [List.flatMap_cons, load_store_append, ih, List.map_cons]

end TargetFormat

namespace RenderTarget

variable (t : RenderTarget) (x y width height : Nat)

def runBytes : List UInt8 := (List.range width).flatMap fun i => (t.pixel (x + i) y).bytes

/-- What a region shows: its pixels row by row, each channel as the target's format holds it. -/
def shownBytes : List UInt8 :=
  (List.range height).flatMap fun j => (t.runBytes x (y + j) width).map t.format.shown

private theorem length_runBytes : (t.runBytes x y width).length = 4 * width := by
  rw [runBytes, List.length_flatMap]
  simp [Color.bytes, Nat.mul_comm]

private theorem rowBytes_le_copyStride : width * t.format.pixelBytes ≤ t.copyStride width := by
  rw [copyStride]
  omega

private theorem length_storedRun : ((t.runBytes x y width).flatMap t.format.store).length =
    width * t.format.pixelBytes := by
  rw [List.length_flatMap]
  simp only [TargetFormat.length_store, List.map_const', List.sum_replicate_nat,
    length_runBytes, TargetFormat.pixelBytes]
  ac_rfl

private theorem copyRow_eq : t.copyRow x y width = (t.runBytes x y width).flatMap t.format.store ++
    List.replicate (t.copyStride width - width * t.format.pixelBytes) 0 := by
  have hstored : ((List.range width).flatMap fun i => t.format.storePixel (t.pixel (x + i) y)) =
      (t.runBytes x y width).flatMap t.format.store := by
    rw [runBytes, List.flatMap_assoc]
    rfl
  rw [copyRow, hstored, length_storedRun]

private theorem length_copyRow : (t.copyRow x y width).length = t.copyStride width := by
  have hle := t.rowBytes_le_copyStride width
  rw [copyRow_eq, List.length_append, length_storedRun, List.length_replicate]
  omega

private theorem load_copyRow :
    t.format.load ((t.copyRow x y width).take (width * t.format.pixelBytes)) =
      (t.runBytes x y width).map t.format.shown := by
  rw [copyRow_eq, List.take_left' (t.length_storedRun x y width), TargetFormat.load_flatMap_store]

private def copyRows : List (List UInt8) := (List.range height).map fun j => t.copyRow x
    (y + j) width

private theorem length_of_mem_copyRows :
    ∀ row ∈ t.copyRows x y width height, row.length = t.copyStride width := by
  intro row hrow
  obtain ⟨j, -, rfl⟩ := List.mem_map.mp hrow
  exact t.length_copyRow x (y + j) width

private theorem length_copyRows : (t.copyRows x y width height).length = height := by
  rw [copyRows, List.length_map, List.length_range]

private theorem load_copyRows :
    ((t.copyRows x y width height).flatMap fun row =>
      t.format.load (row.take (width * t.format.pixelBytes))) = t.shownBytes x y width height := by
  simp only [copyRows, List.flatMap_map, load_copyRow, shownBytes]

private theorem copy?_eq_some {copy : Readback} (h : t.copy? x y width height = some copy) :
    copy = ⟨t.format, width, height, t.copyStride width, (t.copyRows x y width height).flatten⟩ := by
  unfold copy? at h
  split at h
  · cases h
    rw [copyRows, ← List.flatMap_def]
  · cases h

/-- A copy of a region shows the region. -/
theorem rgba?_copy {copy : Readback} (h : t.copy? x y width height = some copy) :
    copy.rgba? = some (t.shownBytes x y width height) := by
  have hrows := t.length_of_mem_copyRows x y width height
  have hlength := TexelDepth.length_flatten hrows
  have hruns := TexelDepth.runs_flatten hrows
  have hstride : copy.rowBytes ≤ copy.stride := by
    rw [t.copy?_eq_some x y width height h]
    exact t.rowBytes_le_copyStride width
  have hdata : copy.needed ≤ copy.data.length := by
    rw [Readback.needed]
    rw [t.copy?_eq_some x y width height h] at hstride ⊢
    dsimp only at hstride ⊢
    rw [hlength, length_copyRows]
    cases height with
    | zero => exact Nat.zero_le _
    | succ height =>
      rw [if_neg (Nat.succ_ne_zero height), Nat.add_sub_cancel, Nat.mul_succ]
      exact Nat.add_le_add_left hstride _
  rw [length_copyRows] at hruns
  rw [Readback.rgba?_eq hstride hdata, t.copy?_eq_some x y width height h]
  dsimp only
  rw [hruns]
  exact congrArg some (t.load_copyRows x y width height)

end RenderTarget

/-- What a device shows of a region, if that can be read. -/
def Device.shown? (d : Device) (r : Region) : Option (List UInt8) :=
  if d.faults.readbacks || !d.capabilities.includes .readback then none
  else if r.x0.toNat + r.width.toNat ≤ d.target.width ∧
      r.y0.toNat + r.height.toNat ≤ d.target.height then
    some (d.target.shownBytes r.x0.toNat r.y0.toNat r.width.toNat r.height.toNat)
  else none

/-- Shown pixels in the depth that is asked for. -/
def ColorRead.present (read : ColorRead) (narrowing : Narrowing) (shown : List UInt8) :
    Option (List UInt8) :=
  match read.bitDepth with
  | 32 => some shown
  | 16 => (TexelFormat.rgba5551.encode read.region.width.toNat read.region.height.toNat shown
      narrowing).toOption
  | _ => none

namespace ColorReader

section Copies

variable {d : Device} {r : Region}

private theorem shown?_of_copyNow_none (h : copyNow d r = none) : d.shown? r = none := by
  unfold copyNow Device.readPixels RenderTarget.copy? at h
  unfold Device.shown?
  split
  · rfl
  · rename_i hallowed
    rw [if_neg hallowed] at h
    split
    · rename_i hinside
      rw [if_pos hinside] at h
      cases h
    · rfl

private theorem shown?_of_copyNow {copy : Readback} (h : copyNow d r = some copy) :
    d.shown? r = copy.rgba? ∧ copy.width = r.width.toNat ∧ copy.height = r.height.toNat := by
  unfold copyNow Device.readPixels at h
  unfold Device.shown?
  split at h
  · cases h
  · rename_i hallowed
    rw [if_neg hallowed, d.target.rgba?_copy _ _ _ _ h]
    unfold RenderTarget.copy? at h
    split at h
    · rename_i hinside
      cases h
      exact ⟨if_pos hinside, rfl, rfl⟩
    · cases h

/-- A copy is converted to what the device showed. -/
theorem convert_copyNow (d : Device) (read : ColorRead) (narrowing : Narrowing) :
    (copyNow d read.region).bind (convert narrowing read.bitDepth) =
      (d.shown? read.region).bind (read.present narrowing) := by
  cases hcopy : copyNow d read.region with
  | none => rw [shown?_of_copyNow_none hcopy, Option.bind_none, Option.bind_none]
  | some copy =>
    obtain ⟨hshown, hwidth, hheight⟩ := shown?_of_copyNow hcopy
    rw [hshown, Option.bind_some, convert, hwidth, hheight]
    rfl

end Copies

end ColorReader

end DisplayPipeline
