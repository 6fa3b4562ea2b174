import DisplayPipeline.DisplayList.TextureFetch
import DisplayPipeline.Proofs.Ring.Arena

namespace DisplayPipeline

namespace Ram

variable (ram : Ram)

private theorem size_dvd : ram.size ∣ UInt32.size := by
  have hsize : UInt32.size = 1 <<< 32 := rfl
  rw [size, ram.size_eq, hsize, Nat.one_shiftLeft, Nat.one_shiftLeft]
  exact Nat.pow_dvd_pow 2 ram.logSize_le

private theorem mod_size_mod (n : Nat) : n % UInt32.size % ram.size = n % ram.size :=
  Nat.mod_mod_of_dvd n ram.size_dvd

theorem toNat_ofNat_mod (n : Nat) : (UInt32.ofNat n).toNat % ram.size = n % ram.size :=
  ram.mod_size_mod n

private theorem toNat_clamp_ofNat (n : Nat) :
    (ram.clamp (UInt32.ofNat n)).toNat = n % ram.size := by
  rw [toNat_clamp, toNat_ofNat_mod]

theorem toNat_clamp_add (a b : UInt32) :
    (ram.clamp (a + b)).toNat = (a.toNat + b.toNat) % ram.size := by
  rw [toNat_clamp, UInt32.toNat_add]
  exact ram.mod_size_mod _

theorem toNat_clamp_add_ofNat (address : UInt32) (first second : Nat) :
    (ram.clamp (address + UInt32.ofNat first + UInt32.ofNat second)).toNat =
      (address.toNat + first + second) % ram.size := by
  have hfirst : (address + UInt32.ofNat first).toNat % ram.size =
      (address.toNat + first) % ram.size := by
    rw [← toNat_clamp, toNat_clamp_add, Nat.add_mod, toNat_ofNat_mod, ← Nat.add_mod]
  rw [toNat_clamp_add, Nat.add_mod, hfirst, toNat_ofNat_mod, ← Nat.add_mod]

private theorem clamp_eq_of_mod {a b : UInt32} (h : a.toNat % ram.size = b.toNat % ram.size) :
    ram.clamp a = ram.clamp b := by
  apply UInt32.toNat_inj.mp
  rw [toNat_clamp, toNat_clamp, h]

theorem byte_eq_get {address : UInt32} {offset : Nat} (h : (ram.clamp address).toNat = offset)
    (hin : offset < ram.bytes.size) : ram.byte address = ram.bytes.get offset hin := by
  subst h
  rfl

private theorem byte_congr {a b : UInt32} (h : ram.clamp a = ram.clamp b) :
    ram.byte a = ram.byte b :=
  ram.byte_eq_get (congrArg UInt32.toNat h) _

private theorem byte_clamp (address : UInt32) : ram.byte
    (ram.clamp address) = ram.byte address := by
  apply byte_congr
  apply clamp_eq_of_mod
  rw [toNat_clamp, Nat.mod_mod]

private theorem getElem?_bytes {offset : Nat} (h : offset < ram.bytes.size) :
    ram.bytes.data.toList[offset]? = some (ram.byte (UInt32.ofNat offset)) := by
  have hclamp : (ram.clamp (UInt32.ofNat offset)).toNat = offset := by
    rw [toNat_clamp_ofNat]
    exact Nat.mod_eq_of_lt h
  have hlength : offset < ram.bytes.data.toList.length := h
  rw [List.getElem?_eq_getElem hlength, ram.byte_eq_get hclamp h]
  rfl

private theorem toList_extract {offset run : Nat} (h : offset + run ≤ ram.bytes.size) :
    (ram.bytes.extract offset (offset + run)).data.toList =
      (List.range run).map fun i => ram.byte (UInt32.ofNat (offset + i)) := by
  rw [← Pool.toList_eq_data]
  apply List.ext_getElem?
  intro i
  by_cases hi : i < run
  · rw [Pool.getElem?_extract hi, ram.getElem?_bytes (by omega), List.getElem?_map,
      List.getElem?_range hi]
    rfl
  · have hrun := Pool.length_extract h
    rw [List.getElem?_eq_none (by omega), List.getElem?_eq_none (by simpa using hi)]

private theorem toList_copyFrom (offset : Nat) (h : offset < ram.bytes.size) (count : Nat)
    (copied : ByteArray) :
    (ram.copyFrom offset h count copied).data.toList = copied.data.toList ++
      (List.range count).map fun i => ram.byte (UInt32.ofNat (offset + i)) := by
  fun_induction ram.copyFrom offset h count copied with
  | case1 => rw [List.range_zero, List.map_nil, List.append_nil]
  | case2 offset h count copied hcount run ih =>
    rw [ih, ByteArray.data_append, Array.toList_append, ram.toList_extract (by omega),
      List.append_assoc]
    -- What is left is read from the start of memory on.
    have hrest : (List.range (count - run)).map (fun i => ram.byte (UInt32.ofNat (0 + i))) =
        (List.range (count - run)).map fun i => ram.byte (UInt32.ofNat (offset + (run + i))) := by
      apply List.map_congr_left
      intro i hi
      have hi : i < count - run := List.mem_range.mp hi
      have hend : offset + run = ram.size := by
        change offset + run = ram.bytes.size
        omega
      apply byte_congr
      apply UInt32.toNat_inj.mp
      rw [toNat_clamp_ofNat, toNat_clamp_ofNat, ← Nat.add_assoc, hend, Nat.zero_add,
        Nat.add_mod_left]
    have hall : List.range count = List.range run ++ (List.range (count - run)).map (run + ·) := by
      rw [← List.range_add, Nat.add_sub_cancel' (by omega)]
    rw [hrest, hall, List.map_append, List.map_map]
    rfl

theorem toList_copy (address : UInt32) (count : Nat) :
    (ram.copy address count).data.toList =
      (List.range count).map fun i => ram.byte (address + UInt32.ofNat i) := by
  rw [copy, toList_copyFrom]
  refine (List.nil_append _).trans ?_
  apply List.map_congr_left
  intro i _
  apply byte_congr
  apply UInt32.toNat_inj.mp
  rw [toNat_clamp_ofNat, toNat_clamp, toNat_clamp_add, Nat.mod_add_mod, Nat.add_mod address.toNat,
    Nat.add_mod address.toNat, toNat_ofNat_mod]

/-- The offsets in memory of rows at a distance from each other. -/
def rowOffsets (address : UInt32) (stride rowBytes rows : Nat) : List UInt32 :=
  (List.range rows).flatMap fun row => (List.range rowBytes).map fun column =>
    ram.clamp (address + UInt32.ofNat (row * stride) + UInt32.ofNat column)

/-- Offsets are cut, so they are those of the rows only up to the size of memory. -/
theorem exists_of_mem_rowOffsets {address : UInt32} {stride rowBytes rows : Nat} {p : UInt32}
    (h : p ∈ ram.rowOffsets address stride rowBytes rows) :
    ∃ k, k < Scene.spanLength stride rowBytes rows ∧
      p.toNat = (address.toNat + k) % ram.size := by
  obtain ⟨row, hrow, h⟩ := List.mem_flatMap.mp h
  obtain ⟨column, hcolumn, rfl⟩ := List.mem_map.mp h
  have hrow : row < rows := List.mem_range.mp hrow
  have hcolumn : column < rowBytes := List.mem_range.mp hcolumn
  refine ⟨row * stride + column, ?_, ?_⟩
  · have hbefore : row * stride ≤ stride * (rows - 1) := by
      rw [Nat.mul_comm]
      exact Nat.mul_le_mul_left stride (by omega)
    rw [Scene.spanLength, if_neg (by omega)]
    omega
  · rw [toNat_clamp_add_ofNat, Nat.add_assoc]

private theorem two_mul_size_le (h : ram.size < UInt32.size) : 2 * ram.size ≤ UInt32.size := by
  obtain ⟨m, hm⟩ := ram.size_dvd
  have htwo : 2 ≤ m := by
    rcases m with _ | _ | m
    · omega
    · omega
    · omega
  rw [hm, Nat.mul_comm]
  exact Nat.mul_le_mul_left _ htwo

end Ram

def Span.Contains (s : Span) (address : Nat) : Prop := s.start ≤ address ∧ address < s.stop

namespace Scene

private theorem gatherRows_eq (ram : Ram) (address : UInt32) (stride rowBytes rows : Nat) :
    gatherRows ram address stride rowBytes rows =
      (ram.rowOffsets address stride rowBytes rows).map ram.byte := by
  rw [gatherRows, Ram.rowOffsets, List.map_flatMap]
  congr 1
  funext row
  rw [Ram.toList_copy, List.map_map]
  apply List.map_congr_left
  intro column _
  exact (ram.byte_clamp _).symm

/-- The offsets in memory that the texels of a tile are read from, if they are. -/
def gatheredOffsets (scene : Scene) (index : TileIndex) : List UInt32 :=
  let tile := scene.registers.texture.tiles.get index
  match tile.format?, scene.registers.texture.loadFor? tile with
  | some format, some load =>
    let rowBytes := format.rowBytes tile.width
    scene.ram.rowOffsets load.address (strideOf tile load rowBytes) rowBytes
      ((fittingRows? tile rowBytes).getD 0)
  | _, _ => []

section Loads

variable {scene : Scene} {unit : UInt8} {index : TileIndex} {load : TextureLoad}

/-- A texture that is loaded was gathered from rows of memory, and its range is that of the rows as
if memory did not end. -/
theorem rows_of_textureCommand?
    (h : scene.textureCommand? unit index = some (.loadTexture load)) :
    ∃ stride rowBytes rows,
      scene.gatheredOffsets index =
        scene.ram.rowOffsets load.source.address stride rowBytes rows ∧
      load.source.bytes = gatherRows scene.ram load.source.address stride rowBytes rows ∧
      load.source.sourceLength =
        UInt32.ofNat (min (spanLength stride rowBytes rows) (UInt32.size - 1)) := by
  obtain ⟨format, hformat, h⟩ := Option.bind_eq_some_iff.mp h
  obtain ⟨place, hplace, h⟩ := Option.bind_eq_some_iff.mp h
  split at h
  · cases h
  · obtain ⟨source, hsource, hload⟩ := Option.bind_eq_some_iff.mp h
    cases hload
    obtain ⟨rows, hrows, hsource⟩ := Option.bind_eq_some_iff.mp hsource
    cases hsource
    refine ⟨_, _, rows, ?_, rfl, rfl⟩
    simp only [gatheredOffsets, hformat, hplace, hrows, Option.getD_some]

theorem bytes_of_textureCommand?
    (h : scene.textureCommand? unit index = some (.loadTexture load)) :
    load.source.bytes = (scene.gatheredOffsets index).map scene.ram.byte := by
  obtain ⟨stride, rowBytes, rows, hoffsets, hbytes, -⟩ := rows_of_textureCommand? h
  rw [hoffsets, hbytes, gatherRows_eq]

theorem offset_lt_size (h : scene.textureCommand? unit index = some (.loadTexture load))
    {p : UInt32} (hp : p ∈ scene.gatheredOffsets index) : p.toNat < scene.ram.size := by
  obtain ⟨stride, rowBytes, rows, hoffsets, -, -⟩ := rows_of_textureCommand? h
  rw [hoffsets] at hp
  obtain ⟨k, -, hp⟩ := scene.ram.exists_of_mem_rowOffsets hp
  rw [hp]
  exact Nat.mod_lt _ scene.ram.size_pos

theorem contains_of_within (h : scene.textureCommand? unit index = some (.loadTexture load))
    (hsize : scene.ram.size < UInt32.size) (hwithin : load.source.span.stop ≤ scene.ram.size)
    {p : UInt32} (hp : p ∈ scene.gatheredOffsets index) :
    load.source.span.Contains p.toNat := by
  obtain ⟨stride, rowBytes, rows, hoffsets, -, hlength⟩ := rows_of_textureCommand? h
  rw [hoffsets] at hp
  obtain ⟨k, hk, hp⟩ := scene.ram.exists_of_mem_rowOffsets hp
  have htwo := scene.ram.two_mul_size_le hsize
  have hlarge : 2 < UInt32.size := by decide
  have hstop : load.source.span.stop = load.source.address.toNat +
      min (spanLength stride rowBytes rows) (UInt32.size - 1) := by
    have hcap : min (spanLength stride rowBytes rows) (UInt32.size - 1) < UInt32.size :=
      Nat.lt_of_le_of_lt (Nat.min_le_right _ _) (by decide)
    have hcapped : load.source.sourceLength.toNat =
        min (spanLength stride rowBytes rows) (UInt32.size - 1) := by
      rw [hlength]
      exact Nat.mod_eq_of_lt hcap
    rw [TextureSource.span, Span.ofLength, hcapped]
  rw [hstop] at hwithin
  have hplain : p.toNat = load.source.address.toNat + k := by
    rw [hp]
    exact Nat.mod_eq_of_lt (by omega)
  rw [Span.Contains, hstop, hplain]
  exact ⟨Nat.le_add_right _ _, by omega⟩

end Loads

end Scene

end DisplayPipeline
