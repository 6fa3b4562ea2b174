import DisplayPipeline.Proofs.Checked.Running
import DisplayPipeline.Proofs.DisplayList.Gathering
import DisplayPipeline.Proofs.DisplayList.IndexedTiles
import DisplayPipeline.Proofs.DisplayList.LegalCommands
import DisplayPipeline.Proofs.DisplayList.LoadHistory
import DisplayPipeline.Proofs.Texel.Pixels

/-!
# Texels that tiles sample

What a texture unit is given when its tile was loaded. The texels are bytes of memory, row by row from
where the load began, as many as the tile's size in its format takes, and they decode to pixels with the
palette that comes with them.
-/

namespace DisplayPipeline

namespace Ram

variable (ram : Ram)

private theorem byte_at (address : UInt32) (first second : Nat) :
    some (ram.byte (address + UInt32.ofNat first + UInt32.ofNat second)) =
      ram.bytes.data[(address.toNat + first + second) % ram.size]? := by
  have hoffset := ram.toNat_clamp_add_ofNat address first second
  have hin : (address.toNat + first + second) % ram.size < ram.bytes.size :=
    Nat.mod_lt _ ram.size_pos
  rw [ram.byte_eq_get hoffset hin, Array.getElem?_eq_getElem hin]
  rfl

end Ram

namespace Scene

private theorem getElem?_gatherRows (ram : Ram) (address : UInt32)
    {stride rowBytes rows row i : Nat} (hrow : row < rows) (hi : i < rowBytes) :
    (gatherRows ram address stride rowBytes rows)[row * rowBytes + i]? =
      ram.bytes.data[(address.toNat + row * stride + i) % ram.size]? := by
  have hlength : ∀ line ∈ (List.range rows).map fun row =>
      (ram.copy (address + UInt32.ofNat (row * stride)) rowBytes).data.toList,
      line.length = rowBytes := by
    intro line hline
    obtain ⟨row, -, rfl⟩ := List.mem_map.mp hline
    rw [Ram.toList_copy, List.length_map, List.length_range]
  rw [gatherRows, List.flatMap_def, TexelDepth.getElem?_flatten hlength hi, ← ram.byte_at]
  simp [hrow, Ram.toList_copy, hi]

private theorem lt_spanLength {stride rowBytes rows row i : Nat} (hrow : row < rows)
    (hi : i < rowBytes) :
    row * stride + i < spanLength stride rowBytes rows := by
  have hbefore : row * stride ≤ stride * (rows - 1) := by
    rw [Nat.mul_comm]
    exact Nat.mul_le_mul_left stride (by omega)
  rw [spanLength, if_neg (by omega)]
  omega

private theorem spanLength_lt {stride rowBytes rows : Nat} (hstride : stride ≤ 16384)
    (hrow : 0 < rowBytes) (hrows : rows * rowBytes ≤ Command.maxTexelBytes) :
    spanLength stride rowBytes rows < UInt32.size := by
  have hlarge : 16384 * 4096 + 4096 < UInt32.size := by decide
  rw [Command.maxTexelBytes] at hrows
  unfold spanLength
  split
  · exact Nat.lt_of_le_of_lt (Nat.zero_le _) hlarge
  · rename_i hsome
    have hcount : rows ≤ rows * rowBytes := Nat.le_mul_of_pos_right _ hrow
    have hbytes : rowBytes ≤ rows * rowBytes := Nat.le_mul_of_pos_left _ (Nat.pos_of_ne_zero hsome)
    have hbefore : stride * (rows - 1) ≤ 16384 * 4096 := Nat.mul_le_mul hstride (by omega)
    omega

end Scene

/-- What a texture unit is given of memory for a tile, by way of a load whose rows are `stride` bytes
apart. -/
structure TextureSource.SampledBy (scene : Scene) (tile : Tile) (load : TextureMemoryLoad)
    (stride : Nat) (source : TextureSource) : Prop where
  format : tile.format? = some source.format
  width : source.width.toNat = tile.width
  address : source.address = load.address
  /-- The rows of a block are as far apart as the tile says, or else lie side by side. -/
  spaced : load.stride = some stride ∨ load.stride = none ∧
    stride = if tile.lineBytes = 0 then source.format.rowBytes tile.width else tile.lineBytes
  bytes : ∀ row < source.height.toNat, ∀ i < source.format.rowBytes tile.width,
    source.bytes[row * source.format.rowBytes tile.width + i]? =
      scene.ram.bytes.data[(load.address.toNat + row * stride + i) % scene.ram.size]?
  within : ∀ row < source.height.toNat, ∀ i < source.format.rowBytes tile.width,
    row * stride + i < source.sourceLength.toNat
  size : source.format.imageBytes? source.width.toNat source.height.toNat =
    some source.bytes.length
  small : source.bytes.length ≤ 4096
  fourBit : source.format = .ci4 → ∃ entries,
    source.palette = some ⟨scene.registers.render.modes.paletteFormat, entries⟩ ∧
    entries.size = 16 ∧ ∀ entry < 16,
      entries[entry]? = scene.registers.texture.palette.toArray[16 * tile.layout.bank + entry]?
  eightBit : source.format = .ci8 → source.palette =
    some ⟨scene.registers.render.modes.paletteFormat, scene.registers.texture.palette.toArray⟩
  unindexed : source.format.isIndexed = false → source.palette = none
  decodes : ∃ pixels, source.format.decode source.width.toNat source.height.toNat source.bytes
    source.palette = .ok pixels

namespace Scene

section Palettes

variable {scene : Scene} {tile : Tile}

private theorem paletteOf_ci4 (hbank : tile.layout.bank < 16) : ∃ entries,
    scene.paletteOf tile .ci4 = some ⟨scene.registers.render.modes.paletteFormat, entries⟩ ∧
    entries.size = 16 ∧ ∀ entry < 16,
      entries[entry]? = scene.registers.texture.palette.toArray[16 * tile.layout.bank + entry]? := by
  refine ⟨_, rfl, ?_, fun entry hentry => ?_⟩
  · rw [Array.size_extract, Vector.size_toArray]
    omega
  · rw [Array.getElem?_extract, Vector.size_toArray, if_pos (by omega)]

private theorem isSome_paletteOf {format : TexelFormat} (h : format.isIndexed = true) :
    (scene.paletteOf tile format).isSome = true := by
  cases format <;> first | rfl | cases h

private theorem paletteOf_unindexed {format : TexelFormat} (h : format.isIndexed = false) :
    scene.paletteOf tile format = none := by
  cases format <;> first | rfl | cases h

end Palettes

private theorem strideOf_spaced (tile : Tile) (load : TextureMemoryLoad) (rowBytes : Nat) :
    load.stride = some (strideOf tile load rowBytes) ∨ load.stride = none ∧
      strideOf tile load rowBytes = if tile.lineBytes = 0 then rowBytes else tile.lineBytes := by
  unfold strideOf
  cases load.stride with
  | some stride => exact Or.inl rfl
  | none => exact Or.inr ⟨rfl, rfl⟩

section Counts

variable {tile : Tile} {format : TexelFormat} {rows : Nat}

private theorem fittingRows?_le_height (htile : tile.Bounded)
    (hrows : fittingRows? tile (format.rowBytes tile.width) = some rows) : rows ≤ 1024 := by
  obtain ⟨-, -, hheight⟩ := le_of_fittingRows? hrows
  exact hheight.trans (TileAxis.extent_le _ _ htile.bounds.bottom)

theorem toNat_ofNat_of_le {n : Nat} (h : n ≤ 1024) : (UInt32.ofNat n).toNat = n :=
  Nat.mod_eq_of_lt (show n < 2 ^ 32 by omega)

private theorem canonicalSize_lt (hwidth : tile.width ≤ 1024) (hheight : rows ≤ 1024) :
    4 * tile.width * rows < TexelFormat.sizeLimit := by
  have hpixels : tile.width * rows ≤ 1024 * 1024 := Nat.mul_le_mul hwidth hheight
  have hlimit : 4 * (1024 * 1024) < TexelFormat.sizeLimit := by decide
  rw [Nat.mul_assoc]
  omega

private theorem toNat_sourceLength {stride : Nat} (hstride : stride ≤ 16384)
    (hrows : fittingRows? tile (format.rowBytes tile.width) = some rows) :
    (UInt32.ofNat (min (spanLength stride (format.rowBytes tile.width) rows)
      (UInt32.size - 1))).toNat = spanLength stride (format.rowBytes tile.width) rows := by
  obtain ⟨hrow, -, -⟩ := le_of_fittingRows? hrows
  have hspan := spanLength_lt hstride hrow (fittingRows?_le hrows)
  rw [Nat.min_eq_left (Nat.le_sub_one_of_lt hspan)]
  exact Nat.mod_eq_of_lt hspan

end Counts

private theorem sampledBy_of_gather? {scene : Scene} {tile : Tile} {format : TexelFormat}
    {load : TextureMemoryLoad} {source : TextureSource} (htile : tile.Bounded)
    (hload : ∀ stride, load.stride = some stride → stride ≤ 16384)
    (hformat : tile.format? = some format) (h : scene.gather? tile format load = some source) :
    ∃ stride, source.SampledBy scene tile load stride := by
  obtain ⟨rows, hrows, h⟩ := Option.bind_eq_some_iff.mp h
  cases h
  obtain ⟨-, hrowLe, -⟩ := le_of_fittingRows? hrows
  have hstride := strideOf_le htile.layout hload hrowLe
  have hspaced := strideOf_spaced tile load (format.rowBytes tile.width)
  refine ⟨strideOf tile load (format.rowBytes tile.width), ?_⟩
  generalize strideOf tile load (format.rowBytes tile.width) = stride at hstride hspaced ⊢
  have hheight := fittingRows?_le_height htile hrows
  have hwidth := toNat_ofNat_of_le (Tile.width_le htile)
  have hcount := toNat_ofNat_of_le hheight
  have hsize := canonicalSize_lt (Tile.width_le htile) hheight
  have hlength : (gatherRows scene.ram load.address stride (format.rowBytes tile.width)
      rows).length = format.rowBytes tile.width * rows := by
    rw [length_gatherRows, Nat.mul_comm]
  constructor
  case format => exact hformat
  case width => exact hwidth
  case address => rfl
  case spaced => exact hspaced
  case bytes =>
    intro row hrow i hi
    exact getElem?_gatherRows scene.ram load.address (hcount ▸ hrow) hi
  case within =>
    intro row hrow i hi
    dsimp only
    rw [toNat_sourceLength hstride hrows]
    exact lt_spanLength (hcount ▸ hrow) hi
  case size =>
    dsimp only
    rw [hwidth, hcount, hlength]
    exact format.imageBytes?_eq hsize
  case small =>
    dsimp only
    rw [length_gatherRows]
    exact fittingRows?_le hrows
  case fourBit =>
    rintro rfl
    exact paletteOf_ci4 htile.layout.bank
  case eightBit =>
    rintro rfl
    rfl
  case unindexed => exact paletteOf_unindexed
  case decodes =>
    dsimp only
    rw [hwidth, hcount]
    exact ⟨_, (TexelFormat.decode_eq_ok_iff hsize).mpr
      ⟨⟨hlength.ge, isSome_paletteOf⟩, rfl⟩⟩

/-- A texture that is loaded for a tile comes by way of the load that is remembered for it. -/
theorem sampledBy_of_textureCommand? {scene : Scene} (h : scene.registers.Bounded) {unit : UInt8}
    {index : TileIndex} {texture : TextureLoad}
    (hcommand : scene.textureCommand? unit index = some (.loadTexture texture)) :
    texture.unit = unit ∧ ∃ load stride,
      scene.registers.texture.loadFor? (scene.registers.texture.tiles.get index) = some load ∧
      texture.source.SampledBy scene (scene.registers.texture.tiles.get index) load stride := by
  obtain ⟨format, hformat, hcommand⟩ := Option.bind_eq_some_iff.mp hcommand
  obtain ⟨load, hload, hcommand⟩ := Option.bind_eq_some_iff.mp hcommand
  split at hcommand
  · cases hcommand
  · obtain ⟨source, hsource, hcommand⟩ := Option.bind_eq_some_iff.mp hcommand
    cases hcommand
    have hstrides := h.texture.strides load (TextureRegisters.loadFor?_mem hload)
    obtain ⟨stride, hsampled⟩ :=
      sampledBy_of_gather? (h.texture.tiles index) hstrides hformat hsource
    exact ⟨rfl, load, stride, hload, hsampled⟩

end Scene

namespace Hosting

variable {σ : Type}

/-- Whatever a host asked for and at whatever instruction of a run, a texture that is loaded for a tile
is what the tile samples by way of the latest load to its place in texture memory, or else of the
latest load of all. -/
theorem serveAll_samplesLatestLoad (settings : ListSettings) (o : Outlet σ) (sink : σ)
    (calls : List HostCall) (ram : Ram) (start : UInt32) (count : Nat) :
    let h := (Hosting.start settings sink).serveAll o calls
    let first := h.processor.machine ram start h.sink
    let made := (Hosting.start settings sink).loads o calls ++
      first.loadsFor o ram h.processor.settings count
    let m := (first.walkFor o ram h.processor.settings count).1
    ∀ (image : Ram) (unit : UInt8) (index : TileIndex) (texture : TextureLoad),
      let scene : Scene := ⟨image, h.processor.settings, m.registers⟩
      let tile := m.registers.texture.tiles.get index
      scene.textureCommand? unit index = some (.loadTexture texture) →
        texture.unit = unit ∧ ∃ load stride, latestLoad? made tile.layout.start = some load ∧
          texture.source.SampledBy scene tile load stride := by
  intro h first made m image unit index texture scene tile hcommand
  have hbounded : h.processor.registers.Bounded :=
    Checked.bounded_serveAll o calls (Registers.bounded_initial settings)
  have hm : m.registers.Bounded :=
    Machine.walkFor_keepsRegisters Scene.bounded_advance_fetch count hbounded
  have hserved : KeepsLatest ((Hosting.start settings sink).loads o calls)
      h.processor.registers.texture.loads := keepsLatest_serveAll calls keepsLatest_nil
  have hkept : KeepsLatest made m.registers.texture.loads :=
    Machine.contributions_kept (m := first) keptBy_keepsLatest count hserved
  obtain ⟨hunit, load, stride, hload, hsampled⟩ := Scene.sampledBy_of_textureCommand? hm hcommand
  rw [hkept.loadFor?] at hload
  exact ⟨hunit, load, stride, hload, hsampled⟩

/-- A list that loads two texels each of two rows of an image four texels wide, and the image. -/
def loadedTileRam : Ram where
  bytes := ⟨#[
    0xFD, 0x08, 0x00, 0x03, 0x00, 0x00, 0x00, 0x30, 0xF5, 0x88, 0x02, 0x05, 0x00, 0x00, 0x00, 0x00,
    0xF4, 0x00, 0x40, 0x00, 0x00, 0x00, 0x80, 0x04, 0xDF, 0x00, 0x00, 0x00, 0x00, 0x00, 0x00, 0x00,
    0x00, 0x00, 0x00, 0x00, 0x00, 0x00, 0x00, 0x00, 0x00, 0x00, 0x00, 0x00, 0x00, 0x00, 0x00, 0x00,
    0x00, 0x11, 0x22, 0x33, 0x44, 0x55, 0x66, 0x77, 0x88, 0x99, 0xAA, 0xBB, 0xCC, 0xDD, 0xEE, 0xFF]⟩
  -- instructions of eight bytes, as long as eight of them
  logSize := 3 + 3
  size_eq := by decide +kernel
  logSize_le := by decide

def loadedTile : Registers :=
  (((ListProcessor.ofSettings {}).machine loadedTileRam 0 ({} : Recording)).walkFor .recording
    loadedTileRam {} 3).1.registers

def loadedTexture : TextureLoad := ⟨0, ⟨49, 6, .i8, 2, 2, none, [0x11, 0x22, 0x55, 0x66]⟩⟩

theorem serveAll_samplesLatestLoad_twoByTwo :
    (⟨loadedTileRam, {}, loadedTile⟩ : Scene).textureCommand? 0 0 =
        some (.loadTexture loadedTexture) ∧
      loadedTexture.source.SampledBy ⟨loadedTileRam, {}, loadedTile⟩ (loadedTile.texture.tiles.get 0)
        ⟨5, 49, some 4⟩ 4 := by
  have hcommand : (⟨loadedTileRam, {}, loadedTile⟩ : Scene).textureCommand? 0 0 =
      some (.loadTexture loadedTexture) := by decide +kernel
  obtain ⟨-, load, stride, hload, hsampled⟩ := serveAll_samplesLatestLoad {} .recording
    ({} : Recording) [] loadedTileRam 0 3 loadedTileRam 0 0 loadedTexture hcommand
  have hlatest : load = ⟨5, 49, some 4⟩ := by
    apply Option.some_inj.mp
    rw [← hload]
    decide +kernel
  subst hlatest
  have hstride : stride = 4 := by
    cases hsampled.spaced with
    | inl hsome => exact (Option.some_inj.mp hsome).symm
    | inr hnone => cases hnone.1
  subst hstride
  exact ⟨hcommand, hsampled⟩

end Hosting

end DisplayPipeline
