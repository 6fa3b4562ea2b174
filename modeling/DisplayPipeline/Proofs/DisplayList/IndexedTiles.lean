import DisplayPipeline.Proofs.DisplayList.Bounds

namespace DisplayPipeline

namespace TextureRegisters

variable {t : TextureRegisters}

/-- The texels of a tile are indices into the palette, and they were loaded. -/
def samplesIndices (t : TextureRegisters) (index : TileIndex) : Bool :=
  (t.tiles.get index).format?.any (·.isIndexed) && (t.loadFor? (t.tiles.get index)).isSome

private theorem exists_of_samplesIndices {index : TileIndex} (h : t.samplesIndices index = true) :
    ∃ format load, (t.tiles.get index).format? = some format ∧ format.isIndexed = true ∧
      t.loadFor? (t.tiles.get index) = some load := by
  obtain ⟨hformat, hload⟩ := Bool.and_eq_true_iff.mp h
  cases hsome : (t.tiles.get index).format? with
  | none =>
    rw [hsome] at hformat
    cases hformat
  | some format =>
    rw [hsome] at hformat
    obtain ⟨load, hload⟩ := Option.isSome_iff_exists.mp hload
    exact ⟨format, load, rfl, hformat, hload⟩

end TextureRegisters

private theorem Tile.width_pos (tile : Tile) : 0 < tile.width := by
  unfold width TileAxis.extent
  dsimp only
  split
  · omega
  · have hpower : 0 < 1 <<< min tile.layout.s.mask 10 := by
      rw [Nat.one_shiftLeft]
      exact Nat.two_pow_pos _
    omega

private theorem Scene.fittingRows?_isSome {tile : Tile} (h : tile.Bounded) {format : TexelFormat}
    (hformat : format.isIndexed = true) :
    (fittingRows? tile (format.rowBytes tile.width)).isSome = true := by
  have hle := Tile.width_le h
  have hpos := tile.width_pos
  have hrow : 0 < format.rowBytes tile.width ∧ format.rowBytes tile.width ≤ 4096 := by
    cases format with
    | ci4 =>
      change 0 < (tile.width * 4 + 7) / 8 ∧ (tile.width * 4 + 7) / 8 ≤ 4096
      omega
    | ci8 =>
      change 0 < (tile.width * 8 + 7) / 8 ∧ (tile.width * 8 + 7) / 8 ≤ 4096
      omega
    | _ => cases hformat
  rw [fittingRows?, Command.maxTexelBytes, if_neg (by omega)]
  rfl

namespace Scene

variable {scene : Scene} {index : TileIndex}

/-- The color image that the texels of a tile were drawn to, if they were. -/
def imageOf? (scene : Scene) (index : TileIndex) : Option Image :=
  (scene.registers.texture.loadFor? (scene.registers.texture.tiles.get index)).bind
    fun load => scene.colorImageAt? load.address

/-- Loaded indices that were not drawn are sent with a palette in the encoding in force. -/
theorem textureCommand?_of_indices (h : scene.registers.texture.Bounded)
    (hindices : scene.registers.texture.samplesIndices index = true)
    (himage : scene.imageOf? index = none)
    (unit : UInt8) :
    ∃ source, scene.textureCommand? unit index = some (.loadTexture ⟨unit, source⟩) ∧
      source.palette.map (·.format) = some scene.registers.render.modes.paletteFormat := by
  obtain ⟨format, load, hformat, hindexed, hload⟩ :=
    TextureRegisters.exists_of_samplesIndices hindices
  rw [imageOf?, hload, Option.bind_some] at himage
  obtain ⟨rows, hrows⟩ := Option.isSome_iff_exists.mp (fittingRows?_isSome (h.tiles index) hindexed)
  let tile := scene.registers.texture.tiles.get index
  have hgather : ∃ source, scene.gather? tile format load = some source ∧
      source.palette = scene.paletteOf tile format := by
    unfold gather?
    dsimp only
    rw [hrows]
    exact ⟨_, rfl, rfl⟩
  obtain ⟨source, hsource, hpalette⟩ := hgather
  refine ⟨source, ?_, ?_⟩
  · simp only [textureCommand?, hformat, hload, himage, Option.bind_eq_bind, Option.bind_some, tile,
      hsource]
    rfl
  · rw [hpalette]
    cases format <;> first | rfl | cases hindexed

/-- Loaded indices that were drawn are taken from the render target. -/
theorem textureCommand?_of_image {image : Image}
    (hindices : scene.registers.texture.samplesIndices index = true)
    (himage : scene.imageOf? index = some image) (unit : UInt8) :
    ∃ capture, scene.textureCommand? unit index = some (.captureColorBuffer capture) := by
  obtain ⟨format, load, hformat, _, hload⟩ := TextureRegisters.exists_of_samplesIndices hindices
  rw [imageOf?, hload, Option.bind_some] at himage
  refine ⟨scene.captureOf unit (scene.registers.texture.tiles.get index) image load.address, ?_⟩
  simp only [textureCommand?, hformat, hload, himage, Option.bind_eq_bind, Option.bind_some]
  rfl

end Scene

end DisplayPipeline
