import DisplayPipeline.DisplayList.TextureFetch
import DisplayPipeline.Proofs.Checked.Operations
import DisplayPipeline.Proofs.DisplayList.Bounds

namespace DisplayPipeline

/-! ## Bounds -/

namespace Scene

variable {tile : Tile}

theorem le_of_fittingRows? {rowBytes rows : Nat} (h : fittingRows? tile rowBytes = some rows) :
    0 < rowBytes ∧ rowBytes ≤ 4096 ∧ rows ≤ tile.height := by
  unfold fittingRows? at h
  split at h
  · cases h
  · rename_i hfits
    cases h
    rw [Command.maxTexelBytes] at hfits
    exact ⟨by omega, by omega, Nat.min_le_left _ _⟩

private theorem lineBytes_lt (h : tile.layout.Bounded) : tile.lineBytes < 8192 := by
  have hline := h.line
  unfold Tile.lineBytes
  split <;> omega

theorem strideOf_le (h : tile.layout.Bounded) {load : TextureMemoryLoad}
    (hload : ∀ stride, load.stride = some stride → stride ≤ 16384) {rowBytes : Nat}
    (hrow : rowBytes ≤ 4096) : strideOf tile load rowBytes ≤ 16384 := by
  have hline := lineBytes_lt h
  unfold strideOf
  split
  · rename_i stride hstride
    exact hload stride hstride
  · split <;> omega

end Scene

theorem TextureRegisters.loadFor?_mem {t : TextureRegisters} {tile : Tile}
    {load : TextureMemoryLoad} (h : t.loadFor? tile = some load) : load ∈ t.loads := by
  rw [loadFor?, Option.or_eq_some_iff] at h
  rcases h with hfound | ⟨-, hlatest⟩
  · exact List.mem_of_find?_eq_some hfound
  · exact List.mem_of_head? hlatest

namespace Checked

/-! ## Tiles -/

def extent (axis : TileAxis) (low high : Nat) : Checked Nat := do
  let size ← sum 32 ((high - low) / 4) 1
  if axis.mask = 0 then return size else return min size (← shiftLeft 32 1 (min axis.mask 10))

private theorem extent_eq (axis : TileAxis) (low : Nat) {high : Nat} (h : high < 4096) :
    extent axis low high = .ok (axis.extent low high) := by
  rw [extent, sum_eq (by omega), ok_bind, TileAxis.extent]
  split
  · rfl
  · rw [shiftLeft_one (by omega), ok_bind, Nat.one_shiftLeft]
    rfl

def shifted (axis : TileAxis) (texel : Float32) : Checked Float32 := do
  if axis.shift = 0 then return texel
  else if axis.shift ≤ 10 then return texel / Single.ofNat (← shiftLeft 32 1 axis.shift)
  else return texel * Single.ofNat (← shiftLeft 32 1 (← difference 16 axis.shift))

private theorem shifted_eq {axis : TileAxis} (h : axis.shift < 16) (texel : Float32) :
    shifted axis texel = .ok (axis.shifted texel) := by
  unfold shifted TileAxis.shifted
  split
  · rfl
  · split
    · rw [shiftLeft_one (by omega), ok_bind, Nat.one_shiftLeft]
      rfl
    · rw [difference_eq (by omega), ok_bind, shiftLeft_one (by omega), ok_bind, Nat.one_shiftLeft]
      rfl

/-- A shift of more than four bits would be a fault. -/
example : shifted { shift := 17 } 0 = .error (.underflow 16 17) := rfl

def normalizeAxis (axis : TileAxis) (low high : Nat) (texel : Float32) : Checked Float32 := do
  return ((← shifted axis texel) - TileAxis.origin low) / Single.ofNat (← extent axis low high)

private theorem normalizeAxis_eq {axis : TileAxis} (h : axis.shift < 16) (low : Nat) {high : Nat}
    (hhigh : high < 4096) (texel : Float32) :
    normalizeAxis axis low high texel = .ok (axis.normalize low high texel) := by
  rw [normalizeAxis, shifted_eq h, ok_bind, extent_eq axis low hhigh, ok_bind]
  rfl

def normalize (tile : Tile) (texel : Vec2) : Checked Vec2 := do
  return {
    x := ← normalizeAxis tile.layout.s tile.bounds.left tile.bounds.right texel.x
    y := ← normalizeAxis tile.layout.t tile.bounds.top tile.bounds.bottom texel.y }

theorem normalize_eq {tile : Tile} (h : tile.Bounded) (texel : Vec2) :
    normalize tile texel = .ok (tile.normalize texel) := by
  rw [normalize, normalizeAxis_eq h.layout.shiftS _ h.bounds.right, ok_bind,
    normalizeAxis_eq h.layout.shiftT _ h.bounds.bottom, ok_bind]
  rfl

def width (tile : Tile) : Checked Nat := extent tile.layout.s tile.bounds.left tile.bounds.right

private theorem width_eq {tile : Tile} (h : tile.Bounded) : width tile = .ok tile.width :=
  extent_eq _ _ h.bounds.right

def height (tile : Tile) : Checked Nat := extent tile.layout.t tile.bounds.top tile.bounds.bottom

private theorem height_eq {tile : Tile} (h : tile.Bounded) : height tile = .ok tile.height :=
  extent_eq _ _ h.bounds.bottom

/-! ## Color images -/

def covers (image : Image) (height : Nat) (address : UInt32) : Checked Bool := do
  let bytes ← product 64 (← product 64 image.width height) image.bytesPerPixel
  let stop ← sum 64 image.address.toNat bytes
  return image.address.toNat ≤ address.toNat && address.toNat < stop

private theorem covers_eq {image : Image} (h : image.Bounded) {height : Nat}
    (hheight : height < 2 ^ 32)
    (address : UInt32) : covers image height address = .ok (image.covers height address) := by
  have haddress := image.address.toNat_lt
  have hpixels : image.width * height ≤ 4096 * 2 ^ 32 :=
    Nat.mul_le_mul h.width (Nat.le_of_lt hheight)
  have hbytes : image.width * height * image.bytesPerPixel ≤ 4096 * 2 ^ 32 * 4 :=
    Nat.mul_le_mul hpixels image.bytesPerPixel_le
  rw [covers, product_eq (by omega), ok_bind, product_eq (by omega), ok_bind, sum_eq (by omega)]
  rfl

def firstCovering (height : Nat) (address : UInt32) : List Image → Checked (Option Image)
  | [] => return none
  | image :: images => do
    if ← covers image height address then return some image
    else firstCovering height address images

private theorem firstCovering_eq {height : Nat} (hheight : height < 2 ^ 32) (address : UInt32)
    {images : List Image} (h : ∀ image ∈ images, image.Bounded) :
    firstCovering height address images =
      .ok (images.find? fun image => image.covers height address) := by
  induction images with
  | nil => rfl
  | cons image images ih =>
    rw [firstCovering, covers_eq (h image List.mem_cons_self) hheight, ok_bind, List.find?_cons]
    cases image.covers height address with
    | true => rfl
    | false => exact ih fun other hother => h other (List.mem_cons_of_mem image hother)

def colorImageAt (scene : Scene) (address : UInt32) : Checked (Option Image) :=
  firstCovering scene.settings.screenHeight.toNat address scene.registers.render.recentImages

private theorem colorImageAt_eq {scene : Scene} (h : scene.registers.Bounded) (address : UInt32) :
    colorImageAt scene address = .ok (scene.colorImageAt? address) :=
  firstCovering_eq scene.settings.screenHeight.toNat_lt address fun image himage =>
    (h.render image himage).toBounded

def captureOf (scene : Scene) (unit : UInt8) (tile : Tile) (image : Image) (address : UInt32) :
    Checked ColorCapture := do
  let offset ← difference address.toNat image.address.toNat
  let pixel ← quotient offset image.bytesPerPixel
  let column ← remainder pixel image.width
  let row ← quotient pixel image.width
  return {
    unit
    address
    read :=
      { region :=
          { x0 := UInt32.ofNat column
            y0 := UInt32.ofNat row
            width := UInt32.ofNat (← width tile)
            height := UInt32.ofNat (← height tile) }
        bitDepth := if image.isSixteenBit then 16 else 32
        synchronous := scene.settings.synchronousReads } }

private theorem captureOf_eq {scene : Scene} (h : scene.registers.Bounded) {tile : Tile}
    (htile : tile.Bounded) {address : UInt32} {image : Image}
    (himage : scene.colorImageAt? address = some image) (unit : UInt8) :
    captureOf scene unit tile image address = .ok (scene.captureOf unit tile image address) := by
  have hdrawable : image.Drawable := h.render image (List.mem_of_find?_eq_some himage)
  -- The address was found in the image, so that it is not below the image's own.
  rw [Scene.colorImageAt?] at himage
  have hcovers := List.find?_some himage
  simp only [Image.covers, Bool.and_eq_true, decide_eq_true_iff] at hcovers
  have hoffset : (address - image.address).toNat = address.toNat - image.address.toNat :=
    UInt32.toNat_sub_of_le _ _ (UInt32.le_iff_toNat_le.mpr hcovers.1)
  rw [captureOf, difference_eq hcovers.1, ok_bind, quotient_eq image.bytesPerPixel_pos, ok_bind,
    remainder_eq hdrawable.width_pos, ok_bind, quotient_eq hdrawable.width_pos, ok_bind,
    width_eq htile, ok_bind, height_eq htile, ok_bind, ← hoffset]
  rfl

/-! ## Rows -/

def texelRowBytes (format : TexelFormat) (width : Nat) : Checked Nat := do
  return ((← product 64 width format.depth.bits) + 7) / 8

private theorem texelRowBytes_eq (format : TexelFormat) {width : Nat} (h : width ≤ 1024) :
    texelRowBytes format width = .ok (format.rowBytes width) := by
  have hbits : format.depth.bits ≤ 32 := by cases format <;> decide
  have hproduct : width * format.depth.bits ≤ 1024 * 32 := Nat.mul_le_mul h hbits
  rw [texelRowBytes, product_eq (by omega)]
  rfl

def fittingRows (tile : Tile) (rowBytes : Nat) : Checked (Option Nat) := do
  if rowBytes = 0 ∨ rowBytes > Command.maxTexelBytes then return none
  else return some (min (← height tile) (← quotient Command.maxTexelBytes rowBytes))

private theorem fittingRows_eq {tile : Tile} (h : tile.Bounded) (rowBytes : Nat) :
    fittingRows tile rowBytes = .ok (Scene.fittingRows? tile rowBytes) := by
  unfold fittingRows Scene.fittingRows?
  split
  · rfl
  · rw [height_eq h, ok_bind, quotient_eq (by omega)]
    rfl

def strideOf (tile : Tile) (load : TextureMemoryLoad) (rowBytes : Nat) : Checked Nat := do
  match load.stride with
  | some stride => return stride
  | none =>
    let line ← product 32 tile.layout.line (if tile.layout.size = 3 then 16 else 8)
    return if line = 0 then rowBytes else line

private theorem strideOf_eq {tile : Tile} (h : tile.layout.Bounded) (load : TextureMemoryLoad)
    (rowBytes : Nat) : strideOf tile load rowBytes = .ok (Scene.strideOf tile load rowBytes) := by
  have hline : tile.layout.line * (if tile.layout.size = 3 then 16 else 8) < 2 ^ 32 :=
    Nat.lt_trans (Scene.lineBytes_lt h) (by decide)
  unfold strideOf Scene.strideOf
  cases load.stride with
  | some stride => rfl
  | none =>
    dsimp only
    rw [product_eq hline]
    rfl

def gatherRows (ram : Ram) (address : UInt32) (stride rowBytes rows : Nat) :
    Checked (List UInt8) := do
  let parts ← quotient (← product 64 rowBytes rows) rowBytes
  let texels ← (List.range parts).mapM fun row => do
    let offset ← product 32 row stride
    return (ram.copy (address + UInt32.ofNat offset) rowBytes).data.toList
  return texels.flatten

private theorem gatherRows_eq (ram : Ram) (address : UInt32) {stride rowBytes rows : Nat}
    (hstride : stride ≤ 16384) (hpos : 0 < rowBytes) (hrow : rowBytes ≤ 4096) (hrows : rows ≤ 1024) :
    gatherRows ram address stride rowBytes rows =
      .ok (Scene.gatherRows ram address stride rowBytes rows) := by
  have hbuffer : rowBytes * rows ≤ 4096 * 1024 := Nat.mul_le_mul hrow hrows
  -- The buffer falls into exactly as many parts as there are rows.
  rw [gatherRows, product_eq (by omega), ok_bind, quotient_eq hpos, ok_bind,
    Nat.mul_div_cancel_left rows hpos, mapM_eq]
  · rw [ok_bind, ← List.flatMap_def]
    rfl
  · intro row hrow
    have hoffset : row * stride ≤ 1024 * 16384 :=
      Nat.mul_le_mul (by have hlt := List.mem_range.mp hrow; omega) hstride
    rw [product_eq (by omega)]
    rfl

def spanLength (stride rowBytes rows : Nat) : Checked Nat := do
  if rows = 0 then return 0
  else sum 64 (← product 64 stride (← difference rows 1)) rowBytes

private theorem spanLength_eq {stride rowBytes rows : Nat} (hstride : stride ≤ 16384)
    (hrow : rowBytes ≤ 4096) (hrows : rows ≤ 1024) :
    spanLength stride rowBytes rows = .ok (Scene.spanLength stride rowBytes rows) := by
  have habove : stride * (rows - 1) ≤ 16384 * 1024 :=
    Nat.mul_le_mul hstride (Nat.le_trans (Nat.sub_le _ _) hrows)
  unfold spanLength Scene.spanLength
  split
  · rfl
  · rw [difference_eq (by omega), ok_bind, product_eq (by omega), ok_bind, sum_eq (by omega)]

/-! ## Palettes -/

def paletteFormat (high : UInt32) : Checked PaletteFormat := do
  return if (← fieldNat high 14 2) = 3 then .ia16 else .rgba5551

private theorem paletteFormat_eq (high : UInt32) :
    paletteFormat high = .ok (Modes.paletteFormatOf high) := by
  rw [paletteFormat, fieldNat_eq (by decide) (by decide), ok_bind]
  rfl

def paletteOf (scene : Scene) (tile : Tile) (format : TexelFormat) : Checked (Option Palette) := do
  let entries := scene.registers.texture.palette.toArray
  match format with
  | .ci4 =>
    let first ← product 64 16 tile.layout.bank
    let stop ← sum 64 first 16
    slice 256 first stop
    return some ⟨← paletteFormat scene.registers.render.modes.high, entries.extract first stop⟩
  | .ci8 => return some ⟨← paletteFormat scene.registers.render.modes.high, entries⟩
  | _ => return none

private theorem paletteOf_eq (scene : Scene) {tile : Tile} (h : tile.layout.Bounded)
    (format : TexelFormat) :
    paletteOf scene tile format = .ok (scene.paletteOf tile format) := by
  have hbank := h.bank
  cases format with
  | ci4 =>
    rw [paletteOf, product_eq (by omega), ok_bind, sum_eq (by omega), ok_bind,
      slice_eq (by omega) (by omega), ok_bind, paletteFormat_eq, ok_bind]
    rfl
  | ci8 =>
    rw [paletteOf, paletteFormat_eq, ok_bind]
    rfl
  | _ => rfl

/-! ## Commands -/

def gather (scene : Scene) (tile : Tile) (format : TexelFormat) (load : TextureMemoryLoad) :
    Checked (Option TextureSource) := do
  let columns ← width tile
  let rowBytes ← texelRowBytes format columns
  match ← fittingRows tile rowBytes with
  | none => return none
  | some rows =>
    let stride ← strideOf tile load rowBytes
    let bytes ← gatherRows scene.ram load.address stride rowBytes rows
    let span ← spanLength stride rowBytes rows
    return some {
      address := load.address
      sourceLength := UInt32.ofNat (min span (UInt32.size - 1))
      format
      width := UInt32.ofNat columns
      height := UInt32.ofNat rows
      palette := ← paletteOf scene tile format
      bytes }

private theorem gather_eq (scene : Scene) {tile : Tile} (h : tile.Bounded) (format : TexelFormat)
    {load : TextureMemoryLoad} (hload : ∀ stride, load.stride = some stride → stride ≤ 16384) :
    gather scene tile format load = .ok (scene.gather? tile format load) := by
  have hwidth : tile.width ≤ 1024 := TileAxis.extent_le _ _ h.bounds.right
  have hheight : tile.height ≤ 1024 := TileAxis.extent_le _ _ h.bounds.bottom
  rw [gather, width_eq h, ok_bind, texelRowBytes_eq format hwidth, ok_bind, fittingRows_eq h, ok_bind,
    Scene.gather?]
  cases hrows : Scene.fittingRows? tile (format.rowBytes tile.width) with
  | none => rfl
  | some rows =>
    obtain ⟨hpos, hrow, hle⟩ := Scene.le_of_fittingRows? hrows
    have hstride := Scene.strideOf_le h.layout hload hrow
    have hcount : rows ≤ 1024 := Nat.le_trans hle hheight
    simp only [strideOf_eq h.layout, ok_bind, gatherRows_eq scene.ram load.address hstride hpos hrow
      hcount, spanLength_eq hstride hrow hcount, paletteOf_eq scene h.layout]
    rfl

def textureCommand (scene : Scene) (unit : UInt8) (index : TileIndex) :
    Checked (Option Command) := do
  let tile := scene.registers.texture.tiles.get (← place 8 index)
  let some format := tile.format? | return none
  let some load := scene.registers.texture.loadFor? tile | return none
  match ← colorImageAt scene load.address with
  | some image => return some (.captureColorBuffer (← captureOf scene unit tile image load.address))
  | none =>
    let source ← gather scene tile format load
    return source.map fun source => .loadTexture ⟨unit, source⟩

theorem textureCommand_eq {scene : Scene} (h : scene.registers.Bounded) (unit : UInt8)
    (index : TileIndex) :
    textureCommand scene unit index = .ok (scene.textureCommand? unit index) := by
  have htile := h.texture.tiles index
  simp only [textureCommand, place_eq index.isLt, ok_bind, Fin.eta, Scene.textureCommand?]
  cases (scene.registers.texture.tiles.get index).format? with
  | none => rfl
  | some format =>
    cases hload : scene.registers.texture.loadFor? (scene.registers.texture.tiles.get index) with
    | none => rfl
    | some load =>
      have hstride := h.texture.strides load (TextureRegisters.loadFor?_mem hload)
      simp only [Option.bind_eq_bind, Option.bind_some, colorImageAt_eq h, ok_bind]
      cases himage : scene.colorImageAt? load.address with
      | some image =>
        dsimp only
        rw [captureOf_eq h htile himage, ok_bind]
        rfl
      | none =>
        dsimp only
        rw [gather_eq scene htile format hstride, ok_bind]
        cases scene.gather? (scene.registers.texture.tiles.get index) format load <;> rfl

end Checked

end DisplayPipeline
