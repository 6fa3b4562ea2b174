import DisplayPipeline.DisplayList.Processor
import DisplayPipeline.Proofs.WordBytes

namespace DisplayPipeline

structure QuarterRect.Bounded (rect : QuarterRect) : Prop where
  left : rect.left < 4096
  top : rect.top < 4096
  right : rect.right < 4096
  bottom : rect.bottom < 4096

private theorem QuarterRect.bounded_ofWords (w0 w1 : UInt32) : (ofWords w0 w1).Bounded where
  left := Word.fieldNat_lt w0 _ (by decide)
  top := Word.fieldNat_lt w0 _ (by decide)
  right := Word.fieldNat_lt w1 _ (by decide)
  bottom := Word.fieldNat_lt w1 _ (by decide)

structure TileLayout.Bounded (layout : TileLayout) : Prop where
  line : layout.line < 512
  bank : layout.bank < 16
  shiftS : layout.s.shift < 16
  shiftT : layout.t.shift < 16

private theorem TileLayout.bounded_ofWords (w0 w1 : UInt32) : (ofWords w0 w1).Bounded where
  line := Word.fieldNat_lt w0 _ (by decide)
  bank := Word.fieldNat_lt w1 _ (by decide)
  shiftS := Word.fieldNat_lt w1 _ (by decide)
  shiftT := Word.fieldNat_lt w1 _ (by decide)

theorem TileAxis.extent_le (axis : TileAxis) (low : Nat) {high : Nat} (h : high < 4096) :
    axis.extent low high ≤ 1024 := by
  unfold extent
  dsimp only
  split <;> omega

structure Tile.Bounded (tile : Tile) : Prop where
  layout : tile.layout.Bounded
  bounds : tile.bounds.Bounded

theorem Tile.width_le {tile : Tile} (h : tile.Bounded) : tile.width ≤ 1024 :=
  TileAxis.extent_le _ _ h.bounds.right

namespace Image

variable {image : Image}

structure Bounded (image : Image) : Prop where
  size : image.size < 4
  width : image.width ≤ 4096

private theorem bounded_ofWord (word address : UInt32) : (ofWord word address).Bounded where
  size := Word.fieldNat_lt word _ (by decide)
  width := Word.fieldNat_lt word 0 (by decide : (12 : UInt32).toNat < 32)

private theorem width_ofWord_pos (word address : UInt32) : 0 < (ofWord word address).width :=
  Nat.succ_pos _

theorem Bounded.shiftLeft_le (h : image.Bounded) {texels : Nat} (htexels : texels ≤ 4096) :
    texels <<< image.size ≤ 32768 := by
  have hsize : 2 ^ image.size ≤ 2 ^ 3 := Nat.pow_le_pow_right (by decide) (Nat.le_of_lt_succ h.size)
  rw [Nat.shiftLeft_eq]
  exact Nat.mul_le_mul htexels hsize

theorem Bounded.rowBytes_le (h : image.Bounded) : image.rowBytes ≤ 16384 := by
  have hnibbles := h.shiftLeft_le h.width
  rw [rowBytes]
  omega

structure Drawable (image : Image) : Prop extends image.Bounded where
  width_pos : 0 < image.width

private theorem drawable_ofWord (word address : UInt32) : (ofWord word address).Drawable :=
  ⟨bounded_ofWord word address, width_ofWord_pos word address⟩

theorem bytesPerPixel_pos (image : Image) : 0 < image.bytesPerPixel := by
  unfold bytesPerPixel
  split <;> decide

theorem bytesPerPixel_le (image : Image) : image.bytesPerPixel ≤ 4 := by
  unfold bytesPerPixel
  split <;> decide

end Image

def TextureChange.Bounded : TextureChange → Prop
  | .use _ => True
  | .image source => source.Bounded
  | .layout _ value => value.Bounded
  | .bounds _ rect | .loadTile _ rect => rect.Bounded
  | .loadBlock _ column row => column < 4096 ∧ row < 4096
  | .loadPalette _ column _ => column < 4096

def RenderChange.Bounded : RenderChange → Prop
  | .colorImage target => target.Drawable
  | _ => True

namespace Instruction

/-- The instruction keeps to what its fields can hold. -/
def Bounded : Instruction → Prop
  | .texture change => change.Bounded
  | .render change => change.Bounded
  | .fillRect rect => rect.Bounded
  | _ => True

private theorem bounded_decodeMoveWord (w0 w1 : UInt32) : (decodeMoveWord w0 w1).Bounded := by
  unfold decodeMoveWord
  dsimp only
  split
  · trivial
  · trivial
  · split <;> trivial
  · trivial

private theorem bounded_decodeMoveMemory (w0 w1 : UInt32) : (decodeMoveMemory w0 w1).Bounded := by
  unfold decodeMoveMemory
  dsimp only
  split
  · trivial
  · split <;> trivial
  · trivial

private theorem bounded_decodeModifyVertex (w0 w1 : UInt32) :
    (decodeModifyVertex w0 w1).Bounded := by
  unfold decodeModifyVertex
  dsimp only
  split <;> trivial

private theorem bounded_ofOpcode (opcode : Opcode) (w0 w1 : UInt32) (operands : UInt32 × UInt32) :
    (ofOpcode opcode w0 w1 operands).Bounded := by
  have htwelve (word shift : UInt32) : Word.fieldNat word shift 12 < 4096 :=
    Word.fieldNat_lt word shift (by decide)
  cases opcode with
  | setColorImage => exact Image.drawable_ofWord w0 w1
  | setTextureImage => exact Image.bounded_ofWord w0 w1
  | setTile => exact TileLayout.bounded_ofWords w0 w1
  | setTileSize => exact QuarterRect.bounded_ofWords w0 w1
  | loadTile => exact QuarterRect.bounded_ofWords w0 w1
  | loadBlock => exact ⟨htwelve w0 12, htwelve w0 0⟩
  | loadPalette => exact Nat.lt_of_le_of_lt (Nat.div_le_self _ _) (htwelve w0 12)
  | fillRect => exact QuarterRect.bounded_ofWords w1 w0
  | moveWord => exact bounded_decodeMoveWord w0 w1
  | moveMemory => exact bounded_decodeMoveMemory w0 w1
  | modifyVertex => exact bounded_decodeModifyVertex w0 w1
  | _ => trivial

theorem bounded_fetch (ram : Ram) (address : UInt32) : (fetch ram address).1.Bounded := by
  unfold fetch
  dsimp only
  split
  · trivial
  · split <;> exact bounded_ofOpcode _ _ _ _

end Instruction

namespace TextureRegisters

variable {t : TextureRegisters}

structure Bounded (t : TextureRegisters) : Prop where
  image : t.image.Bounded
  tiles : ∀ index : TileIndex, (t.tiles.get index).Bounded
  strides : ∀ load ∈ t.loads, ∀ stride, load.stride = some stride → stride ≤ 16384

theorem bounded_initial : Bounded {} where
  image := ⟨by decide, by decide⟩
  tiles index := by
    have htile : Vector.get (.replicate 8 ({} : Tile)) index = {} := Vector.getElem_replicate _
    change (Vector.get (.replicate 8 ({} : Tile)) index).Bounded
    rw [htile]
    exact ⟨⟨by decide, by decide, by decide, by decide⟩, ⟨by decide, by decide, by decide, by decide⟩⟩
  strides _ hload := absurd hload List.not_mem_nil

private theorem Bounded.setTile (h : t.Bounded) (tile : TileIndex) {value : Tile}
    (hvalue : value.Bounded) :
    (t.setTile tile value).Bounded where
  image := h.image
  tiles index := by
    change ((t.tiles.set tile.val value)[index.val]).Bounded
    rw [Vector.getElem_set]
    split
    · exact hvalue
    · exact h.tiles index
  strides := h.strides

private theorem Bounded.recordLoad (h : t.Bounded) {load : TextureMemoryLoad}
    (hload : ∀ stride, load.stride = some stride → stride ≤ 16384) : (t.recordLoad load).Bounded where
  image := h.image
  tiles := h.tiles
  strides other hother := by
    rcases List.mem_cons.mp hother with rfl | hkept
    · exact hload
    · exact h.strides other (List.mem_filter.mp hkept).1

theorem Bounded.apply (h : t.Bounded) (ram : Ram) (segments : Segments) {change : TextureChange}
    (hchange : change.Bounded) : (t.apply ram segments change).Bounded := by
  have hbounds (tile : TileIndex) {rect : QuarterRect} (hrect : rect.Bounded) :
      (t.setBounds tile rect).Bounded := h.setTile tile ⟨(h.tiles tile).layout, hrect⟩
  cases change with
  | use use => exact ⟨h.image, h.tiles, h.strides⟩
  | image image => exact ⟨⟨hchange.size, hchange.width⟩, h.tiles, h.strides⟩
  | layout tile layout => exact h.setTile tile ⟨hchange, (h.tiles tile).bounds⟩
  | bounds tile rect => exact hbounds tile hchange
  | loadBlock tile column row => exact h.recordLoad nofun
  | loadTile tile rect =>
    refine (hbounds tile hchange).recordLoad ?_
    rintro stride ⟨⟩
    exact h.image.rowBytes_le
  | loadPalette tile column count => exact ⟨h.image, h.tiles, h.strides⟩

end TextureRegisters

def RenderRegisters.Bounded (r : RenderRegisters) : Prop :=
  ∀ image ∈ r.recentImages, image.Drawable

private theorem RenderRegisters.Bounded.apply {r : RenderRegisters} (h : r.Bounded)
    (segments : Segments)
    {change : RenderChange} (hchange : change.Bounded) : (r.apply segments change).Bounded := by
  cases change with
  | colorImage image =>
    intro other hother
    rcases List.mem_cons.mp hother with rfl | hkept
    · exact ⟨⟨hchange.size, hchange.width⟩, hchange.width_pos⟩
    · exact h other (List.mem_filter.mp (List.mem_of_mem_take hkept)).1
  | modeBits word shift length data => cases word <;> exact h
  | _ => exact h

namespace Registers

structure Bounded (r : Registers) : Prop where
  texture : r.texture.Bounded
  render : r.render.Bounded

theorem bounded_initial (settings : ListSettings) : (initial settings).Bounded where
  texture := TextureRegisters.bounded_initial
  render _ himage := absurd himage List.not_mem_nil

theorem Bounded.endFrame {r : Registers} (h : r.Bounded) :
    Bounded { r with render := r.render.endFrame } where
  texture := h.texture
  render _ himage := absurd himage List.not_mem_nil

end Registers

/-- An instruction keeps the registers within their bounds. -/
theorem Scene.bounded_advance {scene : Scene} (h : scene.registers.Bounded)
    {instruction : Instruction} (hinstruction : instruction.Bounded) :
    (scene.advance instruction).Bounded := by
  cases instruction with
  | geometry change => exact ⟨h.texture, h.render⟩
  | render change => exact ⟨h.texture, h.render.apply _ hinstruction⟩
  | texture change => exact ⟨h.texture.apply _ _ hinstruction, h.render⟩
  | _ => exact h

theorem Scene.bounded_advance_fetch (scene : Scene) (address : UInt32)
    (h : scene.registers.Bounded) : (scene.advance (Instruction.fetch scene.ram address).1).Bounded :=
  bounded_advance h (Instruction.bounded_fetch scene.ram address)

end DisplayPipeline
