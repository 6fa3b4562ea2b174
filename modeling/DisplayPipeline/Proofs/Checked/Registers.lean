import DisplayPipeline.Proofs.Checked.Operations
import DisplayPipeline.Proofs.DisplayList.Bounds

namespace DisplayPipeline.Checked

private theorem resolve_segment (address : UInt32) :
    (address >>> 24).toNat &&& 0xF = (Segments.segmentOf address).val :=
  Nat.and_two_pow_sub_one_eq_mod _ 4

def resolve (s : Segments) (address : UInt32) : Checked UInt32 := do
  let segment ← place 16 ((address >>> 24).toNat &&& 0xF)
  return s.bases.get segment + (address &&& Segments.offsetMask)

theorem resolve_eq (s : Segments) (address : UInt32) : resolve s address = .ok
    (s.resolve address) := by
  rw [resolve, resolve_segment, place_eq (Segments.segmentOf address).isLt]
  rfl

private theorem set_eq_setIfInBounds {α : Type} {n i : Nat} (v : Vector α n) (a : α) (h : i < n) :
    v.set i a h = v.setIfInBounds i a := by
  ext j hj
  rw [Vector.getElem_set, Vector.getElem_setIfInBounds]

/-! ## Geometry -/

def element (ram : Ram) (address : UInt32) (index : Nat) : Checked Float32 := do
  let offset ← product 32 2 index
  let second ← sum 32 32 offset
  let whole := ram.readSigned (address + UInt32.ofNat offset)
  let fraction := (ram.read16 (address + UInt32.ofNat second)).toNat
  return Single.ofInt (whole * 65536 + fraction) / 65536

private theorem element_eq (ram : Ram) (address : UInt32) {index : Nat} (h : index < 16) :
    element ram address index = .ok (Mat4.elementAt ram address index) := by
  rw [element, product_eq (by omega), ok_bind, sum_eq (by omega), ok_bind, UInt32.ofNat_add]
  rfl

def matrix (ram : Ram) (address : UInt32) : Checked Mat4 := do
  let row (i : Nat) : Checked Vec4 := do
    return ⟨← element ram address (4 * i), ← element ram address (4 * i + 1),
      ← element ram address (4 * i + 2), ← element ram address (4 * i + 3)⟩
  return ⟨← row 0, ← row 1, ← row 2, ← row 3⟩

private theorem matrix_eq (ram : Ram) (address : UInt32) : matrix ram address = .ok
    (.load ram address) := by
  simp (disch := decide) only [matrix, element_eq, ok_bind, pure_eq_ok]
  rfl

def shade (l : Lights) (normal : Vec3) (modelview : Mat4) (alpha : UInt8) : Checked Color := do
  let normal := (Mat4.rotate normal modelview).normalize
  let ambient ← place 8 l.count
  slice 8 0 l.count
  let rgb := (l.slots.toList.take l.count).foldl (Lights.addLight normal) (l.slots.get ambient).color
  return ⟨Lights.channel rgb.x, Lights.channel rgb.y, Lights.channel rgb.z, alpha⟩

private theorem shade_eq (l : Lights) (normal : Vec3) (modelview : Mat4) (alpha : UInt8) :
    shade l normal modelview alpha = .ok (l.shade normal modelview alpha) := by
  rw [shade, place_eq l.count.isLt, ok_bind, slice_eq (Nat.zero_le _) (Nat.le_of_lt l.count.isLt),
    ok_bind]
  rfl

def vertex (g : GeometryRegisters) (ram : Ram) (setup : VertexSetup) (address : UInt32) :
    Checked LoadedVertex := do
  let vertex := g.vertexAt ram { setup with lit := false } address
  if setup.lit then
    let normal := Light.vectorOfBytes vertex.color.red vertex.color.green vertex.color.blue
    return { vertex with color := ← shade g.lights normal g.matrices.modelview vertex.color.alpha }
  else return vertex

private theorem vertex_eq (g : GeometryRegisters) (ram : Ram) (setup : VertexSetup)
    (address : UInt32) :
    vertex g ram setup address = .ok (g.vertexAt ram setup address) := by
  obtain ⟨scale, lit⟩ := setup
  cases lit with
  | false => rfl
  | true =>
    simp only [vertex, shade_eq, ok_bind, if_true]
    rfl

def loadVertices (g : GeometryRegisters) (ram : Ram) (setup : VertexSetup) (first count : Nat)
    (address : UInt32) : Checked GeometryRegisters := do
  let base ← resolve g.segments address
  let vertices ← (List.range (min count (32 - first))).foldlM
    (fun (vertices : Vector LoadedVertex 32) i => do
      let slot ← place 32 (← sum 64 first i)
      let offset ← product 32 i GeometryRegisters.vertexStride
      return vertices.set slot (← vertex g ram setup (base + UInt32.ofNat offset))) g.vertices
  return { g with vertices }

private theorem loadVertices_eq (g : GeometryRegisters) (ram : Ram) (setup : VertexSetup)
    (first count : Nat) (address : UInt32) :
    loadVertices g ram setup first count address =
      .ok (g.loadVertices ram setup first count address) := by
  rw [loadVertices, resolve_eq, ok_bind, foldlM_eq]
  · rfl
  · intro vertices i hi
    have hslot : first + i < 32 := by
      have hlt := List.mem_range.mp hi
      omega
    rw [sum_eq (by omega), ok_bind, place_eq hslot, ok_bind,
      product_eq (by rw [GeometryRegisters.vertexStride]; omega), ok_bind, vertex_eq, ok_bind,
      set_eq_setIfInBounds]
    rfl

def changeGeometry (g : GeometryRegisters) (ram : Ram) (setup : VertexSetup) :
    GeometryChange → Checked GeometryRegisters
  | .loadVertices first count address => loadVertices g ram setup first count address
  | .applyMatrix use address => do
    let matrix ← matrix ram (← resolve g.segments address)
    return { g with matrices := g.matrices.apply matrix use }
  | .light slot address => do
    return { g with lights := g.lights.set slot (.load ram (← resolve g.segments address)) }
  | .viewport address => do
    return { g with viewport := .load ram (← resolve g.segments address) }
  | change => return g.apply ram setup change

private theorem changeGeometry_eq (g : GeometryRegisters) (ram : Ram) (setup : VertexSetup)
    (change : GeometryChange) :
    changeGeometry g ram setup change = .ok (g.apply ram setup change) := by
  cases change with
  | loadVertices first count address => exact loadVertices_eq g ram setup first count address
  | applyMatrix use address =>
    rw [changeGeometry, resolve_eq, ok_bind, matrix_eq, ok_bind]
    rfl
  | light slot address =>
    rw [changeGeometry, resolve_eq, ok_bind]
    rfl
  | viewport address =>
    rw [changeGeometry, resolve_eq, ok_bind]
    rfl
  | _ => rfl

/-! ## Modes and colors -/

def setBits (word shift length data : UInt32) : Checked UInt32 := do
  if shift ≥ 32 ∨ length = 0 then return word
  else
    let power ← shiftLeft 64 1 (min length 32).toNat
    let ones ← difference power 1
    let mask := UInt32.ofNat (← shiftLeft 64 ones shift.toNat)
    return (word &&& ~~~mask) ||| (data &&& mask)

private theorem setBits_eq (word shift length data : UInt32) :
    setBits word shift length data = .ok (Word.setBits word shift length data) := by
  unfold setBits Word.setBits
  split
  · rfl
  · rename_i h
    have hshift : shift.toNat < 32 := by
      have hlt := mt Or.inl h
      rw [ge_iff_le, UInt32.le_iff_toNat_le] at hlt
      exact Nat.lt_of_not_le hlt
    have hlength : (min length 32).toNat < 64 := by
      rw [Word.toNat_min]
      exact Nat.lt_of_le_of_lt (Nat.min_le_right _ _) (by decide)
    have hmask : UInt32.ofNat ((2 ^ (min length 32).toNat - 1) <<< shift.toNat % 2 ^ 64) =
        (((1 : UInt64) <<< (min length 32).toUInt64 - 1) <<< shift.toUInt64).toUInt32 := by
      apply UInt32.toNat_inj.mp
      rw [UInt32.toNat_ofNat', UInt64.toNat_toUInt32, UInt64.toNat_shiftLeft,
        Word.toNat_ones hlength, UInt32.toNat_toUInt64, Nat.mod_eq_of_lt (by omega : shift.toNat < 64)]
    rw [shiftLeft_one hlength, ok_bind, difference_eq (Nat.two_pow_pos _), ok_bind, shiftLeft,
      if_pos (by omega), ok_bind, hmask]
    rfl

def setByte (word index value : UInt32) : Checked UInt32 := do
  let shift ← product 32 index.toNat 8
  let hole := UInt32.ofNat (← shiftLeft 32 0xFF shift)
  let byte := UInt32.ofNat (← shiftLeft 32 (value &&& 0xFF).toNat shift)
  return (word &&& ~~~hole) ||| byte

private theorem setByte_eq (word : UInt32) {index : UInt32} (value : UInt32) (h : index.toNat < 4) :
    setByte word index value = .ok (Word.setByte word index value) := by
  have hshift : (index * 8).toNat = index.toNat * 8 := by
    rw [UInt32.toNat_mul]
    exact Nat.mod_eq_of_lt (by change index.toNat * 8 < _; omega)
  have hmoved (byte : UInt32) :
      UInt32.ofNat (byte.toNat <<< (index.toNat * 8) % 2 ^ 32) = byte <<< (index * 8) := by
    apply UInt32.toNat_inj.mp
    rw [UInt32.toNat_ofNat', UInt32.toNat_shiftLeft, hshift, Nat.mod_mod,
      Nat.mod_eq_of_lt (by omega : index.toNat * 8 < 32)]
  rw [setByte, product_eq (by omega), ok_bind, shiftLeft, if_pos (by omega), ok_bind, shiftLeft,
    if_pos (by omega), ok_bind, hmoved, show (0xFF : Nat) = (0xFF : UInt32).toNat from rfl, hmoved]
  rfl

def changeColors (c : Combiner.ConstantColors) : ColorChange → Checked Combiner.ConstantColors
  | .keyRed center scale => do
    return { c with
      keyCenter := ← setByte c.keyCenter 3 center
      keyScale := ← setByte c.keyScale 3 scale }
  | .keyGreenBlue greenCenter greenScale blueCenter blueScale => do
    return { c with
      keyCenter := ← setByte (← setByte c.keyCenter 2 greenCenter) 1 blueCenter
      keyScale := ← setByte (← setByte c.keyScale 2 greenScale) 1 blueScale }
  | change => return change.apply c

private theorem changeColors_eq (c : Combiner.ConstantColors) (change : ColorChange) :
    changeColors c change = .ok (change.apply c) := by
  cases change with
  | keyRed center scale =>
    simp (disch := decide) only [changeColors, setByte_eq, ok_bind]
    rfl
  | keyGreenBlue greenCenter greenScale blueCenter blueScale =>
    simp (disch := decide) only [changeColors, setByte_eq, ok_bind]
    rfl
  | _ => rfl

/-! ## Images -/

def locate (image : Image) (segments : Segments) : Checked Image := do
  return { image with address := ← resolve segments image.address }

private theorem locate_eq (image : Image) (segments : Segments) :
    locate image segments = .ok (image.locate segments) := by
  rw [locate, resolve_eq, ok_bind]
  rfl

def setColorImage (r : RenderRegisters) (image : Image) : Checked RenderRegisters := do
  let others := r.recentImages.filter fun other => other.address ≠ image.address
  if others.length = RenderRegisters.maxRecentImages then
    let _ ← place others.length (others.length - 1)
  return r.setColorImage image

private theorem setColorImage_eq (r : RenderRegisters) (image : Image) :
    setColorImage r image = .ok (r.setColorImage image) := by
  unfold setColorImage
  dsimp only
  split
  · rename_i h
    rw [place_eq (by rw [h]; decide)]
    rfl
  · rfl

def changeRender (r : RenderRegisters) (segments : Segments) :
    RenderChange → Checked RenderRegisters
  | .modeBits .high shift length data => do
    return { r with modes.high := ← setBits r.modes.high shift length data }
  | .modeBits .low shift length data => do
    return { r with modes.low := ← setBits r.modes.low shift length data }
  | .color change => do return { r with colors := ← changeColors r.colors change }
  | .colorImage image => do setColorImage r (← locate image segments)
  | .depthImage address => do return { r with depthImage := ← resolve segments address }
  | change => return r.apply segments change

private theorem changeRender_eq (r : RenderRegisters) (segments : Segments)
    (change : RenderChange) :
    changeRender r segments change = .ok (r.apply segments change) := by
  cases change with
  | modeBits word shift length data =>
    cases word <;> rw [changeRender, setBits_eq, ok_bind] <;> rfl
  | color change =>
    rw [changeRender, changeColors_eq, ok_bind]
    rfl
  | colorImage image =>
    rw [changeRender, locate_eq, ok_bind, setColorImage_eq]
    rfl
  | depthImage address =>
    rw [changeRender, resolve_eq, ok_bind]
    rfl
  | _ => rfl

def rowBytes (image : Image) : Checked Nat := do
  return ((← shiftLeft 32 image.width image.size) + 1) / 2

private theorem rowBytes_eq {image : Image} (h : image.Bounded) :
    rowBytes image = .ok image.rowBytes := by
  have hnibbles := h.shiftLeft_le h.width
  have hsize := h.size
  rw [rowBytes, shiftLeft_eq (by omega) (by omega)]
  rfl

def texelAddress (image : Image) (column row : Nat) : Checked UInt32 := do
  let above ← product 32 row (← rowBytes image)
  let before ← shiftLeft 32 column image.size
  return image.address + UInt32.ofNat above + UInt32.ofNat (before / 2)

private theorem texelAddress_eq {image : Image} (h : image.Bounded) {column row : Nat}
    (hcolumn : column ≤ 4096) (hrow : row ≤ 4096) :
    texelAddress image column row = .ok (image.texelAddress column row) := by
  have hbefore := h.shiftLeft_le hcolumn
  have habove : row * image.rowBytes ≤ 4096 * 16384 := Nat.mul_le_mul hrow h.rowBytes_le
  have hsize := h.size
  rw [texelAddress, rowBytes_eq h, ok_bind, product_eq (by omega), ok_bind,
    shiftLeft_eq (by omega) (by omega)]
  rfl

/-! ## Texture memory -/

def loadTile (t : TextureRegisters) (tile : TileIndex) (bounds : QuarterRect) :
    Checked TextureRegisters := do
  let address ← texelAddress t.image (bounds.left / 4) (bounds.top / 4)
  let stride ← rowBytes t.image
  return (t.setBounds tile bounds).recordLoad
    { start := (t.tiles.get tile).layout.start, address, stride := some stride }

def loadBlock (t : TextureRegisters) (tile : TileIndex) (column row : Nat) :
    Checked TextureRegisters := do
  let address ← texelAddress t.image column row
  return t.recordLoad { start := (t.tiles.get tile).layout.start, address, stride := none }

def loadPalette (t : TextureRegisters) (ram : Ram) (tile : TileIndex) (column count : Nat) :
    Checked TextureRegisters := do
  let first := (t.tiles.get tile).layout.start - TextureRegisters.paletteStart
  let source := t.image.address + UInt32.ofNat (← product 32 column 2)
  let palette ← (List.range (min count (256 - first))).foldlM
    (fun (palette : Vector UInt16 256) i => do
      let slot ← place 256 (← sum 64 first i)
      let offset ← product 32 i 2
      return palette.set slot (ram.read16 (source + UInt32.ofNat offset))) t.palette
  return { t with palette }

private theorem loadPalette_eq (t : TextureRegisters) (ram : Ram) (tile : TileIndex) {column : Nat}
    (count : Nat) (hcolumn : column ≤ 4096) :
    loadPalette t ram tile column count = .ok (t.loadPalette ram tile column count) := by
  rw [loadPalette, product_eq (by omega), ok_bind]
  dsimp only
  rw [foldlM_eq]
  · rfl
  · intro palette i hi
    have hslot : (t.tiles.get tile).layout.start - TextureRegisters.paletteStart + i < 256 := by
      have hlt := List.mem_range.mp hi
      omega
    rw [sum_eq (by omega), ok_bind, place_eq hslot, ok_bind, product_eq (by omega), ok_bind,
      set_eq_setIfInBounds]
    rfl

def changeTexture (t : TextureRegisters) (ram : Ram) (segments : Segments) :
    TextureChange → Checked TextureRegisters
  | .image image => do return { t with image := ← locate image segments }
  | .loadBlock tile column row => loadBlock t tile column row
  | .loadTile tile bounds => loadTile t tile bounds
  | .loadPalette tile column count => loadPalette t ram tile column count
  | change => return t.apply ram segments change

private theorem changeTexture_eq {t : TextureRegisters} (h : t.Bounded) (ram : Ram)
    (segments : Segments) {change : TextureChange} (hchange : change.Bounded) :
    changeTexture t ram segments change = .ok (t.apply ram segments change) := by
  cases change with
  | image image =>
    rw [changeTexture, locate_eq, ok_bind]
    rfl
  | loadBlock tile column row =>
    rw [changeTexture, loadBlock,
      texelAddress_eq h.image (Nat.le_of_lt hchange.1) (Nat.le_of_lt hchange.2), ok_bind]
    rfl
  | loadTile tile bounds =>
    have hleft := hchange.left
    have htop := hchange.top
    rw [changeTexture, loadTile, texelAddress_eq h.image (by omega) (by omega), ok_bind,
      rowBytes_eq h.image, ok_bind]
    rfl
  | loadPalette tile column count =>
    exact loadPalette_eq t ram tile count (Nat.le_of_lt hchange)
  | _ => rfl

def advance (scene : Scene) : Instruction → Checked Registers
  | .geometry change => do
    let r := scene.registers
    return { r with geometry := ← changeGeometry r.geometry scene.ram r.vertexSetup change }
  | .render change => do
    let r := scene.registers
    return { r with render := ← changeRender r.render r.geometry.segments change }
  | .texture change => do
    let r := scene.registers
    return { r with texture := ← changeTexture r.texture scene.ram r.geometry.segments change }
  | _ => return scene.registers

theorem advance_eq {scene : Scene} (h : scene.registers.Bounded) {instruction : Instruction}
    (hinstruction : instruction.Bounded) :
    advance scene instruction = .ok (scene.advance instruction) := by
  cases instruction with
  | geometry change =>
    rw [advance, changeGeometry_eq, ok_bind]
    rfl
  | render change =>
    rw [advance, changeRender_eq, ok_bind]
    rfl
  | texture change =>
    rw [advance, changeTexture_eq h.texture _ _ hinstruction, ok_bind]
    rfl
  | _ => rfl

end DisplayPipeline.Checked
