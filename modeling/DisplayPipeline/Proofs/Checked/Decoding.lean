import DisplayPipeline.DisplayList.Instruction
import DisplayPipeline.Proofs.Checked.Operations

namespace DisplayPipeline.Checked

open Instruction (geometry render texture flow)

def corners (word : UInt32) : Checked Corners := do
  return ⟨(← fieldNat word 16 8) / 2, (← fieldNat word 8 8) / 2, (← fieldNat word 0 8) / 2⟩

private theorem corners_eq (word : UInt32) : corners word = .ok (.ofWord word) := by
  simp (disch := decide) only [corners, fieldNat_eq, ok_bind]
  rfl

def quarterRect (upperLeft lowerRight : UInt32) : Checked QuarterRect := do
  return {
    left := ← fieldNat upperLeft 12 12
    top := ← fieldNat upperLeft 0 12
    right := ← fieldNat lowerRight 12 12
    bottom := ← fieldNat lowerRight 0 12 }

private theorem quarterRect_eq (upperLeft lowerRight : UInt32) :
    quarterRect upperLeft lowerRight = .ok (.ofWords upperLeft lowerRight) := by
  simp (disch := decide) only [quarterRect, fieldNat_eq, ok_bind]
  rfl

def tileLayout (w0 w1 : UInt32) : Checked TileLayout := do
  return {
    format := ← fieldNat w0 21 3
    size := ← fieldNat w0 19 2
    line := ← fieldNat w0 9 9
    start := ← fieldNat w0 0 9
    bank := ← fieldNat w1 20 4
    s := ⟨← fieldNat w1 8 2, ← fieldNat w1 4 4, ← fieldNat w1 0 4⟩
    t := ⟨← fieldNat w1 18 2, ← fieldNat w1 14 4, ← fieldNat w1 10 4⟩ }

private theorem tileLayout_eq (w0 w1 : UInt32) : tileLayout w0 w1 = .ok (.ofWords w0 w1) := by
  simp (disch := decide) only [tileLayout, fieldNat_eq, ok_bind]
  rfl

def image (word address : UInt32) : Checked Image := do
  return {
    address
    format := ← fieldNat word 21 3
    size := ← fieldNat word 19 2
    width := ← sum 32 (← fieldNat word 0 12) 1 }

private theorem image_eq (word address : UInt32) : image word address = .ok
    (.ofWord word address) := by
  have hwidth : Word.fieldNat word 0 12 < 4096 := Word.fieldNat_lt word _ (by decide)
  simp (disch := decide) only [image, fieldNat_eq, ok_bind]
  rw [sum_eq (by omega)]
  rfl

def tilePlace (word shift : UInt32) : Checked TileIndex := do place 8 (← fieldNat word shift 3)

private theorem tilePlace_eq {word shift : UInt32} (hshift : shift.toNat < 32) :
    tilePlace word shift = .ok (.ofNat (Word.fieldNat word shift 3)) := by
  have hlt : Word.fieldNat word shift 3 < 8 := Word.fieldNat_lt word shift (by decide)
  rw [tilePlace, fieldNat_eq hshift (by decide), ok_bind, place_eq hlt]
  exact congrArg Except.ok (Fin.ext (Nat.mod_eq_of_lt hlt).symm)

def moveWord (w0 w1 : UInt32) : Checked Instruction := do
  let offset ← fieldNat w0 0 16
  match ← fieldNat w0 16 8 with
  | 0x02 => return geometry (.lightCount (w1.toNat / 24))
  | 0x06 => return geometry (.segment (offset / 4) w1)
  | 0x0A =>
    if offset % 24 = 0 ∨ offset % 24 = 4 then return geometry (.lightColor (offset / 24) w1)
    else return .nothing
  | _ => return .nothing

private theorem moveWord_eq (w0 w1 : UInt32) : moveWord w0 w1 = .ok
    (Instruction.decodeMoveWord w0 w1) := by
  simp (disch := decide) only [moveWord, Instruction.decodeMoveWord, fieldNat_eq, ok_bind]
  split
  · simp only [*, pure_eq_ok]
  · simp only [*, pure_eq_ok]
  · simp only [*, pure_eq_ok]
    split <;> rfl
  · simp only [*, pure_eq_ok]

def moveMemory (w0 w1 : UInt32) : Checked Instruction := do
  match ← fieldNat w0 0 8 with
  | 0x08 => return geometry (.viewport w1)
  | 0x0A =>
    let offset ← product 32 (← fieldNat w0 8 8) 8
    let slot := offset / 24
    if slot < 2 then return .nothing else return geometry (.light (← difference slot 2) w1)
  | _ => return .nothing

private theorem moveMemory_eq (w0 w1 : UInt32) :
    moveMemory w0 w1 = .ok (Instruction.decodeMoveMemory w0 w1) := by
  have hlt : Word.fieldNat w0 8 8 < 256 := Word.fieldNat_lt w0 _ (by decide)
  simp (disch := decide) only [moveMemory, Instruction.decodeMoveMemory, fieldNat_eq, ok_bind]
  split
  · simp only [*, pure_eq_ok]
  · simp only [*, pure_eq_ok]
    rw [product_eq (by omega), ok_bind]
    split
    · rfl
    · rw [difference_eq (by omega)]
      rfl
  · simp only [*, pure_eq_ok]

def modifyVertex (w0 w1 : UInt32) : Checked Instruction := do
  let index := (← fieldNat w0 0 16) / 2
  match ← fieldNat w0 16 8 with
  | 0x10 => return geometry (.vertexColor index (Color.ofWord w1))
  | 0x14 => return geometry (.vertexTexel index w1)
  | _ => return .nothing

private theorem modifyVertex_eq (w0 w1 : UInt32) :
    modifyVertex w0 w1 = .ok (Instruction.decodeModifyVertex w0 w1) := by
  simp (disch := decide) only [modifyVertex, Instruction.decodeModifyVertex, fieldNat_eq, ok_bind]
  split <;> simp only [*, pure_eq_ok]

/-- The shift saturates at zero, which is no fault. -/
def modeBits (word : ModeWord) (w0 w1 : UInt32) : Checked Instruction := do
  let length ← sum 32 (← fieldNat w0 0 8) 1
  let reach ← sum 32 (← fieldNat w0 8 8) length
  return render (.modeBits word (UInt32.ofNat (32 - reach)) (UInt32.ofNat length) w1)

private theorem modeBits_eq (word : ModeWord) (w0 w1 : UInt32) :
    modeBits word w0 w1 = .ok (Instruction.decodeModeBits word w0 w1) := by
  have hlength : (Word.field w0 0 8).toNat < 256 := Word.fieldNat_lt w0 _ (by decide)
  have hplace : (Word.field w0 8 8).toNat < 256 := Word.fieldNat_lt w0 _ (by decide)
  have hlong : UInt32.ofNat (Word.fieldNat w0 0 8 + 1) = Word.field w0 0 8 + 1 := by
    rw [UInt32.ofNat_add, Word.fieldNat, UInt32.ofNat_toNat]
    rfl
  have hreach : (Word.field w0 8 8 + (Word.field w0 0 8 + 1)).toNat =
      Word.fieldNat w0 8 8 + (Word.fieldNat w0 0 8 + 1) := by
    simp only [UInt32.toNat_add, UInt32.toNat_one, Word.fieldNat]
    omega
  have hshift : UInt32.ofNat (32 - (Word.fieldNat w0 8 8 + (Word.fieldNat w0 0 8 + 1))) =
      if Word.field w0 8 8 + (Word.field w0 0 8 + 1) ≤ 32 then
        32 - (Word.field w0 8 8 + (Word.field w0 0 8 + 1))
      else 0 := by
    rw [← hreach]
    apply UInt32.toNat_inj.mp
    split
    · rename_i hle
      have hnat := UInt32.le_iff_toNat_le.mp hle
      rw [UInt32.toNat_sub_of_le _ _ hle, UInt32.toNat_ofNat']
      change _ = 32 - _
      omega
    · rename_i hle
      have hnat := mt UInt32.le_iff_toNat_le.mpr hle
      change ¬ _ ≤ 32 at hnat
      rw [Nat.sub_eq_zero_of_le (by omega)]
      rfl
  rw [modeBits, fieldNat_eq (by decide) (by decide), ok_bind, sum_eq (by rw [Word.fieldNat]; omega),
    ok_bind, fieldNat_eq (by decide) (by decide), ok_bind,
    sum_eq (by simp only [Word.fieldNat]; omega), ok_bind, hlong, hshift]
  rfl

def textureUse (w0 w1 : UInt32) : Checked Instruction := do
  let fraction (half : UInt16) := Single.ofNat half.toNat / 65536
  return texture (.use {
    on := decide ((← fieldNat w0 1 7) ≠ 0)
    tile := ← tilePlace w0 8
    scale := ⟨fraction (Word.upper w1), fraction (Word.lower w1)⟩ })

private theorem textureUse_eq (w0 w1 : UInt32) : textureUse w0 w1 = .ok
    (Instruction.decodeTexture w0 w1) := by
  simp (disch := decide) only [textureUse, fieldNat_eq, tilePlace_eq, ok_bind]
  rfl

def instruction (opcode : Opcode) (w0 w1 : UInt32) (operands : UInt32 × UInt32) :
    Checked Instruction := do
  match opcode with
  | .noOperation | .renderNoOperation | .loadSync | .pipeSync | .tileSync | .fullSync | .halfWord2
  | .special1 | .special2 | .special3 | .transfer | .loadMicrocode => return .nothing
  | .callList => return flow (if (← fieldNat w0 16 8) = 0 then .call w1 else .jump w1)
  | .endList => return flow .finish
  | .branchDepth => return flow .branch
  | .cullList => return flow (.cull ((← fieldNat w0 0 16) / 2) ((← fieldNat w1 0 16) / 2))
  | .halfWord1 => return geometry (.holdWord w1)
  | .loadVertices =>
    let count ← fieldNat w0 12 8
    return geometry (.loadVertices ((← fieldNat w0 1 7) - count) count w1)
  | .modifyVertex => modifyVertex w0 w1
  | .triangle => return .triangle (← corners w0)
  | .twoTriangles | .quadrangle => return .twoTriangles (← corners w0) (← corners w1)
  | .loadMatrix => return geometry (.applyMatrix (.ofBits ((← field w0 0 8) ^^^ 1)) w1)
  | .popMatrix => return geometry (.popMatrices (w1 >>> 6).toNat)
  | .moveWord => moveWord w0 w1
  | .moveMemory => moveMemory w0 w1
  | .setGeometryMode => return render (.geometryMode (← field w0 0 24) w1)
  | .setTexture => textureUse w0 w1
  | .setModesLow => modeBits .low w0 w1
  | .setModesHigh => modeBits .high w0 w1
  | .setModes => return render (.modes ⟨← field w0 0 24, w1⟩)
  | .setCombine => return render (.mux (Combiner.Key.ofWords w0 w1 .none).mux)
  | .setPrimColor =>
    return render (.color (.prim w1 (← field w0 8 5).toUInt8 (← field w0 0 8).toUInt8))
  | .setEnvColor => return render (.color (.env w1))
  | .setFogColor => return render (.color (.fog w1))
  | .setBlendColor => return render (.color (.blend w1))
  | .setFillColor => return render (.color (.fill w1))
  | .setKeyRed => return render (.color (.keyRed (← field w1 8 8) (← field w1 0 8)))
  | .setKeyGreenBlue =>
    return render (.color (.keyGreenBlue (← field w1 24 8) (← field w1 16 8) (← field w1 8 8)
      (← field w1 0 8)))
  | .setConvert =>
    return render (.color (.conversion (Word.extend9 (← field w1 9 9))
      (Word.extend9 (← field w1 0 9))))
  | .setColorImage => return render (.colorImage (← image w0 w1))
  | .setDepthImage => return render (.depthImage w1)
  | .setScissor => return render (.scissor (← quarterRect w0 w1))
  | .setPrimDepth => return render .primDepth
  | .setTextureImage => return texture (.image (← image w0 w1))
  | .setTile => return texture (.layout (← tilePlace w1 24) (← tileLayout w0 w1))
  | .setTileSize => return texture (.bounds (← tilePlace w1 24) (← quarterRect w0 w1))
  | .loadBlock =>
    return texture (.loadBlock (← tilePlace w1 24) (← fieldNat w0 12 12) (← fieldNat w0 0 12))
  | .loadTile => return texture (.loadTile (← tilePlace w1 24) (← quarterRect w0 w1))
  | .loadPalette =>
    return texture (.loadPalette (← tilePlace w1 24) ((← fieldNat w0 12 12) / 4)
      (← sum 64 (← fieldNat w1 14 10) 1))
  | .fillRect => return .fillRect (← quarterRect w1 w0)
  | .texturedRect =>
    return .texturedRect ⟨← quarterRect w1 w0, ← tilePlace w1 24, operands.1, operands.2, false⟩
  | .flippedRect =>
    return .texturedRect ⟨← quarterRect w1 w0, ← tilePlace w1 24, operands.1, operands.2, true⟩

private theorem instruction_eq (opcode : Opcode) (w0 w1 : UInt32) (operands : UInt32 × UInt32) :
    instruction opcode w0 w1 operands = .ok (Instruction.ofOpcode opcode w0 w1 operands) := by
  cases opcode with
  | modifyVertex => exact modifyVertex_eq w0 w1
  | moveWord => exact moveWord_eq w0 w1
  | moveMemory => exact moveMemory_eq w0 w1
  | setTexture => exact textureUse_eq w0 w1
  | setModesLow => exact modeBits_eq .low w0 w1
  | setModesHigh => exact modeBits_eq .high w0 w1
  | loadPalette =>
    have hlt : Word.fieldNat w1 14 10 < 1024 := Word.fieldNat_lt w1 _ (by decide)
    simp (disch := decide) only [instruction, fieldNat_eq, tilePlace_eq, ok_bind]
    rw [sum_eq (by omega)]
    rfl
  | _ =>
    simp (disch := decide) only [instruction, fieldNat_eq, field_eq, corners_eq, quarterRect_eq,
      tileLayout_eq, image_eq, tilePlace_eq, ok_bind, pure_eq_ok]
    rfl

def fetch (ram : Ram) (address : UInt32) : Checked (Instruction × UInt32) := do
  let w0 := ram.read32 address
  let w1 := ram.read32 (address + 4)
  let after := Instruction.following ram address
  match Opcode.ofByte? (Instruction.codeOf w0) with
  | none => return (.unknown (Instruction.codeOf w0), after)
  | some opcode =>
    if Instruction.takesOperands opcode then
      let (operands, after) := Instruction.fetchOperands ram after
      return (← instruction opcode w0 w1 operands, after)
    else return (← instruction opcode w0 w1 (0, 0), after)

theorem fetch_eq (ram : Ram) (address : UInt32) :
    fetch ram address = .ok (Instruction.fetch ram address) := by
  simp only [fetch, Instruction.fetch, instruction_eq, ok_bind, pure_eq_ok]
  cases Opcode.ofByte? (Instruction.codeOf (ram.read32 address)) with
  | none => rfl
  | some opcode =>
    dsimp only
    split <;> rfl

end DisplayPipeline.Checked
