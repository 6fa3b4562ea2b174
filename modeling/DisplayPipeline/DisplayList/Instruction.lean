import DisplayPipeline.DisplayList.Opcode
import DisplayPipeline.DisplayList.Registers.Basic

/-!
# Instructions

A display list is a sequence of instructions of two words each. Rectangles with a texture take their
coordinates from the one or two instructions that follow them.
-/

namespace DisplayPipeline

/-- Three positions in the vertex buffer. -/
structure Corners where
  a : Nat
  b : Nat
  c : Nat
deriving DecidableEq, Repr, Inhabited

namespace Corners

/-- The positions that a word holds, each doubled. -/
def ofWord (word : UInt32) : Corners :=
  ⟨Word.fieldNat word 16 8 / 2, Word.fieldNat word 8 8 / 2, Word.fieldNat word 0 8 / 2⟩

end Corners

/-- A rectangle with a texture, as an instruction asks for it. -/
structure RectRequest where
  bounds : QuarterRect
  tile : TileIndex
  /-- The texture coordinates of the first corner, in 32nds of a texel. -/
  start : UInt32
  /-- The texels per pixel, in 1024ths. -/
  step : UInt32
  /-- Whether the first texture coordinate runs down rather than across. -/
  flipped : Bool
deriving DecidableEq, Repr

/-- What moves the position in the display list. Addresses are segmented. -/
inductive Flow where
  /-- Runs another list and comes back. -/
  | call (target : UInt32)
  /-- Goes on with another list. -/
  | jump (target : UInt32)
  /-- Goes on at the address in the held word. -/
  | branch
  /-- Ends the list. -/
  | finish
  /-- Ends the list if none of a range of vertices can be seen. -/
  | cull (first last : Nat)
deriving DecidableEq, Repr

/-- An instruction. -/
inductive Instruction where
  | nothing
  | unknown (code : UInt8)
  | flow (flow : Flow)
  | geometry (change : GeometryChange)
  | render (change : RenderChange)
  | texture (change : TextureChange)
  | triangle (corners : Corners)
  | twoTriangles (first second : Corners)
  | fillRect (bounds : QuarterRect)
  | texturedRect (rect : RectRequest)
deriving DecidableEq, Repr

namespace Instruction

def tileOf (word : UInt32) : TileIndex := .ofNat (Word.fieldNat word 24 3)

def byteOf (word shift : UInt32) : UInt8 := (Word.field word shift 8).toUInt8

/-- A change of one word in the console's data. -/
def decodeMoveWord (w0 w1 : UInt32) : Instruction :=
  let offset := Word.fieldNat w0 0 16
  match Word.fieldNat w0 16 8 with
  | 0x02 => geometry (.lightCount (w1.toNat / 24))
  | 0x06 => geometry (.segment (offset / 4) w1)
  -- The color of a light is held twice.
  | 0x0A =>
    if offset % 24 = 0 ∨ offset % 24 = 4 then geometry (.lightColor (offset / 24) w1) else nothing
  | _ => nothing

/-- A change of a block in the console's data. The first two lights stand for the view. -/
def decodeMoveMemory (w0 w1 : UInt32) : Instruction :=
  match Word.fieldNat w0 0 8 with
  | 0x08 => geometry (.viewport w1)
  | 0x0A =>
    let slot := Word.fieldNat w0 8 8 * 8 / 24
    if slot < 2 then nothing else geometry (.light (slot - 2) w1)
  | _ => nothing

def decodeModifyVertex (w0 w1 : UInt32) : Instruction :=
  let index := Word.fieldNat w0 0 16 / 2
  match Word.fieldNat w0 16 8 with
  | 0x10 => geometry (.vertexColor index (Color.ofWord w1))
  | 0x14 => geometry (.vertexTexel index w1)
  | _ => nothing

/-- A change of some bits of a mode word. The shift is counted from the top. -/
def decodeModeBits (word : ModeWord) (w0 w1 : UInt32) : Instruction :=
  let length := Word.field w0 0 8 + 1
  let reach := Word.field w0 8 8 + length
  render (.modeBits word (if reach ≤ 32 then 32 - reach else 0) length w1)

def decodeTexture (w0 w1 : UInt32) : Instruction :=
  let fraction (half : UInt16) := Single.ofNat half.toNat / 65536
  texture (.use
    { on := Word.fieldNat w0 1 7 ≠ 0
      tile := .ofNat (Word.fieldNat w0 8 3)
      scale := ⟨fraction (Word.upper w1), fraction (Word.lower w1)⟩ })

/-- The instruction that an opcode and two words stand for. `operands` are the coordinates of a
rectangle with a texture. -/
def ofOpcode (opcode : Opcode) (w0 w1 : UInt32) (operands : UInt32 × UInt32) : Instruction :=
  match opcode with
  | .noOperation | .renderNoOperation | .loadSync | .pipeSync | .tileSync | .fullSync | .halfWord2
  | .special1 | .special2 | .special3 | .transfer | .loadMicrocode => nothing
  | .callList => flow (if Word.fieldNat w0 16 8 = 0 then .call w1 else .jump w1)
  | .endList => flow .finish
  | .branchDepth => flow .branch
  | .cullList => flow (.cull (Word.fieldNat w0 0 16 / 2) (Word.fieldNat w1 0 16 / 2))
  | .halfWord1 => geometry (.holdWord w1)
  | .loadVertices =>
    let count := Word.fieldNat w0 12 8
    geometry (.loadVertices (Word.fieldNat w0 1 7 - count) count w1)
  | .modifyVertex => decodeModifyVertex w0 w1
  | .triangle => triangle (.ofWord w0)
  | .twoTriangles | .quadrangle => twoTriangles (.ofWord w0) (.ofWord w1)
  -- The bit for saving is held inverted.
  | .loadMatrix => geometry (.applyMatrix (.ofBits (Word.field w0 0 8 ^^^ 1)) w1)
  | .popMatrix => geometry (.popMatrices (w1 >>> 6).toNat)
  | .moveWord => decodeMoveWord w0 w1
  | .moveMemory => decodeMoveMemory w0 w1
  | .setGeometryMode => render (.geometryMode (Word.field w0 0 24) w1)
  | .setTexture => decodeTexture w0 w1
  | .setModesLow => decodeModeBits .low w0 w1
  | .setModesHigh => decodeModeBits .high w0 w1
  | .setModes => render (.modes ⟨Word.field w0 0 24, w1⟩)
  | .setCombine => render (.mux (Combiner.Key.ofWords w0 w1 .none).mux)
  | .setPrimColor => render (.color (.prim w1 (Word.field w0 8 5).toUInt8 (byteOf w0 0)))
  | .setEnvColor => render (.color (.env w1))
  | .setFogColor => render (.color (.fog w1))
  | .setBlendColor => render (.color (.blend w1))
  | .setFillColor => render (.color (.fill w1))
  | .setKeyRed => render (.color (.keyRed (Word.field w1 8 8) (Word.field w1 0 8)))
  | .setKeyGreenBlue =>
    render (.color (.keyGreenBlue (Word.field w1 24 8) (Word.field w1 16 8) (Word.field w1 8 8)
      (Word.field w1 0 8)))
  | .setConvert =>
    render (.color (.conversion (Word.extend9 (Word.field w1 9 9))
      (Word.extend9 (Word.field w1 0 9))))
  | .setColorImage => render (.colorImage (.ofWord w0 w1))
  | .setDepthImage => render (.depthImage w1)
  | .setScissor => render (.scissor (.ofWords w0 w1))
  | .setPrimDepth => render .primDepth
  | .setTextureImage => texture (.image (.ofWord w0 w1))
  | .setTile => texture (.layout (tileOf w1) (.ofWords w0 w1))
  | .setTileSize => texture (.bounds (tileOf w1) (.ofWords w0 w1))
  | .loadBlock => texture (.loadBlock (tileOf w1) (Word.fieldNat w0 12 12) (Word.fieldNat w0 0 12))
  | .loadTile => texture (.loadTile (tileOf w1) (.ofWords w0 w1))
  | .loadPalette =>
    texture (.loadPalette (tileOf w1) (Word.fieldNat w0 12 12 / 4) (Word.fieldNat w1 14 10 + 1))
  | .fillRect => fillRect (.ofWords w1 w0)
  | .texturedRect => texturedRect ⟨.ofWords w1 w0, tileOf w1, operands.1, operands.2, false⟩
  | .flippedRect => texturedRect ⟨.ofWords w1 w0, tileOf w1, operands.1, operands.2, true⟩

/-- The opcode of an instruction's first word. -/
def codeOf (word : UInt32) : UInt8 := (word >>> 24).toUInt8

/-- The address of the instruction after the one at an address. -/
def following (ram : Ram) (address : UInt32) : UInt32 := ram.clamp (address + 8)

/-- The coordinates of a rectangle with a texture, held at an address, and the address after them.
They are a bare pair of words or the second words of two instructions. -/
def fetchOperands (ram : Ram) (address : UInt32) : (UInt32 × UInt32) × UInt32 :=
  let w2 := ram.read32 address
  let w3 := ram.read32 (address + 4)
  let after := following ram address
  if Opcode.ofByte? (codeOf w2) = some .halfWord1 then
    ((w3, ram.read32 (after + 4)), following ram after)
  else ((w2, w3), after)

/-- Whether coordinates follow an instruction. -/
def takesOperands : Opcode → Bool
  | .texturedRect | .flippedRect => true
  | _ => false

/-- The instruction at an address, and the address after it. -/
def fetch (ram : Ram) (address : UInt32) : Instruction × UInt32 :=
  let w0 := ram.read32 address
  let w1 := ram.read32 (address + 4)
  let after := following ram address
  match Opcode.ofByte? (codeOf w0) with
  | none => (unknown (codeOf w0), after)
  | some opcode =>
    if takesOperands opcode then
      let (operands, after) := fetchOperands ram after
      (ofOpcode opcode w0 w1 operands, after)
    else (ofOpcode opcode w0 w1 (0, 0), after)

end Instruction

end DisplayPipeline
