/-!
# Opcodes

The top byte of an instruction says what it does. `Opcode.name` is the name under which programmers
of the console know it.
-/

namespace DisplayPipeline

/-- What an instruction does. -/
inductive Opcode where
  | noOperation
  | loadVertices
  | modifyVertex
  | cullList
  | branchDepth
  | triangle
  | twoTriangles
  | quadrangle
  | special3
  | special2
  | special1
  | transfer
  | setTexture
  | popMatrix
  | setGeometryMode
  | loadMatrix
  | moveWord
  | moveMemory
  | loadMicrocode
  | callList
  | endList
  | renderNoOperation
  | halfWord1
  | setModesLow
  | setModesHigh
  | texturedRect
  | flippedRect
  | loadSync
  | pipeSync
  | tileSync
  | fullSync
  | setKeyGreenBlue
  | setKeyRed
  | setConvert
  | setScissor
  | setPrimDepth
  | setModes
  | loadPalette
  | halfWord2
  | setTileSize
  | loadBlock
  | loadTile
  | setTile
  | fillRect
  | setFillColor
  | setFogColor
  | setBlendColor
  | setPrimColor
  | setEnvColor
  | setCombine
  | setTextureImage
  | setDepthImage
  | setColorImage
deriving DecidableEq, Repr, Inhabited

namespace Opcode

def ofByte? : UInt8 → Option Opcode
  | 0x00 => some noOperation
  | 0x01 => some loadVertices
  | 0x02 => some modifyVertex
  | 0x03 => some cullList
  | 0x04 => some branchDepth
  | 0x05 => some triangle
  | 0x06 => some twoTriangles
  | 0x07 => some quadrangle
  | 0xD3 => some special3
  | 0xD4 => some special2
  | 0xD5 => some special1
  | 0xD6 => some transfer
  | 0xD7 => some setTexture
  | 0xD8 => some popMatrix
  | 0xD9 => some setGeometryMode
  | 0xDA => some loadMatrix
  | 0xDB => some moveWord
  | 0xDC => some moveMemory
  | 0xDD => some loadMicrocode
  | 0xDE => some callList
  | 0xDF => some endList
  | 0xE0 => some renderNoOperation
  | 0xE1 => some halfWord1
  | 0xE2 => some setModesLow
  | 0xE3 => some setModesHigh
  | 0xE4 => some texturedRect
  | 0xE5 => some flippedRect
  | 0xE6 => some loadSync
  | 0xE7 => some pipeSync
  | 0xE8 => some tileSync
  | 0xE9 => some fullSync
  | 0xEA => some setKeyGreenBlue
  | 0xEB => some setKeyRed
  | 0xEC => some setConvert
  | 0xED => some setScissor
  | 0xEE => some setPrimDepth
  | 0xEF => some setModes
  | 0xF0 => some loadPalette
  | 0xF1 => some halfWord2
  | 0xF2 => some setTileSize
  | 0xF3 => some loadBlock
  | 0xF4 => some loadTile
  | 0xF5 => some setTile
  | 0xF6 => some fillRect
  | 0xF7 => some setFillColor
  | 0xF8 => some setFogColor
  | 0xF9 => some setBlendColor
  | 0xFA => some setPrimColor
  | 0xFB => some setEnvColor
  | 0xFC => some setCombine
  | 0xFD => some setTextureImage
  | 0xFE => some setDepthImage
  | 0xFF => some setColorImage
  | _ => none

def name : Opcode → String
  | noOperation => "G_SPNOOP"
  | loadVertices => "G_VTX"
  | modifyVertex => "G_MODIFYVTX"
  | cullList => "G_CULLDL"
  | branchDepth => "G_BRANCH_Z"
  | triangle => "G_TRI1"
  | twoTriangles => "G_TRI2"
  | quadrangle => "G_QUAD"
  | special3 => "G_SPECIAL_3"
  | special2 => "G_SPECIAL_2"
  | special1 => "G_SPECIAL_1"
  | transfer => "G_DMA_IO"
  | setTexture => "G_TEXTURE"
  | popMatrix => "G_POPMTX"
  | setGeometryMode => "G_GEOMETRYMODE"
  | loadMatrix => "G_MTX"
  | moveWord => "G_MOVEWORD"
  | moveMemory => "G_MOVEMEM"
  | loadMicrocode => "G_LOAD_UCODE"
  | callList => "G_DL"
  | endList => "G_ENDDL"
  | renderNoOperation => "G_NOOP"
  | halfWord1 => "G_RDPHALF_1"
  | setModesLow => "G_SETOTHERMODE_L"
  | setModesHigh => "G_SETOTHERMODE_H"
  | texturedRect => "G_TEXRECT"
  | flippedRect => "G_TEXRECTFLIP"
  | loadSync => "G_RDPLOADSYNC"
  | pipeSync => "G_RDPPIPESYNC"
  | tileSync => "G_RDPTILESYNC"
  | fullSync => "G_RDPFULLSYNC"
  | setKeyGreenBlue => "G_SETKEYGB"
  | setKeyRed => "G_SETKEYR"
  | setConvert => "G_SETCONVERT"
  | setScissor => "G_SETSCISSOR"
  | setPrimDepth => "G_SETPRIMDEPTH"
  | setModes => "G_RDPSETOTHERMODE"
  | loadPalette => "G_LOADTLUT"
  | halfWord2 => "G_RDPHALF_2"
  | setTileSize => "G_SETTILESIZE"
  | loadBlock => "G_LOADBLOCK"
  | loadTile => "G_LOADTILE"
  | setTile => "G_SETTILE"
  | fillRect => "G_FILLRECT"
  | setFillColor => "G_SETFILLCOLOR"
  | setFogColor => "G_SETFOGCOLOR"
  | setBlendColor => "G_SETBLENDCOLOR"
  | setPrimColor => "G_SETPRIMCOLOR"
  | setEnvColor => "G_SETENVCOLOR"
  | setCombine => "G_SETCOMBINE"
  | setTextureImage => "G_SETTIMG"
  | setDepthImage => "G_SETZIMG"
  | setColorImage => "G_SETCIMG"

/-- The name of the opcode that a byte stands for, as reports give it. -/
def nameOfByte (code : UInt8) : String := ((ofByte? code).map name).getD "UNKNOWN"

end Opcode

end DisplayPipeline
