import DisplayPipeline.Combiner.Key
import DisplayPipeline.Device.ColorRead
import DisplayPipeline.Texture.Source

/-!
# Render commands

What the display list processor asks the renderer to do. A command is self-contained: texels are
part of it, never a reference to console memory.
-/

namespace DisplayPipeline

/-- A texture for one of the two texture units. -/
structure TextureLoad where
  unit : UInt8
  source : TextureSource
deriving DecidableEq, Repr

/-- A region of the render target for one of the two texture units. -/
structure ColorCapture where
  unit : UInt8
  /-- The console address that the region stands for. -/
  address : UInt32
  read : ColorRead
deriving DecidableEq, Repr

/-- A rectangle in console pixels with texture coordinates as fractions of the texture's size. -/
structure TexturedRect where
  x0 : Float32
  y0 : Float32
  x1 : Float32
  y1 : Float32
  s0 : Float32
  t0 : Float32
  s1 : Float32
  t1 : Float32
deriving DecidableEq, Repr, Inhabited

namespace TexturedRect

def toList (r : TexturedRect) : List Float32 := [r.x0, r.y0, r.x1, r.y1, r.s0, r.t0, r.s1, r.t1]

/-- The rectangle with the given numbers; a missing one is zero. -/
def ofList (c : List Float32) : TexturedRect :=
  ⟨c.getD 0 0, c.getD 1 0, c.getD 2 0, c.getD 3 0, c.getD 4 0, c.getD 5 0, c.getD 6 0, c.getD 7 0⟩

end TexturedRect

/-- The kinds of commands. -/
inductive CommandKind where
  | setCombine
  | setOtherModes
  | setColors
  | loadTexture
  | invalidateRange
  | captureColorBuffer
  | drawTriangles
  | drawRects
  | fillRects
  | endFrame
deriving DecidableEq, Repr, Inhabited

namespace CommandKind

/-- The number that stands for a kind in the written form. -/
def code : CommandKind → UInt16
  | setCombine => 0x01
  | setOtherModes => 0x02
  | setColors => 0x03
  | loadTexture => 0x10
  | invalidateRange => 0x11
  | captureColorBuffer => 0x12
  | drawTriangles => 0x20
  | drawRects => 0x21
  | fillRects => 0x22
  | endFrame => 0x30

def ofCode? : UInt16 → Option CommandKind
  | 0x01 => some setCombine
  | 0x02 => some setOtherModes
  | 0x03 => some setColors
  | 0x10 => some loadTexture
  | 0x11 => some invalidateRange
  | 0x12 => some captureColorBuffer
  | 0x20 => some drawTriangles
  | 0x21 => some drawRects
  | 0x22 => some fillRects
  | 0x30 => some endFrame
  | _ => none

def name : CommandKind → String
  | setCombine => "SetCombine"
  | setOtherModes => "SetOtherModes"
  | setColors => "SetColors"
  | loadTexture => "LoadTexture"
  | invalidateRange => "InvalidateRange"
  | captureColorBuffer => "CaptureColorBuffer"
  | drawTriangles => "DrawTriangles"
  | drawRects => "DrawRects"
  | fillRects => "FillRects"
  | endFrame => "EndFrame"

end CommandKind

/-- A render command. -/
inductive Command where
  | setCombine (mux : UInt64) (flags : Combiner.Flags)
  | setOtherModes (high low : UInt32)
  | setColors (colors : Combiner.ConstantColors)
  | loadTexture (load : TextureLoad)
  | invalidateRange (address length : UInt32)
  | captureColorBuffer (capture : ColorCapture)
  /-- A triangle list; its length is a multiple of three. -/
  | drawTriangles (vertices : List Vertex)
  | drawRects (rects : List TexturedRect)
  | fillRects (rects : List FillRect)
  | endFrame
deriving DecidableEq, Repr

namespace Command

def kind : Command → CommandKind
  | setCombine .. => .setCombine
  | setOtherModes .. => .setOtherModes
  | setColors .. => .setColors
  | loadTexture .. => .loadTexture
  | invalidateRange .. => .invalidateRange
  | captureColorBuffer .. => .captureColorBuffer
  | drawTriangles .. => .drawTriangles
  | drawRects .. => .drawRects
  | fillRects .. => .fillRects
  | endFrame => .endFrame

/-- The bytes before the payload of a written command. -/
def headerBytes : Nat := 8

def maxPayload : Nat := 8192

/-- The largest written command that is read. -/
def maxBytes : Nat := headerBytes + maxPayload

/-- The most texels' bytes in one load: the size of the console's texture memory. -/
def maxTexelBytes : Nat := 4096

def maxPaletteEntries : Nat := 256

/-- The most vertices that one command of a display list draws. -/
def maxBatchVertices : Nat := 96

/-- The most rectangles that one command of a display list draws. -/
def maxBatchRects : Nat := 64

/-- The most fills that one command of a display list makes. -/
def maxBatchFills : Nat := 128

def vertexBytes : Nat := 40

/-- The bytes of a written textured rectangle. -/
def rectBytes : Nat := 32

def fillBytes : Nat := 12

/-- The bytes before the palette of a written texture load. -/
def textureHeaderBytes : Nat := 28

/-- The number of payload bytes of a written command. -/
def payloadLength : Command → Nat
  | setCombine .. => 12
  | setOtherModes .. => 8
  | setColors .. => 36
  | loadTexture load =>
    textureHeaderBytes + ((load.source.palette.map (·.entries.size)).getD 0) * 2 +
      load.source.bytes.length
  | invalidateRange .. => 8
  | captureColorBuffer .. => 24
  | drawTriangles vertices => 4 + vertices.length * vertexBytes
  | drawRects rects => 4 + rects.length * rectBytes
  | fillRects rects => 4 + rects.length * fillBytes
  | endFrame => 0

/-- The number of bytes of a written command. -/
def encodedLength (c : Command) : Nat := headerBytes + c.payloadLength

end Command

end DisplayPipeline
