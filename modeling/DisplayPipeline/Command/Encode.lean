import DisplayPipeline.Command.Basic

namespace DisplayPipeline.Command

def single (v : Float32) : List UInt8 := Word.le32 v.toBits

def singles (vs : List Float32) : List UInt8 := vs.flatMap single

def count (n : Nat) : List UInt8 := Word.le32 (UInt32.ofNat n)

def encodeColors (c : Combiner.ConstantColors) : List UInt8 :=
  [c.prim, c.env, c.fog, c.blend, c.fill, c.keyCenter, c.keyScale].flatMap Word.le32 ++
    Word.le16 c.k4 ++ Word.le16 c.k5 ++ [c.primLodFraction, c.primMinLevel] ++ Word.le16 0

def encodeTexture (load : TextureLoad) : List UInt8 :=
  let s := load.source
  let entries := (s.palette.map (·.entries.toList)).getD []
  [load.unit, s.format.code, (s.palette.map (·.format.code)).getD TextureSource.noPalette, 0] ++
    Word.le32 s.address ++ Word.le32 s.width ++ Word.le32 s.height ++
    Word.le16 (UInt16.ofNat entries.length) ++ Word.le16 0 ++ count s.bytes.length ++
    Word.le32 s.sourceLength ++ entries.flatMap Word.le16 ++ s.bytes

def encodeCapture (c : ColorCapture) : List UInt8 :=
  let r := c.read.region
  [c.unit, c.read.bitDepth, if c.read.synchronous then 1 else 0, 0] ++
    Word.le32 c.address ++ [r.x0, r.y0, r.width, r.height].flatMap Word.le32

def encodeFill (r : FillRect) : List UInt8 :=
  Word.le16 r.x0 ++ Word.le16 r.y0 ++ Word.le16 r.x1 ++ Word.le16 r.y1 ++ r.color.bytes

def payload : Command → List UInt8
  | setCombine mux flags => Word.le64 mux ++ Word.le32 flags.bits
  | setOtherModes high low => Word.le32 high ++ Word.le32 low
  | setColors colors => encodeColors colors
  | loadTexture load => encodeTexture load
  | invalidateRange address length => Word.le32 address ++ Word.le32 length
  | captureColorBuffer capture => encodeCapture capture
  | drawTriangles vertices => count vertices.length ++ vertices.flatMap (singles ·.toList)
  | drawRects rects => count rects.length ++ rects.flatMap (singles ·.toList)
  | fillRects rects => count rects.length ++ rects.flatMap encodeFill
  | endFrame => []

def encode (c : Command) : List UInt8 :=
  Word.le16 c.kind.code ++ Word.le16 0 ++ count c.payloadLength ++ c.payload

end DisplayPipeline.Command
