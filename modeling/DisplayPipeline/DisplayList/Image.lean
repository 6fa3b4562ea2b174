import DisplayPipeline.Console.Segments

namespace DisplayPipeline

/-- A rectangle in quarters of a pixel. -/
structure QuarterRect where
  left : Nat := 0
  top : Nat := 0
  right : Nat := 0
  bottom : Nat := 0
deriving DecidableEq, Repr, Inhabited

namespace QuarterRect

/-- The rectangle whose corners are held in the lower 24 bits of two words. -/
def ofWords (upperLeft lowerRight : UInt32) : QuarterRect :=
  { left := Word.fieldNat upperLeft 12 12
    top := Word.fieldNat upperLeft 0 12
    right := Word.fieldNat lowerRight 12 12
    bottom := Word.fieldNat lowerRight 0 12 }

end QuarterRect

/-- An image in memory. -/
structure Image where
  address : UInt32 := 0
  format : Nat := 0
  /-- The binary logarithm of the nibbles of a texel. -/
  size : Nat := 0
  /-- The texels of a row. -/
  width : Nat := 0
deriving DecidableEq, Repr, Inhabited

namespace Image

def ofWord (word address : UInt32) : Image :=
  { address
    format := Word.fieldNat word 21 3
    size := Word.fieldNat word 19 2
    width := Word.fieldNat word 0 12 + 1 }

/-- The image with its segmented address resolved. -/
def locate (image : Image) (segments : Segments) : Image :=
  { image with address := segments.resolve image.address }

/-- The bytes that a number of texels takes, a nibble at the end counted as a byte. -/
def rowBytes (image : Image) : Nat := (image.width <<< image.size + 1) / 2

/-- The bytes of a pixel if the image is drawn to; at least one. -/
def bytesPerPixel (image : Image) : Nat :=
  match image.size with
  | 0 | 1 => 1
  | 2 => 2
  | _ => 4

def isSixteenBit (image : Image) : Bool := image.size = 2

def texelAddress (image : Image) (column row : Nat) : UInt32 :=
  image.address + UInt32.ofNat (row * image.rowBytes) +
    UInt32.ofNat ((column <<< image.size) / 2)

/-- The bytes of the rows of a screen with the image's width. -/
def frameBytes (image : Image) (height : Nat) : Nat := image.width * height * image.bytesPerPixel

/-- Whether an address lies in the image, taken to have `height` rows. -/
def covers (image : Image) (height : Nat) (address : UInt32) : Bool :=
  image.address.toNat ≤ address.toNat &&
    address.toNat < image.address.toNat + image.frameBytes height

end Image

end DisplayPipeline
