import DisplayPipeline.Word

namespace DisplayPipeline

/-- The base addresses of the segments. -/
structure Segments where
  bases : Vector UInt32 16 := .replicate 16 0
deriving DecidableEq, Repr

namespace Segments

/-- The bits of an address below the segment number. -/
def offsetMask : UInt32 := 0x00FFFFFF

/-- Moves a segment. There is no segment past the fifteenth. -/
def set (s : Segments) (segment : Nat) (base : UInt32) : Segments :=
  ⟨s.bases.setIfInBounds segment (base &&& offsetMask)⟩

/-- The base of a segment; zero past the fifteenth. -/
def base (s : Segments) (segment : Nat) : UInt32 := s.bases[segment]?.getD 0

def segmentOf (address : UInt32) : Fin 16 := Fin.ofNat 16 (address >>> 24).toNat

/-- The address in memory of a segmented address. -/
def resolve (s : Segments) (address : UInt32) : UInt32 :=
  s.bases.get (segmentOf address) + (address &&& offsetMask)

end Segments

end DisplayPipeline
