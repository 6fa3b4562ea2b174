import DisplayPipeline.Word
import DisplayPipeline.Texel.Format

/-!
# Packing of texels

Texels as numbers against the bytes of a packed row. `unpack` reads every texel that a run of bytes
holds, `pack` writes texels and fills the last byte up with zero bits.
-/

namespace DisplayPipeline.TexelDepth

private def halves (b : UInt8) : List UInt32 := [(b >>> 4).toUInt32, (b &&& 0xF).toUInt32]

private def quads : List UInt8 → List UInt32
  | a :: b :: c :: d :: rest => Word.join32 a b c d :: quads rest
  | _ => []

/-- The texels that a run of bytes holds, in order. -/
def unpack : TexelDepth → List UInt8 → List UInt32
  | four, bytes => bytes.flatMap halves
  | eight, bytes => bytes.map UInt8.toUInt32
  | sixteen, bytes => (Word.pairs16 bytes).map UInt16.toUInt32
  | thirtyTwo, bytes => quads bytes

private def joinHalves : List UInt32 → List UInt8
  | hi :: lo :: rest => (hi.toUInt8 <<< 4 ||| lo.toUInt8 &&& 0xF) :: joinHalves rest
  | [hi] => [hi.toUInt8 <<< 4]
  | [] => []

def pack : TexelDepth → List UInt32 → List UInt8
  | four, texels => joinHalves texels
  | eight, texels => texels.map UInt32.toUInt8
  | sixteen, texels => texels.flatMap fun t => Word.be16 t.toUInt16
  | thirtyTwo, texels => texels.flatMap Word.be32

theorem unpack_four_cons (b : UInt8) (bytes : List UInt8) :
    four.unpack (b :: bytes) =
      (b >>> 4).toUInt32 :: (b &&& 0xF).toUInt32 :: four.unpack bytes := rfl

theorem unpack_sixteen_cons (hi lo : UInt8) (bytes : List UInt8) :
    sixteen.unpack (hi :: lo :: bytes) =
      (Word.join16 hi lo).toUInt32 :: sixteen.unpack bytes := rfl

theorem unpack_thirtyTwo_cons (a b c d : UInt8) (bytes : List UInt8) :
    thirtyTwo.unpack (a :: b :: c :: d :: bytes) =
      Word.join32 a b c d :: thirtyTwo.unpack bytes := rfl

theorem pack_four_cons (hi lo : UInt32) (texels : List UInt32) :
    four.pack (hi :: lo :: texels) =
      (hi.toUInt8 <<< 4 ||| lo.toUInt8 &&& 0xF) :: four.pack texels := rfl

theorem pack_four_single (hi : UInt32) : four.pack [hi] = [hi.toUInt8 <<< 4] := rfl

theorem pack_sixteen_cons (texel : UInt32) (texels : List UInt32) :
    sixteen.pack (texel :: texels) = Word.be16 texel.toUInt16 ++ sixteen.pack texels := rfl

theorem pack_thirtyTwo_cons (texel : UInt32) (texels : List UInt32) :
    thirtyTwo.pack (texel :: texels) = Word.be32 texel ++ thirtyTwo.pack texels := rfl

/-- The first `count` runs of `size` elements each. -/
def runs {α : Type} (size : Nat) : Nat → List α → List (List α)
  | 0, _ => []
  | count + 1, rest => rest.take size :: runs size count (rest.drop size)

end DisplayPipeline.TexelDepth
