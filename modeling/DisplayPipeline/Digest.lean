/-!
# Content digest

The 64-bit XXH3 digest with seed 0. Short inputs are folded directly; inputs of more than 240 bytes
are accumulated in eight lanes, stripe by stripe of 64 bytes, with the lanes scrambled after every
block of 1024 bytes.
-/

namespace DisplayPipeline.Digest

/-- Which route computes a digest. The digest is the same on both. -/
inductive Route where
  | vectorized
  | scalar
deriving DecidableEq, Repr, Inhabited

/-- The constant key that is mixed into the input. -/
def secret : ByteArray := ⟨#[
  0xb8, 0xfe, 0x6c, 0x39, 0x23, 0xa4, 0x4b, 0xbe, 0x7c, 0x01, 0x81, 0x2c,
  0xf7, 0x21, 0xad, 0x1c, 0xde, 0xd4, 0x6d, 0xe9, 0x83, 0x90, 0x97, 0xdb,
  0x72, 0x40, 0xa4, 0xa4, 0xb7, 0xb3, 0x67, 0x1f, 0xcb, 0x79, 0xe6, 0x4e,
  0xcc, 0xc0, 0xe5, 0x78, 0x82, 0x5a, 0xd0, 0x7d, 0xcc, 0xff, 0x72, 0x21,
  0xb8, 0x08, 0x46, 0x74, 0xf7, 0x43, 0x24, 0x8e, 0xe0, 0x35, 0x90, 0xe6,
  0x81, 0x3a, 0x26, 0x4c, 0x3c, 0x28, 0x52, 0xbb, 0x91, 0xc3, 0x00, 0xcb,
  0x88, 0xd0, 0x65, 0x8b, 0x1b, 0x53, 0x2e, 0xa3, 0x71, 0x64, 0x48, 0x97,
  0xa2, 0x0d, 0xf9, 0x4e, 0x38, 0x19, 0xef, 0x46, 0xa9, 0xde, 0xac, 0xd8,
  0xa8, 0xfa, 0x76, 0x3f, 0xe3, 0x9c, 0x34, 0x3f, 0xf9, 0xdc, 0xbb, 0xc7,
  0xc7, 0x0b, 0x4f, 0x1d, 0x8a, 0x51, 0xe0, 0x4b, 0xcd, 0xb4, 0x59, 0x31,
  0xc8, 0x9f, 0x7e, 0xc9, 0xd9, 0x78, 0x73, 0x64, 0xea, 0xc5, 0xac, 0x83,
  0x34, 0xd3, 0xeb, 0xc3, 0xc5, 0x81, 0xa0, 0xff, 0xfa, 0x13, 0x63, 0xeb,
  0x17, 0x0d, 0xdd, 0x51, 0xb7, 0xf0, 0xda, 0x49, 0xd3, 0x16, 0x55, 0x26,
  0x29, 0xd4, 0x68, 0x9e, 0x2b, 0x16, 0xbe, 0x58, 0x7d, 0x47, 0xa1, 0xfc,
  0x8f, 0xf8, 0xb8, 0xd1, 0x7a, 0xd0, 0x31, 0xce, 0x45, 0xcb, 0x3a, 0x8f,
  0x95, 0x16, 0x04, 0x28, 0xaf, 0xd7, 0xfb, 0xca, 0xbb, 0x4b, 0x40, 0x7e]⟩

private def prime32a : UInt64 := 0x9E3779B1
private def prime32b : UInt64 := 0x85EBCA77
private def prime32c : UInt64 := 0xC2B2AE3D
private def prime64a : UInt64 := 0x9E3779B185EBCA87
private def prime64b : UInt64 := 0xC2B2AE3D27D4EB4F
private def prime64c : UInt64 := 0x165667B19E3779F9
private def prime64d : UInt64 := 0x85EBCA77C2B2AE63
private def prime64e : UInt64 := 0x27D4EB2F165667C5
private def mixerA : UInt64 := 0x165667919E3779F9
private def mixerB : UInt64 := 0x9FB21C651E98DF25

private def byteAt (data : ByteArray) (i : Nat) : UInt64 :=
  if h : i < data.size then data[i].toUInt64 else 0

/-- The little-endian word of four bytes at an offset. -/
private def read32 (data : ByteArray) (i : Nat) : UInt64 :=
  byteAt data i ||| byteAt data (i + 1) <<< 8 ||| byteAt data (i + 2) <<< 16 |||
    byteAt data (i + 3) <<< 24

/-- The little-endian word of eight bytes at an offset. -/
private def read64 (data : ByteArray) (i : Nat) : UInt64 :=
  read32 data i ||| read32 data (i + 4) <<< 32

private def rotateLeft (v : UInt64) (n : UInt64) : UInt64 := v <<< n ||| v >>> (64 - n)

private def reverseBytes (v : UInt64) : UInt64 :=
  let v := (v &&& 0x00FF00FF00FF00FF) <<< 8 ||| (v >>> 8) &&& 0x00FF00FF00FF00FF
  let v := (v &&& 0x0000FFFF0000FFFF) <<< 16 ||| (v >>> 16) &&& 0x0000FFFF0000FFFF
  v <<< 32 ||| v >>> 32

/-- The halves of the 128-bit product, combined by exclusive or. -/
private def foldedProduct (a b : UInt64) : UInt64 :=
  let low : UInt64 := 0xFFFFFFFF
  let ll := (a &&& low) * (b &&& low)
  let hl := (a >>> 32) * (b &&& low)
  let lh := (a &&& low) * (b >>> 32)
  let hh := (a >>> 32) * (b >>> 32)
  let cross := (ll >>> 32) + (hl &&& low) + lh
  let upper := (hl >>> 32) + (cross >>> 32) + hh
  let lower := cross <<< 32 ||| ll &&& low
  lower ^^^ upper

/-- Final mixing of inputs of up to three bytes. -/
private def finishShort (h : UInt64) : UInt64 :=
  let h := (h ^^^ h >>> 33) * prime64b
  let h := (h ^^^ h >>> 29) * prime64c
  h ^^^ h >>> 32

private def finish (h : UInt64) : UInt64 :=
  let h := (h ^^^ h >>> 37) * mixerA
  h ^^^ h >>> 32

/-- One input block of 16 bytes mixed with 16 bytes of the key. -/
private def mix16 (data : ByteArray) (offset key : Nat) : UInt64 :=
  foldedProduct (read64 data offset ^^^ read64 secret key)
    (read64 data (offset + 8) ^^^ read64 secret (key + 8))

private def upTo3 (data : ByteArray) : UInt64 :=
  let n := data.size
  let combined := byteAt data 0 <<< 16 ||| byteAt data (n / 2) <<< 24 ||| byteAt data (n - 1) |||
    (UInt64.ofNat n) <<< 8
  finishShort (combined ^^^ (read32 secret 0 ^^^ read32 secret 4))

private def upTo8 (data : ByteArray) : UInt64 :=
  let n := data.size
  let joined := read32 data (n - 4) + (read32 data 0 <<< 32)
  let h := joined ^^^ (read64 secret 8 ^^^ read64 secret 16)
  let h := (h ^^^ rotateLeft h 49 ^^^ rotateLeft h 24) * mixerB
  let h := (h ^^^ ((h >>> 35) + UInt64.ofNat n)) * mixerB
  h ^^^ h >>> 28

private def upTo16 (data : ByteArray) : UInt64 :=
  let n := data.size
  let low := read64 data 0 ^^^ (read64 secret 24 ^^^ read64 secret 32)
  let high := read64 data (n - 8) ^^^ (read64 secret 40 ^^^ read64 secret 48)
  finish (UInt64.ofNat n + reverseBytes low + high + foldedProduct low high)

/-- Blocks are taken in pairs from both ends towards the middle. -/
private def upTo128 (data : ByteArray) : UInt64 :=
  let n := data.size
  let pairs := (n - 1) / 32 + 1
  finish ((List.range pairs).foldl
    (fun acc i => acc + mix16 data (16 * i) (32 * i) + mix16 data (n - 16 * (i + 1)) (32 * i + 16))
    (UInt64.ofNat n * prime64a))

private def upTo240 (data : ByteArray) : UInt64 :=
  let n := data.size
  let first := (List.range 8).foldl (fun acc i => acc + mix16 data (16 * i) (16 * i))
    (UInt64.ofNat n * prime64a)
  let rest := (List.range (n / 16 - 8)).foldl
    (fun acc i => acc + mix16 data (16 * (i + 8)) (16 * i + 3)) (finish first)
  finish (rest + mix16 data (n - 16) 119)

/-- The eight accumulator lanes. -/
private structure Lanes where
  a0 : UInt64
  a1 : UInt64
  a2 : UInt64
  a3 : UInt64
  a4 : UInt64
  a5 : UInt64
  a6 : UInt64
  a7 : UInt64

private def Lanes.start : Lanes :=
  ⟨prime32c, prime64a, prime64b, prime64c, prime64d, prime32b, prime64e, prime32a⟩

/-- What a lane gains from its own input word and from its neighbour's. -/
private def laneGain (own neighbour key : UInt64) : UInt64 :=
  let keyed := own ^^^ key
  neighbour + keyed.toUInt32.toUInt64 * (keyed >>> 32)

private def Lanes.add (l : Lanes) (data : ByteArray) (offset key : Nat) : Lanes :=
  let d0 := read64 data offset
  let d1 := read64 data (offset + 8)
  let d2 := read64 data (offset + 16)
  let d3 := read64 data (offset + 24)
  let d4 := read64 data (offset + 32)
  let d5 := read64 data (offset + 40)
  let d6 := read64 data (offset + 48)
  let d7 := read64 data (offset + 56)
  { a0 := l.a0 + laneGain d0 d1 (read64 secret key)
    a1 := l.a1 + laneGain d1 d0 (read64 secret (key + 8))
    a2 := l.a2 + laneGain d2 d3 (read64 secret (key + 16))
    a3 := l.a3 + laneGain d3 d2 (read64 secret (key + 24))
    a4 := l.a4 + laneGain d4 d5 (read64 secret (key + 32))
    a5 := l.a5 + laneGain d5 d4 (read64 secret (key + 40))
    a6 := l.a6 + laneGain d6 d7 (read64 secret (key + 48))
    a7 := l.a7 + laneGain d7 d6 (read64 secret (key + 56)) }

private def scrambleLane (v key : UInt64) : UInt64 := (v ^^^ v >>> 47 ^^^ key) * prime32a

private def Lanes.scramble (l : Lanes) : Lanes :=
  { a0 := scrambleLane l.a0 (read64 secret 128)
    a1 := scrambleLane l.a1 (read64 secret 136)
    a2 := scrambleLane l.a2 (read64 secret 144)
    a3 := scrambleLane l.a3 (read64 secret 152)
    a4 := scrambleLane l.a4 (read64 secret 160)
    a5 := scrambleLane l.a5 (read64 secret 168)
    a6 := scrambleLane l.a6 (read64 secret 176)
    a7 := scrambleLane l.a7 (read64 secret 184) }

private def Lanes.merge (l : Lanes) (start : UInt64) : UInt64 :=
  finish (start +
    foldedProduct (l.a0 ^^^ read64 secret 11) (l.a1 ^^^ read64 secret 19) +
    foldedProduct (l.a2 ^^^ read64 secret 27) (l.a3 ^^^ read64 secret 35) +
    foldedProduct (l.a4 ^^^ read64 secret 43) (l.a5 ^^^ read64 secret 51) +
    foldedProduct (l.a6 ^^^ read64 secret 59) (l.a7 ^^^ read64 secret 67))

/-- Adds `count` stripes from an offset on, moving on by eight key bytes for each. -/
private def Lanes.addStripes (l : Lanes) (data : ByteArray) (offset count : Nat) : Lanes :=
  (List.range count).foldl (fun l i => l.add data (offset + 64 * i) (8 * i)) l

private def long (data : ByteArray) : UInt64 :=
  let n := data.size
  let blocks := (n - 1) / 1024
  let lanes := (List.range blocks).foldl
    (fun l b => (l.addStripes data (1024 * b) 16).scramble) Lanes.start
  let lanes := lanes.addStripes data (1024 * blocks) ((n - 1 - 1024 * blocks) / 64)
  (lanes.add data (n - 64) 121).merge (UInt64.ofNat n * prime64a)

def ofByteArray (data : ByteArray) : UInt64 :=
  let n := data.size
  if n = 0 then finishShort (read64 secret 56 ^^^ read64 secret 64)
  else if n ≤ 3 then upTo3 data
  else if n ≤ 8 then upTo8 data
  else if n ≤ 16 then upTo16 data
  else if n ≤ 128 then upTo128 data
  else if n ≤ 240 then upTo240 data
  else long data

def ofBytes (bytes : List UInt8) : UInt64 := ofByteArray bytes.toByteArray

/-- The digest of the concatenation of several parts. -/
def ofParts (parts : List (List UInt8)) : UInt64 := ofBytes parts.flatten

end DisplayPipeline.Digest
