import DisplayPipeline.Word

/-!
# Console memory

Memory whose size is a power of two. An address is cut to the size before use, so a stray address
reads other bytes and never faults; reads that run off the end go on at the start.
-/

namespace DisplayPipeline

/-- Why a memory image is refused. -/
inductive RamError where
  | badSize (size : Nat)
deriving DecidableEq, Repr

namespace RamError

def message : RamError → String
  | badSize size => s!"RDRAM size {size} is not a non-zero power of two"

end RamError

/-- A memory image. -/
structure Ram where
  bytes : ByteArray
  /-- The binary logarithm of the size. -/
  logSize : Nat
  size_eq : bytes.size = 1 <<< logSize
  logSize_le : logSize ≤ 32

namespace Ram

def ofBytes (bytes : ByteArray) : Except RamError Ram :=
  if h : bytes.size = 1 <<< bytes.size.log2 ∧ bytes.size.log2 ≤ 32 then
    .ok ⟨bytes, bytes.size.log2, h.1, h.2⟩
  else .error (.badSize bytes.size)

def size (ram : Ram) : Nat := ram.bytes.size

theorem size_pos (ram : Ram) : 0 < ram.size := by
  rw [size, ram.size_eq, Nat.one_shiftLeft]
  exact Nat.two_pow_pos _

def mask (ram : Ram) : UInt32 := UInt32.ofNat (ram.size - 1)

def clamp (ram : Ram) (address : UInt32) : UInt32 := address &&& ram.mask

theorem toNat_clamp (ram : Ram) (address : UInt32) :
    (ram.clamp address).toNat = address.toNat % ram.size := by
  have h : ram.size = 2 ^ ram.logSize := ram.size_eq.trans (Nat.one_shiftLeft _)
  have hle : 2 ^ ram.logSize ≤ 2 ^ 32 := Nat.pow_le_pow_right (by decide) ram.logSize_le
  have hpos : 0 < 2 ^ ram.logSize := Nat.two_pow_pos _
  have hmask : (2 ^ ram.logSize - 1) % 2 ^ 32 = 2 ^ ram.logSize - 1 := Nat.mod_eq_of_lt (by omega)
  rw [clamp, mask, h, UInt32.toNat_and, UInt32.toNat_ofNat', hmask, Nat.and_two_pow_sub_one_eq_mod]

theorem clamp_lt (ram : Ram) (address : UInt32) : (ram.clamp address).toNat < ram.bytes.size := by
  rw [toNat_clamp]
  exact Nat.mod_lt _ ram.size_pos

def byte (ram : Ram) (address : UInt32) : UInt8 :=
  ram.bytes.get (ram.clamp address).toNat (ram.clamp_lt address)

/-- The 16-bit word at an address, most significant byte first. -/
def read16 (ram : Ram) (address : UInt32) : UInt16 :=
  Word.join16 (ram.byte address) (ram.byte (address + 1))

/-- The 32-bit word at an address, most significant byte first. -/
def read32 (ram : Ram) (address : UInt32) : UInt32 :=
  Word.join32 (ram.byte address) (ram.byte (address + 1)) (ram.byte (address + 2))
    (ram.byte (address + 3))

/-- The 64-bit word at an address, most significant byte first. -/
def read64 (ram : Ram) (address : UInt32) : UInt64 :=
  Word.join64 (ram.read32 address) (ram.read32 (address + 4))

/-- The 16-bit word at an address as a signed number. -/
def readSigned (ram : Ram) (address : UInt32) : Int := Word.signed16 (ram.read16 address)

/-- Copies `count` bytes from an offset on, one run up to the end of memory after the other. -/
def copyFrom (ram : Ram) (offset : Nat) (_h : offset < ram.bytes.size) (count : Nat)
    (copied : ByteArray) : ByteArray :=
  if count = 0 then copied
  else
    let run := min count (ram.bytes.size - offset)
    copyFrom ram 0 ram.size_pos (count - run)
      (copied ++ ram.bytes.extract offset (offset + run))
termination_by count
decreasing_by omega

def copy (ram : Ram) (address : UInt32) (count : Nat) : ByteArray :=
  ram.copyFrom (ram.clamp address).toNat (ram.clamp_lt address) count .empty

end Ram

end DisplayPipeline
