import DisplayPipeline.Combiner.Mux
import DisplayPipeline.Text.Hex

/-!
# Combiner keys

A key is the mux together with the render state that changes the program. It packs into one
number: the mux in the low 64 bits, the flags above.
-/

namespace DisplayPipeline.Combiner

/-- A set of render state flags. Bits without a meaning are kept. -/
structure Flags where
  bits : UInt32
deriving DecidableEq, Repr, Inhabited

namespace Flags

def twoCycle : UInt32 := 1
def texturePresent : UInt32 := 2
def depthCompare : UInt32 := 4
def alphaCompare : UInt32 := 8
def alphaCoverageSelect : UInt32 := 16
def coverageTimesAlpha : UInt32 := 32
def fog : UInt32 := 64

def known : UInt32 := 127

def none : Flags := ⟨0⟩

def has (flags : Flags) (mask : UInt32) : Bool := flags.bits &&& mask == mask

def only (flags : Flags) (mask : UInt32) : Flags := ⟨flags.bits &&& mask⟩

/-- Sets the bits of a mask if a condition holds. -/
def addIf (flags : Flags) (mask : UInt32) (condition : Bool) : Flags :=
  if condition then ⟨flags.bits ||| mask⟩ else flags

/-- The flags with the given bits, if each of them has a meaning. -/
def ofBits? (bits : UInt32) : Option Flags := if bits &&& ~~~known = 0 then some ⟨bits⟩ else .none

end Flags

/-- The identity of a combiner program. -/
structure Key where
  mux : UInt64
  flags : Flags
deriving DecidableEq, Repr, Inhabited

namespace Key

def muxMask : UInt64 := 0x00FFFFFFFFFFFFFF

/-- The key of a mux, whose top eight bits are dropped. -/
def ofMux (mux : UInt64) (flags : Flags) : Key := ⟨mux &&& muxMask, flags⟩

/-- The key of the two words of a combine command; the opcode byte is dropped. -/
def ofWords (w0 w1 : UInt32) (flags : Flags) : Key :=
  ofMux (Word.join64 (w0 &&& 0x00FFFFFF) w1) flags

def packed (key : Key) : Nat := key.flags.bits.toNat * UInt64.size + key.mux.toNat

/-- The key of a packed number; flags without a meaning are dropped. -/
def ofPacked (n : Nat) : Key :=
  ofMux (UInt64.ofNat n) (Flags.only ⟨UInt32.ofNat (n / UInt64.size)⟩ Flags.known)

/-- The packed number as 32 hexadecimal digits. -/
def hex (key : Key) : String := Text.Hex.fixed 32 key.packed

def stages (key : Key) : Stages := .ofMux key.mux

def isTwoCycle (key : Key) : Bool := key.flags.has Flags.twoCycle

def isTextured (key : Key) : Bool := key.flags.has Flags.texturePresent

end Key

end DisplayPipeline.Combiner
