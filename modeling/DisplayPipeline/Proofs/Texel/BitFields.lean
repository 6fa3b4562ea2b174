import DisplayPipeline.Proofs.Texel.Rows
import Mathlib.Tactic.Ring

/-!
# Bit fields of packed images

Bytes are one run of bits, the most significant bit of each byte first. A texel of a packed row is the
bit field at its place, whether the row is taken apart or was put together.
-/

namespace DisplayPipeline

/-- A bit of a run of bytes. Past the end every bit is zero. -/
def bitAt (bytes : List UInt8) (place : Nat) : Bool :=
  (bytes.getD (place / 8) 0).toNat.testBit (7 - place % 8)

/-- The number whose binary digits are the `count` bits from a place on. -/
def bitField (bytes : List UInt8) (place : Nat) : Nat → Nat
  | 0 => 0
  | count + 1 => 2 * bitField bytes place count + (bitAt bytes (place + count)).toNat

section Fields

variable {bytes others : List UInt8}

theorem bitField_congr {place other count : Nat}
    (h : ∀ k < count, bitAt bytes (place + k) = bitAt others (other + k)) :
    bitField bytes place count = bitField others other count := by
  induction count with
  | zero => rfl
  | succ count ih =>
    rw [bitField, bitField, ih fun k hk => h k (Nat.lt_succ_of_lt hk), h count (Nat.lt_succ_self _)]

theorem bitField_lt (bytes : List UInt8) (place count : Nat) :
    bitField bytes place count < 2 ^ count := by
  induction count with
  | zero => exact Nat.one_pos
  | succ count ih =>
    have hbit : (bitAt bytes (place + count)).toNat < 2 := Bool.toNat_lt _
    rw [bitField, Nat.pow_succ]
    omega

private theorem bitField_add (bytes : List UInt8) (place upper lower : Nat) :
    bitField bytes place (upper + lower) =
      bitField bytes place upper * 2 ^ lower + bitField bytes (place + upper) lower := by
  induction lower with
  | zero => rw [Nat.add_zero, Nat.pow_zero, Nat.mul_one, bitField, Nat.add_zero]
  | succ lower ih =>
    rw [← Nat.add_assoc, bitField, ih, bitField, Nat.pow_succ, Nat.add_assoc place]
    ring

private theorem bitField_within (bytes : List UInt8) (index first count : Nat)
    (h : first + count ≤ 8) :
    bitField bytes (8 * index + first) count =
      (bytes.getD index 0).toNat / 2 ^ (8 - (first + count)) % 2 ^ count := by
  induction count with
  | zero => rw [bitField, Nat.pow_zero, Nat.mod_one]
  | succ count ih =>
    have hbyte : (8 * index + first + count) / 8 = index := by omega
    have hbit : 7 - (8 * index + first + count) % 8 = 8 - (first + (count + 1)) := by omega
    have hplace : 8 - (first + count) = 8 - (first + (count + 1)) + 1 := by omega
    rw [bitField, ih (by omega), bitAt, hbyte, hbit, hplace, Nat.toNat_testBit, Nat.pow_succ,
      ← Nat.div_div_eq_div_mul, Nat.pow_succ', Nat.mod_mul, Nat.add_comm]

private theorem bitField_byte (b : UInt8) (bytes : List UInt8) : bitField
    (b :: bytes) 0 8 = b.toNat := by
  have h := bitField_within (b :: bytes) 0 0 8 (by decide)
  rw [h, List.getD_cons_zero, Nat.pow_zero, Nat.div_one, Nat.mod_eq_of_lt b.toNat_lt]

theorem bitAt_drop (bytes : List UInt8) (count place : Nat) :
    bitAt (bytes.drop count) place = bitAt bytes (8 * count + place) := by
  have hindex : (8 * count + place) / 8 = count + place / 8 := by omega
  have hbit : (8 * count + place) % 8 = place % 8 := by omega
  rw [bitAt, bitAt, hindex, hbit, List.getD_eq_getElem?_getD, List.getElem?_drop,
    List.getD_eq_getElem?_getD]

theorem bitAt_take {count place : Nat} (h : place < 8 * count) :
    bitAt (bytes.take count) place = bitAt bytes place := by
  rw [bitAt, bitAt, List.getD_eq_getElem?_getD, List.getElem?_take_of_lt (by omega),
    List.getD_eq_getElem?_getD]

private theorem bitField_drop (bytes : List UInt8) (dropped place count : Nat) :
    bitField (bytes.drop dropped) place count = bitField bytes (8 * dropped + place) count :=
  bitField_congr fun k _ => by rw [bitAt_drop, Nat.add_assoc]

private theorem bitField_cons (b : UInt8) (bytes : List UInt8) (place count : Nat) :
    bitField (b :: bytes) (8 + place) count = bitField bytes place count :=
  (bitField_drop (b :: bytes) 1 place count).symm

private theorem bitField_bytePair (a b : UInt8) (bytes : List UInt8) :
    bitField (a :: b :: bytes) 0 16 = a.toNat * 2 ^ 8 + b.toNat := by
  rw [bitField_add _ 0 8 8, bitField_byte, bitField_cons a _ 0 8, bitField_byte]

private theorem bitField_join16 (hi lo : UInt8) (bytes : List UInt8) :
    bitField (hi :: lo :: bytes) 0 16 = (Word.join16 hi lo).toNat := by
  rw [bitField_bytePair, Word.toNat_join16]

private theorem bitField_join32 (a b c d : UInt8) (bytes : List UInt8) :
    bitField (a :: b :: c :: d :: bytes) 0 32 = (Word.join32 a b c d).toNat := by
  rw [bitField_add _ 0 16 16, bitField_bytePair, bitField_cons a _ 8 16, bitField_cons b _ 0 16,
    bitField_bytePair, Word.toNat_join32]
  ring

private theorem bitField_halves (b : UInt8) (bytes : List UInt8) :
    bitField (b :: bytes) 0 4 = b.toNat / 2 ^ 4 ∧ bitField (b :: bytes) 4 4 = b.toNat % 2 ^ 4 := by
  have hb := b.toNat_lt
  have hupper := bitField_within (b :: bytes) 0 0 4 (by decide)
  have hlower := bitField_within (b :: bytes) 0 4 4 (by decide)
  rw [List.getD_cons_zero] at hupper hlower
  constructor
  · rw [hupper]
    exact Nat.mod_eq_of_lt (by omega)
  · rw [hlower, Nat.pow_zero, Nat.div_one]

end Fields

namespace TexelDepth

/-- The texel at a place in a row, as a number. -/
def texelAt (depth : TexelDepth) (row : List UInt8) (index : Nat) : Nat :=
  bitField row (depth.bits * index) depth.bits

variable {depth : TexelDepth} {t : UInt32}

private theorem texelAt_add {texels : Nat} (bytes : Nat) (h : depth.bits * texels = 8 * bytes)
    (row : List UInt8) (index : Nat) :
    depth.texelAt row (index + texels) = depth.texelAt (row.drop bytes) index := by
  rw [texelAt, texelAt, bitField_drop, Nat.mul_add, h, Nat.add_comm]

section Unpacking

private theorem unpack_four_at {row : List UInt8} {index : Nat}
    (h : (four.unpack row)[index]? = some t) :
    t.toNat = four.texelAt row index := by
  induction row generalizing index with
  | nil => cases h
  | cons b row ih =>
    obtain ⟨hupper, hlower⟩ := bitField_halves b row
    rw [unpack_four_cons] at h
    match index, h with
    | 0, h =>
      obtain rfl := Option.some_inj.mp h
      refine Eq.trans ?_ hupper.symm
      rw [UInt8.toNat_toUInt32, UInt8.toNat_shiftRight, Nat.shiftRight_eq_div_pow]
      rfl
    | 1, h =>
      obtain rfl := Option.some_inj.mp h
      refine Eq.trans ?_ hlower.symm
      rw [UInt8.toNat_toUInt32, UInt8.toNat_and]
      exact Nat.and_two_pow_sub_one_eq_mod b.toNat 4
    | index + 2, h =>
      rw [ih h, texelAt_add 1 rfl]
      rfl

private theorem unpack_eight_at {row : List UInt8} {index : Nat}
    (h : (eight.unpack row)[index]? = some t) :
    t.toNat = eight.texelAt row index := by
  induction row generalizing index with
  | nil => cases h
  | cons b row ih =>
    match index, h with
    | 0, h =>
      obtain rfl := Option.some_inj.mp h
      rw [UInt8.toNat_toUInt32]
      exact (bitField_byte b row).symm
    | index + 1, h =>
      rw [ih h, texelAt_add 1 rfl]
      rfl

private theorem unpack_sixteen_at {row : List UInt8} {index : Nat}
    (h : (sixteen.unpack row)[index]? = some t) : t.toNat = sixteen.texelAt row index := by
  match row, index, h with
  | hi :: lo :: row, 0, h =>
    obtain rfl := Option.some_inj.mp h
    rw [UInt16.toNat_toUInt32]
    exact (bitField_join16 hi lo row).symm
  | hi :: lo :: row, index + 1, h =>
    have hrest : (sixteen.unpack row)[index]? = some t := h
    rw [unpack_sixteen_at hrest, texelAt_add 2 rfl]
    rfl

private theorem unpack_thirtyTwo_at {row : List UInt8} {index : Nat}
    (h : (thirtyTwo.unpack row)[index]? = some t) : t.toNat = thirtyTwo.texelAt row index := by
  match row, index, h with
  | a :: b :: c :: d :: row, 0, h =>
    obtain rfl := Option.some_inj.mp h
    exact (bitField_join32 a b c d row).symm
  | a :: b :: c :: d :: row, index + 1, h =>
    have hrest : (thirtyTwo.unpack row)[index]? = some t := h
    rw [unpack_thirtyTwo_at hrest, texelAt_add 4 rfl]
    rfl

/-- A texel that is taken from a row is the bit field at its place. -/
theorem toNat_unpack {row : List UInt8} {index : Nat} (h : (depth.unpack row)[index]? = some t) :
    t.toNat = depth.texelAt row index := by
  cases depth with
  | four => exact unpack_four_at h
  | eight => exact unpack_eight_at h
  | sixteen => exact unpack_sixteen_at h
  | thirtyTwo => exact unpack_thirtyTwo_at h

end Unpacking

section Packing

private theorem toNat_joinHalves (hi lo : UInt32) :
    (hi.toUInt8 <<< 4 ||| lo.toUInt8 &&& 0xF).toNat =
      hi.toNat % 2 ^ 4 * 2 ^ 4 + lo.toNat % 2 ^ 4 := by
  have hupper : (hi.toUInt8 <<< 4).toNat = (hi.toNat % 2 ^ 4) <<< 4 := by
    rw [UInt8.toNat_shiftLeft, UInt32.toNat_toUInt8, Nat.shiftLeft_eq, Nat.shiftLeft_eq]
    change hi.toNat % 2 ^ 8 * 2 ^ 4 % 2 ^ 8 = _
    omega
  have hlower : (lo.toUInt8 &&& 0xF).toNat = lo.toNat % 2 ^ 4 := by
    rw [UInt8.toNat_and, UInt32.toNat_toUInt8]
    change lo.toNat % 2 ^ 8 &&& (2 ^ 4 - 1) = _
    rw [Nat.and_two_pow_sub_one_eq_mod]
    omega
  rw [UInt8.toNat_or, hupper, hlower, Word.or_shiftLeft _ (Nat.mod_lt _ (by decide))]

private theorem bitField_joinHalves (hi lo : UInt32) (bytes : List UInt8) :
    bitField ((hi.toUInt8 <<< 4 ||| lo.toUInt8 &&& 0xF) :: bytes) 0 4 = hi.toNat % 2 ^ 4 ∧
      bitField ((hi.toUInt8 <<< 4 ||| lo.toUInt8 &&& 0xF) :: bytes) 4 4 = lo.toNat % 2 ^ 4 := by
  have hbyte := toNat_joinHalves hi lo
  obtain ⟨hupper, hlower⟩ := bitField_halves (hi.toUInt8 <<< 4 ||| lo.toUInt8 &&& 0xF) bytes
  constructor
  · rw [hupper]
    omega
  · rw [hlower]
    omega

private theorem texelAt_pack_four {texels : List UInt32} {index : Nat}
    (h : texels[index]? = some t) :
    four.texelAt (four.pack texels) index = t.toNat % 2 ^ 4 := by
  match texels, index, h with
  | [hi], 0, h =>
    obtain rfl := Option.some_inj.mp h
    have hsingle : hi.toUInt8 <<< 4 = hi.toUInt8 <<< 4 ||| (0 : UInt32).toUInt8 &&& 0xF := by simp
    rw [pack_four_single, hsingle]
    exact (bitField_joinHalves hi 0 []).1
  | hi :: lo :: texels, 0, h =>
    obtain rfl := Option.some_inj.mp h
    exact (bitField_joinHalves hi lo _).1
  | hi :: lo :: texels, 1, h =>
    obtain rfl := Option.some_inj.mp h
    exact (bitField_joinHalves hi lo _).2
  | hi :: lo :: texels, index + 2, h =>
    have hrest : texels[index]? = some t := h
    rw [texelAt_add 1 rfl]
    exact texelAt_pack_four hrest

private theorem texelAt_pack_eight {texels : List UInt32} {index : Nat}
    (h : texels[index]? = some t) :
    eight.texelAt (eight.pack texels) index = t.toNat % 2 ^ 8 := by
  match texels, index, h with
  | first :: texels, 0, h =>
    obtain rfl := Option.some_inj.mp h
    rw [← UInt32.toNat_toUInt8]
    exact bitField_byte _ _
  | first :: texels, index + 1, h =>
    have hrest : texels[index]? = some t := h
    rw [texelAt_add 1 rfl]
    exact texelAt_pack_eight hrest

private theorem texelAt_pack_sixteen {texels : List UInt32} {index : Nat}
    (h : texels[index]? = some t) :
    sixteen.texelAt (sixteen.pack texels) index = t.toNat % 2 ^ 16 := by
  match texels, index, h with
  | first :: texels, 0, h =>
    obtain rfl := Option.some_inj.mp h
    rw [← UInt32.toNat_toUInt16, ← Word.join16_bytes first.toUInt16]
    exact bitField_join16 _ _ _
  | first :: texels, index + 1, h =>
    have hrest : texels[index]? = some t := h
    rw [texelAt_add 2 rfl]
    exact texelAt_pack_sixteen hrest

private theorem texelAt_pack_thirtyTwo {texels : List UInt32} {index : Nat}
    (h : texels[index]? = some t) :
    thirtyTwo.texelAt (thirtyTwo.pack texels) index = t.toNat % 2 ^ 32 := by
  match texels, index, h with
  | first :: texels, 0, h =>
    obtain rfl := Option.some_inj.mp h
    have hword := bitField_join32 (first >>> 24).toUInt8 (first >>> 16).toUInt8
      (first >>> 8).toUInt8 first.toUInt8 (thirtyTwo.pack texels)
    rw [Word.join32_bytes] at hword
    rw [Nat.mod_eq_of_lt first.toNat_lt]
    exact hword
  | first :: texels, index + 1, h =>
    have hrest : texels[index]? = some t := h
    rw [texelAt_add 4 rfl]
    exact texelAt_pack_thirtyTwo hrest

/-- A texel that is put into a row fills the bits at its place. -/
theorem texelAt_pack {texels : List UInt32} {index : Nat} (h : texels[index]? = some t) :
    depth.texelAt (depth.pack texels) index = t.toNat % 2 ^ depth.bits := by
  cases depth with
  | four => exact texelAt_pack_four h
  | eight => exact texelAt_pack_eight h
  | sixteen => exact texelAt_pack_sixteen h
  | thirtyTwo => exact texelAt_pack_thirtyTwo h

private theorem length_pack_four (texels : List UInt32) :
    (four.pack texels).length = (texels.length + 1) / 2 := by
  match texels with
  | [] => rfl
  | [hi] => rw [pack_four_single, List.length_singleton, List.length_singleton]
  | _ :: _ :: texels =>
    have hrest := length_pack_four texels
    rw [pack_four_cons, List.length_cons, List.length_cons, List.length_cons]
    omega

theorem length_pack (depth : TexelDepth) (texels : List UInt32) :
    (depth.pack texels).length = depth.rowBytes texels.length := by
  rw [rowBytes]
  cases depth with
  | four =>
    rw [length_pack_four, show four.bits = 4 from rfl]
    omega
  | eight =>
    rw [pack, List.length_map, show eight.bits = 8 from rfl]
    omega
  | sixteen =>
    rw [pack, List.length_flatMap, show sixteen.bits = 16 from rfl]
    simp [Word.be16]
    omega
  | thirtyTwo =>
    rw [pack, List.length_flatMap, show thirtyTwo.bits = 32 from rfl]
    simp [Word.be32]
    omega

end Packing

end TexelDepth

end DisplayPipeline
