import DisplayPipeline.Word
import Mathlib.Algebra.Ring.Nat

namespace DisplayPipeline.Word

theorem or_shiftLeft (high : Nat) {low width : Nat} (h : low < 2 ^ width) :
    high <<< width ||| low = high * 2 ^ width + low := by
  rw [← Nat.shiftLeft_add_eq_or_of_lt h, Nat.shiftLeft_eq]

private theorem toNat_mask {bits : UInt32} (h : bits.toNat < 32) :
    ((1 : UInt32) <<< bits - 1).toNat = 2 ^ bits.toNat - 1 := by
  have hpow : 2 ^ bits.toNat < 2 ^ 32 := Nat.pow_lt_pow_right (by decide) h
  have hpos : 0 < 2 ^ bits.toNat := Nat.two_pow_pos _
  have hone : ((1 : UInt32) <<< bits).toNat = 2 ^ bits.toNat := by
    rw [UInt32.toNat_shiftLeft, Nat.mod_eq_of_lt h, Nat.shiftLeft_eq, UInt32.toNat_one,
      Nat.one_mul, Nat.mod_eq_of_lt hpow]
  rw [UInt32.toNat_sub_of_le _ _ (by rw [UInt32.le_iff_toNat_le, hone]; exact hpos), hone]
  rfl

theorem toNat_ones {bits : UInt32} (h : bits.toNat < 64) :
    ((1 : UInt64) <<< bits.toUInt64 - 1).toNat = 2 ^ bits.toNat - 1 := by
  have hpower : 2 ^ bits.toNat < 2 ^ 64 := Nat.pow_lt_pow_right (by decide) h
  have hone : ((1 : UInt64) <<< bits.toUInt64).toNat = 2 ^ bits.toNat := by
    rw [UInt64.toNat_shiftLeft, UInt32.toNat_toUInt64, Nat.mod_eq_of_lt h, UInt64.toNat_one,
      Nat.one_shiftLeft, Nat.mod_eq_of_lt hpower]
  have hle : (1 : UInt64) ≤ 1 <<< bits.toUInt64 := by
    rw [UInt64.le_iff_toNat_le, hone]
    exact Nat.two_pow_pos _
  rw [UInt64.toNat_sub_of_le _ _ hle, hone]
  rfl

theorem toNat_min (a b : UInt32) : (min a b).toNat = min a.toNat b.toNat := by
  change (if a ≤ b then a else b).toNat = _
  split
  · rename_i h
    exact (Nat.min_eq_left (UInt32.le_iff_toNat_le.mp h)).symm
  · rename_i h
    exact (Nat.min_eq_right (Nat.le_of_not_le fun hle => h (UInt32.le_iff_toNat_le.mpr hle))).symm

theorem toNat_shiftRight (v : UInt32) {k : UInt32} {n : Nat} (h : k.toNat % 32 = n) :
    (v >>> k).toNat = v.toNat / 2 ^ n := by
  rw [UInt32.toNat_shiftRight, h, Nat.shiftRight_eq_div_pow]

private theorem toNat_upperByte (v : UInt16) : (v >>> 8).toNat = v.toNat / 2 ^ 8 := by
  rw [UInt16.toNat_shiftRight, Nat.shiftRight_eq_div_pow]
  rfl

theorem fieldNat_eq (word : UInt32) {shift bits : UInt32} (hshift : shift.toNat < 32)
    (hbits : bits.toNat < 32) :
    fieldNat word shift bits = word.toNat / 2 ^ shift.toNat % 2 ^ bits.toNat := by
  rw [fieldNat, field, UInt32.toNat_and, toNat_mask hbits, Nat.and_two_pow_sub_one_eq_mod,
    toNat_shiftRight word (Nat.mod_eq_of_lt hshift)]

theorem fieldNat_lt (word shift : UInt32) {bits : UInt32} (hbits : bits.toNat < 32) :
    fieldNat word shift bits < 2 ^ bits.toNat := by
  rw [fieldNat, field, UInt32.toNat_and, toNat_mask hbits]
  exact Nat.and_lt_two_pow _ (Nat.sub_one_lt (Nat.ne_of_gt (Nat.two_pow_pos _)))

private theorem toNat_upperHalf (v : UInt64) : (v >>> 32).toNat = v.toNat / 2 ^ 32 := by
  rw [UInt64.toNat_shiftRight, Nat.shiftRight_eq_div_pow]
  rfl

theorem fieldNat_lowerHalf (v : UInt64) {shift bits : UInt32} (hshift : shift.toNat < 32)
    (hbits : bits.toNat < 32) (h : shift.toNat + bits.toNat ≤ 32) :
    fieldNat v.toUInt32 shift bits = v.toNat / 2 ^ shift.toNat % 2 ^ bits.toNat := by
  rw [fieldNat_eq _ hshift hbits, UInt64.toNat_toUInt32]
  refine Nat.eq_of_testBit_eq fun i => ?_
  simp only [Nat.testBit_mod_two_pow, Nat.testBit_div_two_pow]
  grind

theorem fieldNat_upperHalf (v : UInt64) {shift bits : UInt32} (hshift : shift.toNat < 32)
    (hbits : bits.toNat < 32) (h : shift.toNat + bits.toNat ≤ 32) :
    fieldNat (v >>> 32).toUInt32 shift bits =
      v.toNat / 2 ^ (32 + shift.toNat) % 2 ^ bits.toNat := by
  rw [fieldNat_lowerHalf _ hshift hbits h, toNat_upperHalf, Nat.div_div_eq_div_mul, Nat.pow_add]

theorem toNat_join16 (hi lo : UInt8) : (join16 hi lo).toNat = hi.toNat * 2 ^ 8 + lo.toNat := by
  have hhi := hi.toNat_lt
  have hlo := lo.toNat_lt
  rw [join16, UInt16.toNat_or, UInt16.toNat_shiftLeft]
  simp only [UInt8.toNat_toUInt16]
  change hi.toNat <<< 8 % 65536 ||| lo.toNat = _
  rw [Nat.mod_eq_of_lt (by rw [Nat.shiftLeft_eq]; omega), or_shiftLeft _ hlo]

theorem toNat_join32 (a b c d : UInt8) :
    (join32 a b c d).toNat =
      a.toNat * 2 ^ 24 + (b.toNat * 2 ^ 16 + (c.toNat * 2 ^ 8 + d.toNat)) := by
  have ha := a.toNat_lt
  have hb := b.toNat_lt
  have hc := c.toNat_lt
  have hd := d.toNat_lt
  have hshift (x : UInt8) (k : Nat) (hk : x.toNat * 2 ^ k < 2 ^ 32) :
      x.toNat <<< k % 2 ^ 32 = x.toNat <<< k :=
    Nat.mod_eq_of_lt (by rw [Nat.shiftLeft_eq]; exact hk)
  rw [join32]
  simp only [UInt32.toNat_or, UInt32.toNat_shiftLeft, UInt8.toNat_toUInt32]
  change a.toNat <<< 24 % 2 ^ 32 ||| b.toNat <<< 16 % 2 ^ 32 ||| c.toNat <<< 8 % 2 ^ 32 |||
    d.toNat = _
  rw [hshift a 24 (by omega), hshift b 16 (by omega), hshift c 8 (by omega), Nat.or_assoc,
    Nat.or_assoc, or_shiftLeft c.toNat hd, or_shiftLeft b.toNat (by omega),
    or_shiftLeft a.toNat (by omega)]

theorem toNat_join64 (hi lo : UInt32) : (join64 hi lo).toNat = hi.toNat * 2 ^ 32 + lo.toNat := by
  have hhi := hi.toNat_lt
  have hlo := lo.toNat_lt
  rw [join64, UInt64.toNat_or, UInt64.toNat_shiftLeft]
  simp only [UInt32.toNat_toUInt64]
  change hi.toNat <<< 32 % 2 ^ 64 ||| lo.toNat = _
  rw [Nat.mod_eq_of_lt (by rw [Nat.shiftLeft_eq]; omega), or_shiftLeft _ hlo]

theorem join16_bytes (v : UInt16) : join16 (v >>> 8).toUInt8 v.toUInt8 = v := by
  apply UInt16.toNat_inj.mp
  have hv := v.toNat_lt
  rw [toNat_join16, UInt16.toNat_toUInt8, UInt16.toNat_toUInt8, toNat_upperByte]
  omega

theorem join32_bytes (v : UInt32) :
    join32 (v >>> 24).toUInt8 (v >>> 16).toUInt8 (v >>> 8).toUInt8 v.toUInt8 = v := by
  apply UInt32.toNat_inj.mp
  have hv := v.toNat_lt
  have h8 : (v >>> 8).toNat = v.toNat / 2 ^ 8 := toNat_shiftRight v rfl
  have h16 : (v >>> 16).toNat = v.toNat / 2 ^ 16 := toNat_shiftRight v rfl
  have h24 : (v >>> 24).toNat = v.toNat / 2 ^ 24 := toNat_shiftRight v rfl
  rw [toNat_join32]
  simp only [UInt32.toNat_toUInt8, h8, h16, h24]
  omega

theorem join64_halves (v : UInt64) : join64 (v >>> 32).toUInt32 v.toUInt32 = v := by
  apply UInt64.toNat_inj.mp
  have hv := v.toNat_lt
  rw [toNat_join64, UInt64.toNat_toUInt32, UInt64.toNat_toUInt32, toNat_upperHalf]
  omega

theorem le16_join16 (hi lo : UInt8) : le16 (join16 hi lo) = [lo, hi] := by
  have hhi := hi.toNat_lt
  have hlo := lo.toNat_lt
  have hvalue := toNat_join16 hi lo
  have hlow : (join16 hi lo).toUInt8 = lo := by
    apply UInt8.toNat_inj.mp
    rw [UInt16.toNat_toUInt8]
    omega
  have hhigh : (join16 hi lo >>> 8).toUInt8 = hi := by
    apply UInt8.toNat_inj.mp
    rw [UInt16.toNat_toUInt8, toNat_upperByte]
    omega
  rw [le16, hlow, hhigh]

theorem le32_join32 (a b c d : UInt8) : le32 (join32 a b c d) = [d, c, b, a] := by
  have ha := a.toNat_lt
  have hb := b.toNat_lt
  have hc := c.toNat_lt
  have hd := d.toNat_lt
  have hvalue := toNat_join32 a b c d
  have h8 : (join32 a b c d >>> 8).toNat = (join32 a b c d).toNat / 2 ^ 8 :=
    toNat_shiftRight _ rfl
  have h16 : (join32 a b c d >>> 16).toNat = (join32 a b c d).toNat / 2 ^ 16 :=
    toNat_shiftRight _ rfl
  have h24 : (join32 a b c d >>> 24).toNat = (join32 a b c d).toNat / 2 ^ 24 :=
    toNat_shiftRight _ rfl
  have hbyte (word : UInt32) (byte : UInt8) (h : word.toNat % 2 ^ 8 = byte.toNat) :
      word.toUInt8 = byte := by
    apply UInt8.toNat_inj.mp
    rw [UInt32.toNat_toUInt8, h]
  rw [le32, hbyte (join32 a b c d) d (by omega),
    hbyte (join32 a b c d >>> 8) c (by rw [h8]; omega),
    hbyte (join32 a b c d >>> 16) b (by rw [h16]; omega),
    hbyte (join32 a b c d >>> 24) a (by rw [h24]; omega)]

theorem le64_join64 (hi lo : UInt32) : le64 (join64 hi lo) = le32 lo ++ le32 hi := by
  have hhi := hi.toNat_lt
  have hlo := lo.toNat_lt
  have hvalue := toNat_join64 hi lo
  have hlow : (join64 hi lo).toUInt32 = lo := by
    apply UInt32.toNat_inj.mp
    rw [UInt64.toNat_toUInt32]
    omega
  have hhigh : (join64 hi lo >>> 32).toUInt32 = hi := by
    apply UInt32.toNat_inj.mp
    rw [UInt64.toNat_toUInt32, toNat_upperHalf]
    omega
  rw [le64, hlow, hhigh]

end DisplayPipeline.Word
