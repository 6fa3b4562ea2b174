import DisplayPipeline.Proofs.DisplayList.Gathering
import DisplayPipeline.Proofs.DisplayList.LegalCommands
import DisplayPipeline.Proofs.WordBytes
import Mathlib.Data.Nat.Digits.Defs

/-!
# Reads that run off the end of memory

Bytes are copied in runs that end with memory, and each run but the first begins where memory begins. So
a copy has the byte at each address that is cut to the size of memory, however often it comes round, and
words are made up of the bytes of a copy, also in a memory that is smaller than they are.
-/

namespace DisplayPipeline

/-- The number that bytes stand for, the most significant byte first. -/
def Word.ofBigEndian (bytes : List UInt8) : Nat := Nat.ofDigits 256 (bytes.reverse.map UInt8.toNat)

private theorem Word.ofBigEndian_cons (byte : UInt8) (bytes : List UInt8) :
    ofBigEndian (byte :: bytes) = byte.toNat * 256 ^ bytes.length + ofBigEndian bytes := by
  rw [ofBigEndian, List.reverse_cons, List.map_append, Nat.ofDigits_append, List.length_map,
    List.length_reverse, Nat.add_comm, Nat.mul_comm (256 ^ _)]
  simp [ofBigEndian]

structure CopyState where
  /-- The offset in memory of the next byte. -/
  offset : Nat
  copied : ByteArray

namespace Ram

variable (ram : Ram)

/-- Copies a run of bytes up to the end of memory, or to the last of `count` bytes. -/
def copyRun (count : Nat) (s : CopyState) : CopyState :=
  ⟨0, s.copied ++ ram.bytes.extract s.offset
    (s.offset + min (count - s.copied.size) (ram.bytes.size - s.offset))⟩

/-- A copy that goes on while bytes are missing ends, since each run but the last comes to the end of
memory. -/
theorem copyFrom_ends (offset : Nat) (h : offset < ram.bytes.size) (count : Nat)
    (copied : ByteArray) :
    ∃ runs, runs * ram.size < offset + count + ram.size ∧
      ((ram.copyRun (copied.size + count))^[runs] ⟨offset, copied⟩).copied =
        ram.copyFrom offset h count copied ∧
      ∀ earlier < runs,
        ((ram.copyRun (copied.size + count))^[earlier] ⟨offset, copied⟩).copied.size <
          copied.size + count := by
  fun_induction ram.copyFrom offset h count copied with
  | case1 offset h copied =>
    exact ⟨0, by rw [Nat.zero_mul]; exact Nat.add_pos_right _ ram.size_pos, rfl,
      fun earlier hearlier => absurd hearlier (Nat.not_lt_zero earlier)⟩
  | case2 offset h count copied hcount run ih =>
    have hsize : ram.size = ram.bytes.size := rfl
    have hextract : (ram.bytes.extract offset (offset + run)).size = run := by
      rw [ByteArray.size_extract]
      omega
    have htotal : (copied ++ ram.bytes.extract offset (offset + run)).size + (count - run) =
        copied.size + count := by
      rw [ByteArray.size_append, hextract]
      omega
    have hrun : ram.copyRun (copied.size + count) ⟨offset, copied⟩ =
        ⟨0, copied ++ ram.bytes.extract offset (offset + run)⟩ := by
      rw [copyRun, Nat.add_sub_cancel_left]
    rw [htotal] at ih
    obtain ⟨runs, hruns, hcopied, hearlier⟩ := ih
    refine ⟨runs + 1, ?_, ?_, ?_⟩
    · rw [Nat.succ_mul]
      -- Either the run reached the end of memory, or it was the last one.
      by_cases hlast : run = count
      · have hnone : runs = 0 := by
          by_contra hsome
          have hle := Nat.le_mul_of_pos_left ram.size (Nat.pos_of_ne_zero hsome)
          omega
        rw [hnone]
        omega
      · omega
    · rw [Function.iterate_succ_apply, hrun]
      exact hcopied
    · intro earlier hlt
      cases earlier with
      | zero => exact Nat.lt_add_of_pos_right (Nat.pos_of_ne_zero hcount)
      | succ earlier =>
        rw [Function.iterate_succ_apply, hrun]
        exact hearlier earlier (Nat.lt_of_succ_lt_succ hlt)

private theorem getElem?_copy (address : UInt32) {count i : Nat} (h : i < count) :
    (ram.copy address count).data[i]? = ram.bytes.data[(address.toNat + i) % ram.size]? := by
  have hclamp : (ram.clamp (address + UInt32.ofNat i)).toNat = (address.toNat + i) % ram.size := by
    rw [toNat_clamp_add, Nat.add_mod, toNat_ofNat_mod, ← Nat.add_mod]
  have hin : (address.toNat + i) % ram.size < ram.bytes.size := Nat.mod_lt _ ram.size_pos
  rw [← Array.getElem?_toList, toList_copy, List.getElem?_map, List.getElem?_range h, Option.map_some,
    ram.byte_eq_get hclamp hin]
  exact (Array.getElem?_eq_getElem hin).symm

/-! ## Words -/

private theorem toList_copy_succ (address : UInt32) (count : Nat) :
    (ram.copy address (count + 1)).data.toList =
      ram.byte address :: (ram.copy (address + 1) count).data.toList := by
  rw [toList_copy, toList_copy, List.range_succ_eq_map, List.map_cons, List.map_map]
  congr 1
  · exact congrArg ram.byte (UInt32.add_zero address)
  · apply List.map_congr_left
    intro i _
    have hnext : address + UInt32.ofNat (i + 1) = address + 1 + UInt32.ofNat i := by
      rw [UInt32.ofNat_add, UInt32.add_assoc, UInt32.add_comm 1]
      rfl
    exact congrArg ram.byte hnext

private theorem ofBigEndian_copy_succ (address : UInt32) (count : Nat) :
    Word.ofBigEndian (ram.copy address (count + 1)).data.toList =
      (ram.byte address).toNat * 256 ^ count +
        Word.ofBigEndian (ram.copy (address + 1) count).data.toList := by
  rw [toList_copy_succ, Word.ofBigEndian_cons]
  exact congrArg (fun n => _ * 256 ^ n + _) (ram.size_copy (address + 1) count)

private theorem ofBigEndian_copy_zero (address : UInt32) :
    Word.ofBigEndian (ram.copy address 0).data.toList = 0 := by
  rw [toList_copy]
  rfl

private theorem toNat_read16 (address : UInt32) :
    (ram.read16 address).toNat = Word.ofBigEndian (ram.copy address 2).data.toList := by
  rw [read16, Word.toNat_join16]
  simp only [ofBigEndian_copy_succ, ofBigEndian_copy_zero]
  omega

private theorem toNat_read32 (address : UInt32) :
    (ram.read32 address).toNat = Word.ofBigEndian (ram.copy address 4).data.toList := by
  have hsecond : address + 1 + 1 = address + 2 := UInt32.add_assoc address 1 1
  have hthird : address + 2 + 1 = address + 3 := UInt32.add_assoc address 2 1
  rw [read32, Word.toNat_join32]
  simp only [ofBigEndian_copy_succ, ofBigEndian_copy_zero, hsecond, hthird]
  omega

private theorem toNat_read64 (address : UInt32) :
    (ram.read64 address).toNat = Word.ofBigEndian (ram.copy address 8).data.toList := by
  have hfour : address + 1 + 1 + 1 + 1 = address + 4 := by
    rw [UInt32.add_assoc, UInt32.add_assoc, UInt32.add_assoc]
    rfl
  have hupper := ram.toNat_read32 address
  have hlower := ram.toNat_read32 (address + 4)
  rw [read64, Word.toNat_join64]
  simp only [ofBigEndian_copy_succ, ofBigEndian_copy_zero, ← hfour] at hupper hlower ⊢
  omega

end Ram

/-- Every image whose size is a power of two of up to 32 address bits is taken as memory. From any
address any number of bytes are copied in a bounded number of runs, and each is the byte at its address
cut to the size. Words of 16, 32 and 64 bits are the bytes copied from their address, the most
significant first, and the halves of a word of 64 bits are words of 32 bits. -/
theorem Ram.ofBytes_readsWrapped (bytes : ByteArray) {bits : Nat} (hbits : bits ≤ 32)
    (hsize : bytes.size = 2 ^ bits) :
    ∃ ram, Ram.ofBytes bytes = .ok ram ∧ ∀ address,
      (∀ count,
        (∃ runs, runs * bytes.size < address.toNat % bytes.size + count + bytes.size ∧
          ((ram.copyRun count)^[runs] ⟨address.toNat % bytes.size, .empty⟩).copied =
            ram.copy address count ∧
          ∀ earlier < runs,
            ((ram.copyRun count)^[earlier] ⟨address.toNat % bytes.size, .empty⟩).copied.size < count) ∧
        (ram.copy address count).size = count ∧
        ∀ i < count, (ram.copy address count).data[i]? =
          bytes.data[(address.toNat + i) &&& (bytes.size - 1)]?) ∧
      (ram.read16 address).toNat = Word.ofBigEndian (ram.copy address 2).data.toList ∧
      (ram.read32 address).toNat = Word.ofBigEndian (ram.copy address 4).data.toList ∧
      (ram.read64 address).toNat = Word.ofBigEndian (ram.copy address 8).data.toList ∧
      (ram.read64 address).toNat =
        (ram.read32 address).toNat * 2 ^ 32 + (ram.read32 (address + 4)).toNat := by
  have hlog : bytes.size.log2 = bits := by rw [hsize, Nat.log2_two_pow]
  have hsound : bytes.size = 1 <<< bytes.size.log2 ∧ bytes.size.log2 ≤ 32 := by
    rw [hlog, Nat.one_shiftLeft]
    exact ⟨hsize, hbits⟩
  let ram : Ram := ⟨bytes, bytes.size.log2, hsound.1, hsound.2⟩
  refine ⟨ram, dif_pos hsound, fun address => ⟨fun count => ⟨?_, ram.size_copy address count, ?_⟩,
    ram.toNat_read16 address, ram.toNat_read32 address, ram.toNat_read64 address,
    Word.toNat_join64 _ _⟩⟩
  · have hends := ram.copyFrom_ends (ram.clamp address).toNat (ram.clamp_lt address) count .empty
    have hstart : address.toNat % bytes.size = (ram.clamp address).toNat :=
      (ram.toNat_clamp address).symm
    rw [ByteArray.size_empty, Nat.zero_add] at hends
    rw [hstart]
    exact hends
  · intro i hi
    rw [hsize, Nat.and_two_pow_sub_one_eq_mod, ← hsize]
    exact ram.getElem?_copy address hi

/-- A memory of two bytes comes round twice in each word of 32 bits. -/
def twoBytes : ByteArray := ⟨#[0xAB, 0xCD]⟩

theorem Ram.ofBytes_readsWrapped_twoBytes :
    1 ≤ 32 ∧ twoBytes.size = 2 ^ 1 ∧ ∃ ram, Ram.ofBytes twoBytes = .ok ram ∧
      (ram.copy 0xFFFFFFFF 5).size = 5 ∧ (ram.copy 0xFFFFFFFF 5).data[3]? = some 0xAB ∧
      (ram.copy 0xFFFFFFFF 5).data[4]? = some 0xCD ∧
      (ram.read64 0xFFFFFFFF).toNat =
        (ram.read32 0xFFFFFFFF).toNat * 2 ^ 32 + (ram.read32 3).toNat := by
  obtain ⟨ram, hram, hreads⟩ := Ram.ofBytes_readsWrapped twoBytes (show 1 ≤ 32 by decide) rfl
  obtain ⟨hcopy, -, -, -, hhalves⟩ := hreads 0xFFFFFFFF
  obtain ⟨-, hsize, hbyte⟩ := hcopy 5
  exact ⟨by decide, rfl, ram, hram, hsize, hbyte 3 (by decide), hbyte 4 (by decide), hhalves⟩

end DisplayPipeline
