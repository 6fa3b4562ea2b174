namespace DisplayPipeline

structure OpcodeSet where
  words : Vector UInt64 4 := .replicate 4 0
deriving DecidableEq, Repr

namespace OpcodeSet

/-- The word that has the bit of an opcode. -/
def place (code : UInt8) : Fin 4 := ⟨code.toNat / 64, Nat.div_lt_of_lt_mul code.toNat_lt⟩

/-- The bit of an opcode in its word. -/
def bit (code : UInt8) : UInt64 := 1 <<< (code.toUInt64 % 64)

def contains (s : OpcodeSet) (code : UInt8) : Bool := s.words.get (place code) &&& bit code != 0

def insert (s : OpcodeSet) (code : UInt8) : OpcodeSet where
  words := s.words.set (place code).val (s.words.get (place code) ||| bit code) (place code).isLt

theorem toNat_bit (code : UInt8) : (bit code).toNat = 1 <<< (code.toNat % 64) := by
  have hplace : (code.toUInt64 % 64).toNat = code.toNat % 64 := by
    rw [UInt64.toNat_mod, UInt8.toNat_toUInt64]
    rfl
  have hlt : code.toNat % 64 < 64 := Nat.mod_lt _ (by decide)
  rw [bit, UInt64.toNat_shiftLeft, hplace, Nat.mod_eq_of_lt hlt, UInt64.toNat_one,
    Nat.one_shiftLeft, Nat.mod_eq_of_lt (Nat.pow_lt_pow_right (by decide) hlt)]

theorem contains_iff (s : OpcodeSet) (code : UInt8) :
    s.contains code = true ↔
      (s.words.get (place code)).toNat.testBit (code.toNat % 64) = true := by
  rw [contains, bne_iff_ne, ne_eq, ← UInt64.toNat_inj, UInt64.toNat_and, toNat_bit,
    UInt64.toNat_zero, Nat.one_shiftLeft]
  constructor
  · intro hsome
    refine Decidable.byContradiction fun hclear => hsome (Nat.eq_of_testBit_eq fun i => ?_)
    rw [Nat.testBit_and, Nat.testBit_two_pow, Nat.zero_testBit]
    by_cases hi : code.toNat % 64 = i
    · rw [← hi, Bool.eq_false_iff.mpr hclear, Bool.false_and]
    · rw [decide_eq_false hi, Bool.and_false]
  · intro hset hnone
    have hbit := congrArg (·.testBit (code.toNat % 64)) hnone
    simp [Nat.testBit_and, hset] at hbit

@[simp] theorem contains_empty (code : UInt8) : ({} : OpcodeSet).contains code = false := by
  have hword : Vector.get (.replicate 4 (0 : UInt64)) (place code) = 0 := Vector.getElem_replicate _
  change (Vector.get (.replicate 4 (0 : UInt64)) (place code) &&& bit code != 0) = false
  rw [hword, UInt64.zero_and]
  rfl

/-- Two opcodes have the same bit of the same word only if they are the same. -/
theorem eq_of_place {code other : UInt8} (hplace : place code = place other)
    (hbit : code.toNat % 64 = other.toNat % 64) : code = other := by
  have hword : code.toNat / 64 = other.toNat / 64 := congrArg Fin.val hplace
  apply UInt8.toNat_inj.mp
  omega

theorem get_insert (s : OpcodeSet) (code : UInt8) (i : Fin 4) :
    (s.insert code).words.get i =
      if place code = i then s.words.get i ||| bit code else s.words.get i := by
  change (s.words.set (place code).val _ (place code).isLt)[i.val] = _
  rw [Vector.getElem_set]
  by_cases hplace : place code = i
  · rw [if_pos (congrArg Fin.val hplace), if_pos hplace, hplace]
  · rw [if_neg fun h => hplace (Fin.ext h), if_neg hplace]
    rfl

@[simp] theorem contains_insert (s : OpcodeSet) (code other : UInt8) :
    (s.insert code).contains other = true ↔ other = code ∨ s.contains other = true := by
  rw [contains_iff, contains_iff, get_insert]
  by_cases hplace : place code = place other
  · have hsame : other = code ↔ code.toNat % 64 = other.toNat % 64 :=
      ⟨fun h => h ▸ rfl, fun h => (eq_of_place hplace h).symm⟩
    rw [if_pos hplace, UInt64.toNat_or, toNat_bit, Nat.one_shiftLeft, Nat.testBit_or,
      Nat.testBit_two_pow, Bool.or_eq_true, decide_eq_true_eq, hsame]
    exact Or.comm
  · have hother : other ≠ code := fun h => hplace (by rw [h])
    rw [if_neg hplace]
    exact ⟨.inr, fun h => h.resolve_left hother⟩

end OpcodeSet

end DisplayPipeline
