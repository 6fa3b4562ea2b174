import DisplayPipeline.Proofs.DisplayList.Hosting

/-!
# Bits of the mode words

`Word.setBits` bit by bit, for all words, and from it what an instruction for some bits of a mode word
does to both mode words. Such an instruction counts the place of its bits from the top of the word.
-/

namespace DisplayPipeline

namespace Word

/-! ## Bits of a word -/

private theorem testBit_eq_false (a : UInt32) {i : Nat} (h : 32 ≤ i) : a.toNat.testBit i = false :=
  Nat.testBit_lt_two_pow (Nat.lt_of_lt_of_le a.toNat_lt (Nat.pow_le_pow_right (by decide) h))

private theorem testBit_and (a b : UInt32) (i : Nat) :
    (a &&& b).toNat.testBit i = (a.toNat.testBit i && b.toNat.testBit i) := by
  rw [UInt32.toNat_and, Nat.testBit_and]

private theorem testBit_or (a b : UInt32) (i : Nat) :
    (a ||| b).toNat.testBit i = (a.toNat.testBit i || b.toNat.testBit i) := by
  rw [UInt32.toNat_or, Nat.testBit_or]

private theorem testBit_not (a : UInt32) {i : Nat} (h : i < 32) :
    (~~~a).toNat.testBit i = !a.toNat.testBit i := by
  change (~~~a.toBitVec).getLsbD i = !a.toBitVec.getLsbD i
  rw [BitVec.getLsbD_not, decide_eq_true h, Bool.true_and]

/-- The mask of a range of bits. A range of more than 32 bits has the same bits in the word as one
of 32, and those that were shifted past the top are cut off. -/
theorem testBit_rangeMask (length : UInt32) {shift : UInt32} (hshift : shift.toNat < 32) {i : Nat}
    (hi : i < 32) :
    (((1 : UInt64) <<< (min length 32).toUInt64 - 1) <<< shift.toUInt64).toUInt32.toNat.testBit i =
      decide (shift.toNat ≤ i ∧ i < shift.toNat + length.toNat) := by
  have hmin : (min length 32).toNat = min length.toNat 32 := toNat_min length 32
  have hones := toNat_ones (show (min length 32).toNat < 64 by rw [hmin]; omega)
  rw [UInt64.toNat_toUInt32, UInt64.toNat_shiftLeft, hones, hmin, UInt32.toNat_toUInt64,
    Nat.mod_eq_of_lt (show shift.toNat < 64 by omega), Nat.testBit_mod_two_pow,
    Nat.testBit_mod_two_pow, Nat.testBit_shiftLeft, Nat.testBit_two_pow_sub_one]
  grind

private theorem testBit_setBits (word shift length data : UInt32) (i : Nat) :
    (setBits word shift length data).toNat.testBit i =
      if shift.toNat ≤ i ∧ i < shift.toNat + length.toNat then data.toNat.testBit i
      else word.toNat.testBit i := by
  rcases Nat.lt_or_ge i 32 with hi | hi
  · unfold setBits
    split
    · rename_i hnone
      have hempty : ¬ (shift.toNat ≤ i ∧ i < shift.toNat + length.toNat) := by
        rcases hnone with hshift | rfl
        · have hshift : 32 ≤ shift.toNat := hshift
          omega
        · simp
      rw [if_neg hempty]
    · rename_i hsome
      have hshift : shift.toNat < 32 := Nat.lt_of_not_le fun h => hsome (.inl h)
      dsimp only
      rw [testBit_or, testBit_and, testBit_and, testBit_not _ hi, testBit_rangeMask _ hshift hi]
      split <;> simp [*]
  · rw [testBit_eq_false _ hi, testBit_eq_false _ hi, testBit_eq_false _ hi, ite_self]

end Word

/-! ## The bits that an instruction addresses -/

def Modes.get (m : Modes) : ModeWord → UInt32
  | .high => m.high
  | .low => m.low

/-- Bits of a mode word, and what they are to become. -/
structure ModeField where
  word : ModeWord
  /-- How many bits of the word are above them. -/
  above : Nat
  length : Nat
  data : UInt32
deriving DecidableEq, Repr

namespace ModeField

/-- The bits that the two words of an instruction address, if it is one for bits of a mode word. -/
def ofWords? (w0 w1 : UInt32) : Option ModeField :=
  let field (word : ModeWord) : ModeField :=
    ⟨word, w0.toNat / 2 ^ 8 % 2 ^ 8, w0.toNat % 2 ^ 8 + 1, w1⟩
  match w0.toNat / 2 ^ 24 with
  | 0xE2 => some (field .low)
  | 0xE3 => some (field .high)
  | _ => none

def Covers (f : ModeField) (i : Nat) : Prop := 32 - (f.above + f.length) ≤ i ∧ i < 32 - f.above

/-- The bits of the field are replaced, and all other bits of both words are kept. -/
structure Replaces (f : ModeField) (before after : Modes) : Prop where
  inside : ∀ i, f.Covers i → (after.get f.word).toNat.testBit i = f.data.toNat.testBit i
  outside : ∀ i, ¬ f.Covers i →
    (after.get f.word).toNat.testBit i = (before.get f.word).toNat.testBit i
  other : ∀ word, word ≠ f.word → after.get word = before.get word

private theorem replaces_apply {f : ModeField} {shift length : UInt32}
    (hfits : f.above + f.length ≤ 32)
    (hshift : shift.toNat = 32 - (f.above + f.length)) (hlength : length.toNat = f.length)
    (r : RenderRegisters) (segments : Segments) :
    ∃ modes, f.Replaces r.modes modes ∧
      r.apply segments (.modeBits f.word shift length f.data) = { r with modes } := by
  have hcovers (i : Nat) : f.Covers i ↔ shift.toNat ≤ i ∧ i < shift.toNat + length.toNat := by
    rw [Covers, hshift, hlength]
    omega
  have hreplaces {after : Modes}
      (hword : after.get f.word = Word.setBits (r.modes.get f.word) shift length f.data)
      (hother : ∀ word, word ≠ f.word → after.get word = r.modes.get word) :
      f.Replaces r.modes after := by
    constructor
    · intro i hi
      rw [hword, Word.testBit_setBits, if_pos ((hcovers i).mp hi)]
    · intro i hi
      rw [hword, Word.testBit_setBits, if_neg (mt (hcovers i).mpr hi)]
    · exact hother
  obtain ⟨word, above, count, data⟩ := f
  cases word with
  | low =>
    refine ⟨_, hreplaces rfl fun other hother => ?_, rfl⟩
    cases other with
    | high => rfl
    | low => exact absurd rfl hother
  | high =>
    refine ⟨_, hreplaces rfl fun other hother => ?_, rfl⟩
    cases other with
    | high => exact absurd rfl hother
    | low => rfl

end ModeField

/-! ## The instruction for a field -/

namespace Instruction

private theorem toNat_codeOf (word : UInt32) : (codeOf word).toNat = word.toNat / 2 ^ 24 := by
  have hlt := word.toNat_lt
  have htop : (word >>> 24).toNat = word.toNat / 2 ^ 24 := Word.toNat_shiftRight word rfl
  rw [codeOf, UInt32.toNat_toUInt8, htop]
  omega

theorem codeOf_eq {word : UInt32} {code : UInt8} (h : word.toNat / 2 ^ 24 = code.toNat) :
    codeOf word = code := UInt8.toNat_inj.mp ((toNat_codeOf word).trans h)

private theorem decodeModeBits_eq (word : ModeWord) {w0 : UInt32} (w1 : UInt32)
    (hfits : w0.toNat / 2 ^ 8 % 2 ^ 8 + (w0.toNat % 2 ^ 8 + 1) ≤ 32) :
    ∃ shift length : UInt32,
      decodeModeBits word w0 w1 = .render (.modeBits word shift length w1) ∧
      shift.toNat = 32 - (w0.toNat / 2 ^ 8 % 2 ^ 8 + (w0.toNat % 2 ^ 8 + 1)) ∧
      length.toNat = w0.toNat % 2 ^ 8 + 1 := by
  have habove : (Word.field w0 8 8).toNat = w0.toNat / 2 ^ 8 % 2 ^ 8 :=
    Word.fieldNat_eq w0 (by decide) (by decide)
  have hlength : (Word.field w0 0 8 + 1).toNat = w0.toNat % 2 ^ 8 + 1 := by
    have hfield : (Word.field w0 0 8).toNat = w0.toNat / 2 ^ 0 % 2 ^ 8 :=
      Word.fieldNat_eq w0 (by decide) (by decide)
    rw [UInt32.toNat_add, hfield, UInt32.toNat_one]
    omega
  have hreach : (Word.field w0 8 8 + (Word.field w0 0 8 + 1)).toNat =
      w0.toNat / 2 ^ 8 % 2 ^ 8 + (w0.toNat % 2 ^ 8 + 1) := by
    rw [UInt32.toNat_add, habove, hlength]
    omega
  have hle : Word.field w0 8 8 + (Word.field w0 0 8 + 1) ≤ 32 := by
    rw [UInt32.le_iff_toNat_le, hreach]
    exact hfits
  refine ⟨32 - (Word.field w0 8 8 + (Word.field w0 0 8 + 1)), Word.field w0 0 8 + 1, ?_, ?_, hlength⟩
  · simp only [decodeModeBits, if_pos hle]
  · rw [UInt32.toNat_sub_of_le _ _ hle, hreach]
    rfl

variable {ram : Ram} {address : UInt32} {f : ModeField}

private theorem fetch_of_ofByte? {opcode : Opcode}
    (hcode : Opcode.ofByte? (codeOf (ram.read32 address)) = some opcode)
    (hoperands : takesOperands opcode = false) :
    fetch ram address =
      (ofOpcode opcode (ram.read32 address) (ram.read32 (address + 4)) (0, 0),
        following ram address) := by
  unfold fetch
  simp only [hcode, hoperands]
  rfl

private theorem fetch_modeField
    (h : ModeField.ofWords? (ram.read32 address) (ram.read32 (address + 4)) = some f)
    (hfits : f.above + f.length ≤ 32) :
    ∃ shift length, fetch ram address =
        (.render (.modeBits f.word shift length f.data), following ram address) ∧
      shift.toNat = 32 - (f.above + f.length) ∧ length.toNat = f.length := by
  unfold ModeField.ofWords? at h
  dsimp only at h
  split at h
  · rename_i hlow
    cases h
    obtain ⟨shift, length, hdecode, hshift, hlength⟩ := decodeModeBits_eq .low _ hfits
    have hcode : codeOf (ram.read32 address) = 0xE2 := codeOf_eq hlow
    refine ⟨shift, length, ?_, hshift, hlength⟩
    rw [fetch_of_ofByte? (by rw [hcode]; rfl) rfl, ← hdecode]
    rfl
  · rename_i hhigh
    cases h
    obtain ⟨shift, length, hdecode, hshift, hlength⟩ := decodeModeBits_eq .high _ hfits
    have hcode : codeOf (ram.read32 address) = 0xE3 := codeOf_eq hhigh
    refine ⟨shift, length, ?_, hshift, hlength⟩
    rw [fetch_of_ofByte? (by rw [hcode]; rfl) rfl, ← hdecode]
    rfl
  · cases h

end Instruction

namespace Machine

variable {σ : Type} {o : Outlet σ} {ram : Ram} {settings : ListSettings} {m : Machine σ}

private theorem performAll_close (scene : Scene) (link : Link σ) :
    DeliverM.performAll o scene [.close] link = DeliverM.closeBatch o link := by
  change (DeliverM.closeBatch o >>= fun _ => pure ()) link = _
  rw [bind_pure_unit]

/-- A change of the render registers closes the batch first and leads to the next instruction. -/
theorem step_of_render {change : RenderChange}
    (h : Instruction.fetch ram m.walk.address =
      (.render change, Instruction.following ram m.walk.address)) :
    m.step o ram settings =
      match DeliverM.closeBatch o m.counted with
      | .error cause link => .stop ⟨m.registers, m.walk, link⟩ (.aborted (.refused cause))
      | .ok () link =>
        .next ⟨m.registers.applyRender change,
          { m.walk with address := Instruction.following ram m.walk.address }, link⟩ := by
  have hinstruction : m.visit.instruction ram = .render change := congrArg Prod.fst h
  rw [step_eq, hinstruction]
  change (match DeliverM.performAll o (m.visit.scene ram settings) [.close] m.counted with
    | .error cause link => _
    | .ok () link => _) = _
  rw [performAll_close]
  cases DeliverM.closeBatch o m.counted with
  | error cause link => rfl
  | ok _ link =>
    dsimp only
    rw [moved]
    dsimp only [Visit.scene]
    rw [h]
    rfl

/-- Replacing bits takes those of the range from the data and all others from the word, whatever the
range is. An instruction for bits of a mode word that lie within the word replaces those and keeps all
other bits of both words, once the batch is closed; if that is refused for good, nothing changes. -/
theorem step_replacesModeBits :
    (∀ (word shift length data : UInt32) (i : Nat),
      (Word.setBits word shift length data).toNat.testBit i =
        if shift.toNat ≤ i ∧ i < shift.toNat + length.toNat then data.toNat.testBit i
        else word.toNat.testBit i) ∧
    ∀ {σ : Type} (o : Outlet σ) (ram : Ram) (settings : ListSettings) (m : Machine σ)
      (f : ModeField),
      ModeField.ofWords? (ram.read32 m.walk.address) (ram.read32 (m.walk.address + 4)) = some f →
      f.above + f.length ≤ 32 →
      ∃ modes : Modes, f.Replaces m.registers.render.modes modes ∧
        m.step o ram settings =
          match DeliverM.closeBatch o m.counted with
          | .error cause link => .stop ⟨m.registers, m.walk, link⟩ (.aborted (.refused cause))
          | .ok () link =>
            .next ⟨{ m.registers with render.modes := modes },
              { m.walk with address := Instruction.following ram m.walk.address }, link⟩ := by
  refine ⟨Word.testBit_setBits, fun o ram settings m f hwords hfits => ?_⟩
  obtain ⟨shift, length, hfetch, hshift, hlength⟩ := Instruction.fetch_modeField hwords hfits
  obtain ⟨modes, hreplaces, happly⟩ := ModeField.replaces_apply hfits hshift hlength
    m.registers.render m.registers.geometry.segments
  refine ⟨modes, hreplaces, ?_⟩
  rw [step_of_render hfetch, Registers.applyRender, happly]

/-- An instruction that makes the cycle type the one for copying. Its data has bits outside of the
field. -/
def cycleTypeRam : Ram where
  bytes := ⟨#[0xE3, 0x00, 0x0A, 0x01, 0xFF, 0x2F, 0xFF, 0xFF]⟩
  logSize := 3
  size_eq := by decide +kernel
  logSize_le := by decide

def cycleTypeMachine : Machine Recording where
  registers := { Registers.initial {} with render.modes := ⟨0x0C180CFF, 5⟩ }
  walk := { address := 0 }
  link := ⟨{}, {}, {}⟩

theorem step_replacesModeBits_cycleType :
    ModeField.ofWords? (cycleTypeRam.read32 0) (cycleTypeRam.read32 4) =
        some ⟨.high, 10, 2, 0xFF2FFFFF⟩ ∧
      10 + 2 ≤ 32 ∧
      (cycleTypeMachine.step .recording cycleTypeRam {}).after.registers.render.modes =
        ⟨0x0C280CFF, 5⟩ ∧
      ModeField.Replaces ⟨.high, 10, 2, 0xFF2FFFFF⟩ ⟨0x0C180CFF, 5⟩ ⟨0x0C280CFF, 5⟩ := by
  have hwords : ModeField.ofWords? (cycleTypeRam.read32 0) (cycleTypeRam.read32 4) =
      some ⟨.high, 10, 2, 0xFF2FFFFF⟩ := by decide +kernel
  have hmodes : (cycleTypeMachine.step .recording cycleTypeRam {}).after.registers.render.modes =
      ⟨0x0C280CFF, 5⟩ := by decide +kernel
  obtain ⟨modes, hreplaces, hstep⟩ := step_replacesModeBits.2 .recording cycleTypeRam {}
    cycleTypeMachine ⟨.high, 10, 2, 0xFF2FFFFF⟩ hwords (by decide)
  have hafter := hmodes
  rw [hstep] at hafter
  cases hafter
  exact ⟨hwords, by decide, hmodes, hreplaces⟩

end Machine

end DisplayPipeline
