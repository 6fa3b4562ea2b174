import DisplayPipeline.Proofs.Combiner.ProgramText
import DisplayPipeline.Proofs.WordBytes

/-!
# The fields of a mux

The sixteen selectors of a mux have fields that lie side by side and fill its low 56 bits, in no
order of halves, cycles or positions. So each selector is changed on its own, and any choice of
inputs that the selectors offer is made by some mux. Keys hold these bits and nothing above them.
-/

namespace DisplayPipeline.Combiner

/-- The place of an input in `(a - b) * c + d`. -/
inductive Position where
  | a
  | b
  | c
  | d
deriving DecidableEq, Repr

def Cycle.input {α : Type} (cycle : Cycle α) : Position → α
  | .a => cycle.a
  | .b => cycle.b
  | .c => cycle.c
  | .d => cycle.d

private theorem Cycle.ext_input {α : Type} {cycle other : Cycle α}
    (h : ∀ position, cycle.input position = other.input position) : cycle = other := by
  cases cycle
  cases other
  rw [Cycle.mk.injEq]
  exact ⟨h .a, h .b, h .c, h .d⟩

def Cycles.cycle {α : Type} (cycles : Cycles α) : Bool → Cycle α
  | false => cycles.first
  | true => cycles.second

private theorem Cycles.ext_cycle {α : Type} {cycles others : Cycles α}
    (h : ∀ second, cycles.cycle second = others.cycle second) : cycles = others := by
  cases cycles
  cases others
  rw [Cycles.mk.injEq]
  exact ⟨h false, h true⟩

/-- What selects one input: for which half, whether for the second cycle, and for which place. -/
inductive Selector where
  | color (second : Bool) (position : Position)
  | alpha (second : Bool) (position : Position)
deriving DecidableEq, Repr

namespace Selector

def all : List Selector := do
  let half ← [color, alpha]
  let second ← [false, true]
  let position ← [Position.a, .b, .c, .d]
  return half second position

private theorem mem_all (selector : Selector) : selector ∈ all := by
  rcases selector with ⟨second, position⟩ | ⟨second, position⟩ <;> cases second <;>
    cases position <;> decide

def place : Selector → Nat
  | color false .a => 52
  | color false .c => 47
  | alpha false .a => 44
  | alpha false .c => 41
  | color true .a => 37
  | color true .c => 32
  | color false .b => 28
  | color true .b => 24
  | alpha true .a => 21
  | alpha true .c => 18
  | color false .d => 15
  | alpha false .b => 12
  | alpha false .d => 9
  | color true .d => 6
  | alpha true .b => 3
  | alpha true .d => 0

def width : Selector → Nat
  | color _ .a | color _ .b => 4
  | color _ .c => 5
  | color _ .d | alpha _ _ => 3

def value (selector : Selector) (mux : UInt64) : Nat :=
  mux.toNat / 2 ^ selector.place % 2 ^ selector.width

def choose : Selector → Nat → ColorInput ⊕ AlphaInput
  | color _ .a, n => .inl (colorA n)
  | color _ .b, n => .inl (colorB n)
  | color _ .c, n => .inl (colorC n)
  | color _ .d, n => .inl (colorD n)
  | alpha _ .c, n => .inr (alphaC n)
  | alpha _ _, n => .inr (alphaABD n)

/-- The input of some stages that is up to a selector. -/
def input : Selector → Stages → ColorInput ⊕ AlphaInput
  | color second position, stages => .inl ((stages.color.cycle second).input position)
  | alpha second position, stages => .inr ((stages.alpha.cycle second).input position)

def CoversBit (selector : Selector) (bit : Nat) : Prop :=
  selector.place ≤ bit ∧ bit < selector.place + selector.width

instance (selector : Selector) (bit : Nat) : Decidable (selector.CoversBit bit) :=
  inferInstanceAs (Decidable (_ ∧ _))

/-- Whether a bit of a mux has a say in a selector's input. -/
def Reads (selector : Selector) (bit : Nat) : Prop :=
  ∃ mux other : UInt64,
    (∀ i, i ≠ bit → mux.toNat.testBit i = other.toNat.testBit i) ∧
      selector.input (.ofMux mux) ≠ selector.input (.ofMux other)

/-- Whether all the bits below the top byte that differ are in a selector's field. -/
def Confines (selector : Selector) (mux other : UInt64) : Prop :=
  ∀ bit < 56, ¬ selector.CoversBit bit → mux.toNat.testBit bit = other.toNat.testBit bit

instance (selector : Selector) (mux other : UInt64) : Decidable (selector.Confines mux other) :=
  inferInstanceAs (Decidable (∀ bit < 56, _ → _))

def Offers (selector : Selector) (input : ColorInput ⊕ AlphaInput) : Prop :=
  ∃ n < 2 ^ selector.width, selector.choose n = input

section Reading

variable {selector : Selector} {mux other : UInt64}

private theorem input_ofMux (selector : Selector) (mux : UInt64) :
    selector.input (.ofMux mux) = selector.choose (selector.value mux) := by
  rcases selector with ⟨second, position⟩ | ⟨second, position⟩ <;> cases second <;>
    cases position
  all_goals
    simp (disch := decide) only [input, Stages.ofMux, Cycles.cycle, Cycle.input,
      ↓Word.fieldNat_upperHalf, Word.fieldNat_lowerHalf]
    rfl

private theorem value_lt (selector : Selector) (mux : UInt64) :
    selector.value mux < 2 ^ selector.width :=
  Nat.mod_lt _ (Nat.two_pow_pos _)

private theorem testBit_value (selector : Selector) (mux : UInt64) (k : Nat) :
    (selector.value mux).testBit k =
      (decide (k < selector.width) && mux.toNat.testBit (k + selector.place)) := by
  rw [value, Nat.testBit_mod_two_pow, Nat.testBit_div_two_pow]

private theorem coversBit_add_place {k : Nat} (h : k < selector.width) :
    selector.CoversBit (k + selector.place) := by
  rw [CoversBit]
  omega

private theorem input_congr
    (h : ∀ bit, selector.CoversBit bit → mux.toNat.testBit bit = other.toNat.testBit bit) :
    selector.input (.ofMux mux) = selector.input (.ofMux other) := by
  have hvalue : selector.value mux = selector.value other := by
    refine Nat.eq_of_testBit_eq fun k => ?_
    rw [testBit_value, testBit_value]
    by_cases hk : k < selector.width
    · rw [h _ (coversBit_add_place hk)]
    · rw [decide_eq_false hk, Bool.false_and, Bool.false_and]
  rw [input_ofMux, input_ofMux, hvalue]

end Reading

section Layout

variable {selector changed : Selector} {bit : Nat}

def coveringSelector (bit : Nat) : Selector := (all.find? (·.CoversBit bit)).getD (alpha true .d)

private theorem coversBit_iff_of_mem :
    ∀ bit < 56, ∀ selector ∈ all, selector.CoversBit bit ↔ selector = coveringSelector bit := by
  decide +kernel

private theorem coversBit_iff (h : bit < 56) :
    selector.CoversBit bit ↔ selector = coveringSelector bit :=
  coversBit_iff_of_mem bit h selector (mem_all selector)

private theorem lt_of_coversBit (h : selector.CoversBit bit) : bit < 56 := by
  have hend : ∀ selector ∈ all, selector.place + selector.width ≤ 56 := by decide
  exact Nat.lt_of_lt_of_le h.2 (hend selector (mem_all selector))

private theorem existsUnique_coversBit (h : bit < 56) : ∃! selector :
    Selector, selector.CoversBit bit :=
  ⟨coveringSelector bit, (coversBit_iff h).mpr rfl, fun _ hselector => (coversBit_iff h).mp hselector⟩

private theorem input_of_confines (hne : selector ≠ changed) {mux other : UInt64}
    (h : changed.Confines mux other) :
    selector.input (.ofMux mux) = selector.input (.ofMux other) := by
  refine input_congr fun bit hbit => h bit (lt_of_coversBit hbit) fun hchanged => hne ?_
  have hlt := lt_of_coversBit hbit
  rw [(coversBit_iff hlt).mp hbit, (coversBit_iff hlt).mp hchanged]

private theorem choose_two_pow_ne_of_mem : ∀ selector ∈ all, ∀ k < selector.width,
    selector.choose (2 ^ k) ≠ selector.choose 0 := by
  decide +kernel

/-- Every bit of a field matters to its selector, and no other bit does. -/
theorem reads_iff_coversBit : selector.Reads bit ↔ selector.CoversBit bit := by
  constructor
  · rintro ⟨mux, other, hsame, hinput⟩
    by_contra hbit
    exact hinput (input_congr fun i hi => hsame i fun h => hbit (h ▸ hi))
  · intro hbit
    have hlt : 2 ^ bit < 2 ^ 64 :=
      Nat.pow_lt_pow_right (by decide) (Nat.lt_of_lt_of_le (lt_of_coversBit hbit) (by decide))
    have hpow : (UInt64.ofNat (2 ^ bit)).toNat = 2 ^ bit := UInt64.toNat_ofNat_of_lt' hlt
    obtain ⟨k, rfl⟩ := Nat.exists_eq_add_of_le hbit.1
    have hk : k < selector.width := Nat.lt_of_add_lt_add_left hbit.2
    have hvalue : selector.value (.ofNat (2 ^ (selector.place + k))) = 2 ^ k := by
      rw [value, hpow, Nat.pow_add, Nat.mul_div_cancel_left _ (Nat.two_pow_pos _),
        Nat.mod_eq_of_lt (Nat.pow_lt_pow_right (by decide) hk)]
    have hzero : selector.value 0 = 0 := by
      rw [value, UInt64.toNat_zero, Nat.zero_div, Nat.zero_mod]
    refine ⟨.ofNat (2 ^ (selector.place + k)), 0, fun i hi => ?_, ?_⟩
    · rw [hpow, UInt64.toNat_zero, Nat.testBit_two_pow, Nat.zero_testBit,
        decide_eq_false (Ne.symm hi)]
    · rw [input_ofMux, input_ofMux, hvalue, hzero]
      exact choose_two_pow_ne_of_mem selector (mem_all selector) k hk

end Layout

section Assembly

private def assemble (numbers : Selector → Nat) : UInt64 :=
  .ofNat (Nat.ofBits fun bit : Fin 56 =>
    (numbers (coveringSelector bit)).testBit (bit - (coveringSelector bit).place))

private theorem toNat_assemble (numbers : Selector → Nat) : (assemble numbers).toNat =
    Nat.ofBits fun bit : Fin 56 =>
      (numbers (coveringSelector bit)).testBit (bit - (coveringSelector bit).place) :=
  UInt64.toNat_ofNat_of_lt' (Nat.lt_of_lt_of_le (Nat.ofBits_lt_two_pow _) (by decide))

private theorem value_assemble {numbers : Selector → Nat} {selector : Selector}
    (h : numbers selector < 2 ^ selector.width) :
    selector.value (assemble numbers) = numbers selector := by
  refine Nat.eq_of_testBit_eq fun k => ?_
  rw [testBit_value]
  by_cases hk : k < selector.width
  · have hbit : selector.CoversBit (k + selector.place) := coversBit_add_place hk
    have hlt := lt_of_coversBit hbit
    rw [decide_eq_true hk, Bool.true_and, toNat_assemble, Nat.testBit_ofBits_lt _ _ hlt,
      ← (coversBit_iff hlt).mp hbit, Nat.add_sub_cancel]
  · have hwide : numbers selector < 2 ^ k :=
      Nat.lt_of_lt_of_le h (Nat.pow_le_pow_right (by decide) (Nat.le_of_not_lt hk))
    rw [decide_eq_false hk, Bool.false_and, Nat.testBit_lt_two_pow hwide]

private theorem stages_ext {stages others : Stages}
    (h : ∀ selector : Selector, selector.input stages = selector.input others) :
    stages = others := by
  have hcolor : ∀ second, stages.color.cycle second = others.color.cycle second := fun second =>
    Cycle.ext_input fun position => Sum.inl.inj (h (color second position))
  have halpha : ∀ second, stages.alpha.cycle second = others.alpha.cycle second := fun second =>
    Cycle.ext_input fun position => Sum.inr.inj (h (alpha second position))
  cases stages
  cases others
  rw [Stages.mk.injEq]
  exact ⟨Cycles.ext_cycle hcolor, Cycles.ext_cycle halpha⟩

/-- Muxes make just those stages whose inputs are offered where they stand. -/
theorem exists_ofMux_iff (stages : Stages) :
    (∃ mux, Stages.ofMux mux = stages) ↔
      ∀ selector : Selector, selector.Offers (selector.input stages) := by
  constructor
  · rintro ⟨mux, rfl⟩ selector
    exact ⟨selector.value mux, selector.value_lt mux, (input_ofMux selector mux).symm⟩
  · intro h
    choose numbers hlt hchosen using h
    refine ⟨assemble numbers, stages_ext fun selector => ?_⟩
    rw [input_ofMux, value_assemble (hlt selector), hchosen]

end Assembly

end Selector

namespace Key

private theorem toNat_and_muxMask (mux : UInt64) :
    (mux &&& muxMask).toNat = mux.toNat % 2 ^ 56 := by
  rw [UInt64.toNat_and]
  exact Nat.and_two_pow_sub_one_eq_mod mux.toNat 56

private theorem stages_ofMux (mux : UInt64) : Stages.ofMux
    (mux &&& muxMask) = Stages.ofMux mux := by
  refine Selector.stages_ext fun selector => Selector.input_congr fun bit hbit => ?_
  rw [toNat_and_muxMask, Nat.testBit_mod_two_pow, decide_eq_true (Selector.lt_of_coversBit hbit),
    Bool.true_and]

private theorem toNat_mux_ofWords (w0 w1 : UInt32) (flags : Flags) :
    (ofWords w0 w1 flags).mux.toNat = (w0 &&& 0x00FFFFFF).toNat * 2 ^ 32 + w1.toNat := by
  have hhigh : (w0 &&& 0x00FFFFFF).toNat < 2 ^ 24 := by
    rw [UInt32.toNat_and]
    exact Nat.and_lt_two_pow _ (by decide)
  have hlow := w1.toNat_lt
  rw [ofWords, ofMux, toNat_and_muxMask, Word.toNat_join64]
  exact Nat.mod_eq_of_lt (by omega)

private theorem ofWords_inj {w0 w1 v0 v1 : UInt32} {flags others : Flags} :
    ofWords w0 w1 flags = ofWords v0 v1 others ↔
      (w0 &&& 0x00FFFFFF = v0 &&& 0x00FFFFFF ∧ w1 = v1) ∧ flags = others := by
  constructor
  · intro h
    have hmux := congrArg (fun key => key.mux.toNat) h
    simp only [toNat_mux_ofWords] at hmux
    have hw := w1.toNat_lt
    have hv := v1.toNat_lt
    exact ⟨⟨UInt32.toNat_inj.mp (by omega), UInt32.toNat_inj.mp (by omega)⟩,
      congrArg Key.flags h⟩
  · rintro ⟨⟨hhigh, hlow⟩, hflags⟩
    rw [ofWords, ofWords, hhigh, hlow, hflags]

private theorem ofPacked_packed (key : Key) :
    ofPacked key.packed = ofMux key.mux (key.flags.only Flags.known) := by
  have hlt : key.mux.toNat < UInt64.size := key.mux.toNat_lt
  have hflags : key.packed / UInt64.size = key.flags.bits.toNat := by
    rw [packed, Nat.mul_comm, Nat.mul_add_div (by decide), Nat.div_eq_of_lt hlt, Nat.add_zero]
  have hmux : UInt64.ofNat key.packed = key.mux := by
    apply UInt64.toNat_inj.mp
    rw [UInt64.toNat_ofNat']
    exact (Nat.mul_add_mod_self_right ..).trans (Nat.mod_eq_of_lt hlt)
  rw [ofPacked, hflags, hmux, UInt32.ofNat_toNat]

@[simp]
theorem ofMux_mux (mux : UInt64) (flags others : Flags) :
    ofMux (ofMux mux flags).mux others = ofMux mux others := by
  rw [ofMux, ofMux, ofMux, UInt64.and_assoc, UInt64.and_self]

/-- A key is read back if it was made from a mux and its flags all have a meaning. -/
theorem ofPacked_packed_eq_iff (key : Key) :
    ofPacked key.packed = key ↔
      (∃ mux, key = ofMux mux key.flags) ∧ key.flags.only Flags.known = key.flags := by
  rw [ofPacked_packed]
  constructor
  · intro h
    have hflags : key.flags.only Flags.known = key.flags := congrArg Key.flags h
    rw [hflags] at h
    exact ⟨⟨key.mux, h.symm⟩, hflags⟩
  · rintro ⟨⟨mux, hmux⟩, hflags⟩
    calc ofMux key.mux (key.flags.only Flags.known)
        = ofMux (ofMux mux key.flags).mux key.flags := by rw [hflags, ← hmux]
      _ = ofMux mux key.flags := ofMux_mux mux key.flags key.flags
      _ = key := hmux.symm

end Key

namespace Selector

/-- The fields of the selectors fill the low 56 bits of a mux without overlapping. What a selector
selects is up to the bits of its field, each of which matters, and to no others, so it does not
change with other fields. All stages with inputs that are offered in their places can be had. Keys
are told apart by the same bits, whether as words or packed. -/
theorem ofMux_readsFields :
    (∀ (selector : Selector) (mux : UInt64),
      selector.input (.ofMux mux) = selector.choose (selector.value mux)) ∧
    (∀ (selector : Selector) (bit : Nat), selector.Reads bit ↔ selector.CoversBit bit) ∧
    (∀ bit < 56, ∃! selector : Selector, selector.CoversBit bit) ∧
    (∀ (selector : Selector) (bit : Nat), selector.CoversBit bit → bit < 56) ∧
    (∀ mux, Stages.ofMux (mux &&& Key.muxMask) = Stages.ofMux mux) ∧
    (∀ (changed : Selector) (mux other : UInt64), changed.Confines mux other →
      ∀ selector ≠ changed, selector.input (.ofMux mux) = selector.input (.ofMux other)) ∧
    (∀ stages, (∃ mux, Stages.ofMux mux = stages) ↔
      ∀ selector : Selector, selector.Offers (selector.input stages)) ∧
    (∀ (w0 w1 v0 v1 : UInt32) (flags others : Flags),
      Key.ofWords w0 w1 flags = Key.ofWords v0 v1 others ↔
        (w0 &&& 0x00FFFFFF = v0 &&& 0x00FFFFFF ∧ w1 = v1) ∧ flags = others) ∧
    Function.Injective Key.packed ∧
    (∀ key, Key.ofPacked key.packed = key ↔
      (∃ mux, key = Key.ofMux mux key.flags) ∧ key.flags.only Flags.known = key.flags) :=
  ⟨input_ofMux, fun _ _ => reads_iff_coversBit, fun _ hbit => existsUnique_coversBit hbit,
    fun _ _ => lt_of_coversBit, Key.stages_ofMux,
    fun _ _ _ hsame _ hne => input_of_confines hne hsame, exists_ofMux_iff,
    fun _ _ _ _ _ _ => Key.ofWords_inj, Key.packed_injective, Key.ofPacked_packed_eq_iff⟩

/-- A change of one of the widest fields and of the top byte, between two other fields. -/
theorem ofMux_readsFields_betweenOthers :
    ((color false .c).Confines 0x00FFFFFFFFFFFFFF 0xAAF07FFFFFFFFFFF ∧
      alpha false .a ≠ color false .c ∧
      (alpha false .a).input (.ofMux 0x00FFFFFFFFFFFFFF) =
        (alpha false .a).input (.ofMux 0xAAF07FFFFFFFFFFF)) ∧
    (55 < 56 ∧ ∃! selector : Selector, selector.CoversBit 55) ∧
    (alpha false .a).CoversBit 46 ∧ 46 < 56 := by
  obtain ⟨-, -, hcover, hbound, -, hconfined, -⟩ := ofMux_readsFields
  have hsame : (color false .c).Confines 0x00FFFFFFFFFFFFFF 0xAAF07FFFFFFFFFFF := by decide
  have hne : alpha false .a ≠ color false .c := by decide
  have hcovers : (alpha false .a).CoversBit 46 := by decide
  exact ⟨⟨hsame, hne, hconfined _ _ _ hsame _ hne⟩, ⟨by decide, hcover 55 (by decide)⟩,
    hcovers, hbound _ _ hcovers⟩

end Selector

end DisplayPipeline.Combiner
