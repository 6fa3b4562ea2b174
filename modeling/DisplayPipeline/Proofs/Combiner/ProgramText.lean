import DisplayPipeline.Combiner.Programs
import Mathlib.Data.List.Infix
import Mathlib.Tactic.IntervalCases

namespace DisplayPipeline

private theorem infix_append_cons {α : Type} {word before after : List α} {separator : α}
    (h : separator ∉ word) :
    word <:+: before ++ separator :: after ↔ word <:+: before ∨ word <:+: after := by
  constructor
  · rintro ⟨left, right, hsplit⟩
    rcases List.append_eq_append_iff.mp hsplit with ⟨rest, hbefore, -⟩ | ⟨rest, hword, hafter⟩
    · exact Or.inl ⟨left, rest, hbefore.symm⟩
    · cases rest with
      | nil => exact Or.inl ⟨left, [], by simpa using hword⟩
      | cons c rest =>
        obtain ⟨rfl, hrest⟩ := List.cons.inj hafter
        rcases List.append_eq_append_iff.mp hword with ⟨part, -, hpart⟩ | ⟨part, -, hpart⟩
        · exact absurd (hpart ▸ by simp) h
        · cases part with
          | nil => exact absurd (show separator ∈ word by rw [← List.nil_append word, ← hpart]; simp) h
          | cons d part =>
            obtain ⟨-, rfl⟩ := List.cons.inj hpart
            exact Or.inr ⟨part, right, hrest.symm⟩
  · rintro (h | h)
    · exact h.trans (List.prefix_append _ _).isInfix
    · exact h.trans ((List.suffix_cons _ _).trans (List.suffix_append _ _)).isInfix

namespace Text.Hex

private theorem digitValue_digit : ∀ n < 16, digitValue (digit n) = n := by decide

@[simp]
theorem length_fixed (width n : Nat) : (fixed width n).toList.length = width := by
  induction width generalizing n with
  | zero => simp
  | succ width ih => simp [toList_fixed_succ, ih]

private theorem mem_fixed {width n : Nat} {c : Char} (h : c ∈ (fixed width n).toList) :
    ∃ m < 16, c = digit m := by
  induction width generalizing n with
  | zero => simp at h
  | succ width ih =>
    rw [toList_fixed_succ, List.mem_append, List.mem_singleton] at h
    rcases h with h | h
    · exact ih h
    · exact ⟨n % 16, Nat.mod_lt _ (by decide), h⟩

private theorem value_fixed (width n : Nat) : value (fixed width n) = n % 16 ^ width := by
  rw [value, String.foldl_eq_foldl_toList]
  induction width generalizing n with
  | zero => simp [Nat.mod_one]
  | succ width ih =>
    have hmod : n % 16 ^ (width + 1) = n % 16 + 16 * (n / 16 % 16 ^ width) := by
      rw [pow_succ, Nat.mul_comm, Nat.mod_mul]
    rw [toList_fixed_succ, List.foldl_append, ih, hmod, List.foldl_cons, List.foldl_nil,
      digitValue_digit _ (Nat.mod_lt _ (by decide))]
    omega

private theorem fixed_injective {width m n : Nat} (hm : m < 16 ^ width) (hn : n < 16 ^ width)
    (h : fixed width m = fixed width n) : m = n := by
  have hvalue := congrArg value h
  rwa [value_fixed, value_fixed, Nat.mod_eq_of_lt hm, Nat.mod_eq_of_lt hn] at hvalue

end Text.Hex

namespace Combiner

namespace Key

private theorem packed_lt (key : Key) : key.packed < 16 ^ 32 := by
  have hflags := key.flags.bits.toNat_lt
  have hmux := key.mux.toNat_lt
  simp only [packed, UInt64.size]
  omega

theorem packed_injective : Function.Injective packed := by
  intro key other h
  have hmux := key.mux.toNat_lt
  have hother := other.mux.toNat_lt
  simp only [packed, UInt64.size] at h
  have hsame : key.mux = other.mux := UInt64.toNat_inj.mp (by omega)
  have hflags : key.flags.bits = other.flags.bits := UInt32.toNat_inj.mp (by omega)
  cases key with | mk mux flags => cases other with | mk mux' flags' =>
  cases flags
  cases flags'
  simp_all

private theorem hex_injective : Function.Injective hex := fun key other h =>
  packed_injective (Text.Hex.fixed_injective key.packed_lt other.packed_lt h)

@[simp]
theorem length_hex (key : Key) : key.hex.toList.length = 32 := Text.Hex.length_fixed 32 _

private theorem notMem_hex (key : Key) {c : Char} (h : ∀ n < 16, c ≠ Text.Hex.digit n) :
    c ∉ key.hex.toList := by
  intro hc
  obtain ⟨n, hn, rfl⟩ := Text.Hex.mem_fixed hc
  exact h n hn rfl

end Key

namespace Programs

def deviceLabel (q : Program) : String :=
  if q.fallback then label q.key ++ passThroughMark else label q.key

private theorem deviceLabel_eq (q : Program) :
    ∃ mark, deviceLabel q = "combiner:" ++ (q.key.hex ++ mark) := by
  rw [deviceLabel]
  split
  · exact ⟨passThroughMark, by rw [label, String.append_assoc]⟩
  · exact ⟨"", by rw [label, String.append_empty]⟩

/-- Also the pass-through program of a key and the main one of another are told apart. -/
theorem key_eq_of_deviceLabel {q other : Program} (h : deviceLabel q = deviceLabel other) :
    q.key = other.key := by
  obtain ⟨mark, hq⟩ := deviceLabel_eq q
  obtain ⟨otherMark, hother⟩ := deviceLabel_eq other
  rw [hq, hother] at h
  have hlist := congrArg String.toList h
  simp only [String.toList_append, List.append_cancel_left_eq] at hlist
  exact Key.hex_injective (String.toList_inj.mp (List.append_inj_left hlist (by simp)))

private theorem endsWith_iff (text mark : String) :
    text.endsWith mark = true ↔ mark.toList <:+ text.toList := by
  rw [← String.endsWith_toSlice, String.Slice.endsWith_string_iff, String.copy_toSlice]

private theorem label_endsWith (key : Key) : (label key).endsWith passThroughMark = false := by
  rw [← Bool.not_eq_true, endsWith_iff]
  intro hmark
  -- A label is so long that the mark would be a part of the number.
  have hnumber : key.hex.toList <:+ (label key).toList := by
    rw [label, String.toList_append]
    exact List.suffix_append _ _
  have hpart := List.suffix_of_suffix_length_le hmark hnumber (by rw [Key.length_hex]; decide)
  have hletter : 'p' ∉ key.hex.toList := key.notMem_hex (by decide)
  exact hletter (hpart.subset (by decide))

theorem refuses_label (faults : Faults) (key : Key) :
    faults.refuses (label key) = faults.programs := by
  simp [Faults.refuses, label_endsWith]

theorem refuses_passThrough (faults : Faults) (key : Key) :
    faults.refuses (label key ++ passThroughMark) = faults.passThroughs := by
  have hmark : (label key ++ passThroughMark).endsWith passThroughMark = true := by
    rw [endsWith_iff, String.toList_append]
    exact List.suffix_append _ _
  simp [Faults.refuses, hmark]

end Programs

namespace Shader

/-- The functions for screen-space derivatives; the coarse and fine forms begin like these. -/
def derivatives : List String := ["dpdx", "dpdy", "fwidth"]

def UsesDerivatives (text : String) : Prop :=
  ∃ name ∈ derivatives, name.toList <:+: text.toList

instance (text : String) : Decidable (UsesDerivatives text) :=
  inferInstanceAs (Decidable (∃ name ∈ derivatives, name.toList <:+: text.toList))

private theorem usesDerivatives_iff (text : String) : UsesDerivatives text ↔
    ['d', 'p', 'd', 'x'] <:+: text.toList ∨ ['d', 'p', 'd', 'y'] <:+: text.toList ∨
      ['f', 'w', 'i', 'd', 't', 'h'] <:+: text.toList := by
  simp [UsesDerivatives, derivatives]

/-- None of the lines calls a function for derivatives. -/
def Plain (lines : List String) : Prop := ∀ line ∈ lines, ¬ UsesDerivatives line

instance (lines : List String) : Decidable (Plain lines) :=
  inferInstanceAs (Decidable (∀ line ∈ lines, ¬ UsesDerivatives line))

private theorem plain_append {lines more : List String} :
    Plain (lines ++ more) ↔ Plain lines ∧ Plain more :=
  List.forall_mem_append

theorem toList_ofLines_cons (line : String) (rest : List String) :
    (ofLines (line :: rest)).toList = line.toList ++ '\n' :: (ofLines rest).toList := by
  simp [ofLines]

private theorem usesDerivatives_ofLines (lines : List String) :
    UsesDerivatives (ofLines lines) ↔ ¬ Plain lines := by
  suffices h : UsesDerivatives (ofLines lines) ↔ ∃ line ∈ lines, UsesDerivatives line by
    rw [h]
    simp [Plain]
  induction lines with
  | nil => decide
  | cons line rest ih =>
    have hseparator : ∀ name ∈ derivatives, '\n' ∉ name.toList := by decide
    simp only [List.exists_mem_cons_iff, ← ih]
    simp only [UsesDerivatives, toList_ofLines_cons, ← exists_or, ← and_or_left]
    exact exists_congr fun name => and_congr_right fun hname =>
      infix_append_cons (hseparator name hname)

section Lines

private theorem not_usesDerivatives_hex (key : Key) : ¬ UsesDerivatives key.hex := by
  have hp : 'p' ∉ key.hex.toList := key.notMem_hex (by decide)
  have hw : 'w' ∉ key.hex.toList := key.notMem_hex (by decide)
  rw [usesDerivatives_iff]
  rintro (hname | hname | hname)
  · exact hp (hname.subset (by decide))
  · exact hp (hname.subset (by decide))
  · exact hw (hname.subset (by decide))

private theorem not_usesDerivatives_color (input : ColorInput) :
    ¬ UsesDerivatives input.expression := by
  cases input <;> decide

private theorem not_usesDerivatives_alpha (input : AlphaInput) :
    ¬ UsesDerivatives input.expression := by
  cases input <;> decide

private theorem plain_heading (key : Key) :
    Plain ["// combiner " ++ key.hex] ∧ Plain ["// passthrough " ++ key.hex] := by
  have hhex := not_usesDerivatives_hex key
  rw [usesDerivatives_iff] at hhex
  simpa [Plain, usesDerivatives_iff, List.infix_cons_iff] using hhex

private theorem plain_preamble (textured : Bool) : Plain (preamble textured) := by
  simp only [preamble, plain_append]
  refine ⟨⟨⟨⟨?_, ?_⟩, ?_⟩, ?_⟩, ?_⟩
  case refine_4 => split <;> decide +kernel
  all_goals decide +kernel

private theorem plain_fragmentStart : Plain fragmentStart := by decide +kernel

private theorem plain_samples (textured : Bool) : Plain (samples textured) := by
  cases textured <;> decide +kernel

private theorem plain_noiseFunction : Plain noiseFunction := by decide +kernel

private theorem plain_variedInputs (accuracy : Accuracy) (capabilities : Capabilities) :
    Plain (variedInputs accuracy capabilities) ↔
      ¬ (accuracy = .accurate ∧ capabilities.includes .shaderDerivatives = true) := by
  cases accuracy with
  | fast =>
    rw [variedInputs]
    simp only [reduceCtorEq, false_and, not_false_iff, iff_true]
    decide
  | accurate =>
    rw [variedInputs]
    cases capabilities.includes .shaderDerivatives <;> decide +kernel

private theorem plain_cycleLines {n : Nat} (hn : n < 2) (color : Cycle ColorInput)
    (alpha : Cycle AlphaInput) : Plain (cycleLines n color alpha) := by
  have hcolor := not_usesDerivatives_color
  have halpha := not_usesDerivatives_alpha
  have hnumber : ¬ UsesDerivatives (toString n) := by interval_cases n <;> decide
  simp only [usesDerivatives_iff, not_or, forall_and] at hcolor halpha hnumber
  simp [Plain, cycleLines, usesDerivatives_iff, formula, infix_append_cons, List.infix_cons_iff,
    hcolor, halpha]
  simpa using hnumber

private theorem plain_activeCycles (key : Key) (stages : Stages) : Plain
    (activeCycles key stages) := by
  rw [activeCycles, plain_append]
  refine ⟨plain_cycleLines (by decide) _ _, ?_⟩
  split
  · exact plain_cycleLines (by decide) _ _
  · decide

private theorem plain_ending (flags : Flags) : Plain (ending flags) := by
  simp only [ending, plain_append]
  refine ⟨⟨⟨⟨by decide, ?_⟩, ?_⟩, ?_⟩, by decide⟩ <;> split <;> decide +kernel

end Lines

/-- The level of detail is the only thing that a program takes derivatives for. -/
theorem usesDerivatives_combine (stages : Stages) (key : Key) (accuracy : Accuracy)
    (capabilities : Capabilities) : UsesDerivatives (combine stages key accuracy capabilities) ↔
      accuracy = .accurate ∧ capabilities.includes .shaderDerivatives = true := by
  have hnoise : Plain (if accuracy = .accurate then noiseFunction else []) := by
    split
    · exact plain_noiseFunction
    · decide
  have hstart : Plain ["  var combined = vec4<f32>(0.0);"] := by decide
  rw [combine, usesDerivatives_ofLines, not_iff_comm, ← plain_variedInputs]
  simp only [opening, plain_append, (plain_heading key).1, plain_preamble, hnoise,
    plain_fragmentStart, plain_samples, hstart, plain_activeCycles, plain_ending, true_and, and_true]

theorem not_usesDerivatives_passThrough (color : Cycles ColorInput) (key : Key) :
    ¬ UsesDerivatives (passThrough color key) := by
  have hstart : Plain [if readsTexel color key then "  var combined = texel0 * shade;"
      else "  var combined = shade;"] := by
    split <;> decide
  rw [passThrough, usesDerivatives_ofLines, not_not]
  simp only [plain_append, (plain_heading key).2, plain_preamble, plain_fragmentStart,
    plain_samples, hstart, plain_ending, and_self]

end Shader

end Combiner

end DisplayPipeline
