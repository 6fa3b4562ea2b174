import DisplayPipeline.Proofs.Combiner.ProgramText
import Mathlib.Data.List.Nodup

/-!
# Programs of different expressions differ

Expressions of inputs are single words without blanks, and no two inputs are spelled alike. So a
formula is taken apart at its blanks, a text is taken apart at its line breaks, and a program tells
the cycles that its key makes active. A cycle that is not active leaves no trace.
-/

namespace DisplayPipeline

/-- The first separator tells where a word ends. -/
theorem append_separator_inj {α : Type} {word other rest otherRest : List α} {separator : α}
    (h : separator ∉ word) (hother : separator ∉ other) :
    word ++ separator :: rest = other ++ separator :: otherRest ↔
      word = other ∧ rest = otherRest := by
  refine ⟨fun hsame => ?_, fun ⟨hword, hrest⟩ => by rw [hword, hrest]⟩
  induction word generalizing other with
  | nil =>
    cases other with
    | nil => exact ⟨rfl, (List.cons.inj hsame).2⟩
    | cons d other => exact absurd (List.cons.inj hsame).1 (List.ne_of_not_mem_cons hother)
  | cons c word ih =>
    cases other with
    | nil => exact absurd (List.cons.inj hsame).1.symm (List.ne_of_not_mem_cons h)
    | cons d other =>
      obtain ⟨hhead, htail⟩ := List.cons.inj hsame
      obtain ⟨hword, hrest⟩ := ih (List.not_mem_of_not_mem_cons h)
        (List.not_mem_of_not_mem_cons hother) htail
      exact ⟨by rw [hhead, hword], hrest⟩

namespace Combiner

/-- A text that is one word of one line. -/
def IsWord (text : String) : Prop := ' ' ∉ text.toList ∧ '\n' ∉ text.toList

instance (text : String) : Decidable (IsWord text) :=
  inferInstanceAs (Decidable (' ' ∉ text.toList ∧ '\n' ∉ text.toList))

namespace ColorInput

private def all : List ColorInput :=
  [combined, texel0, texel1, primitive, shade, environment, one, noise, zero, keyCenter, k4,
    keyScale, combinedAlpha, texel0Alpha, texel1Alpha, primitiveAlpha, shadeAlpha,
    environmentAlpha, lodFraction, primitiveLodFraction, k5]

private theorem mem_all (input : ColorInput) : input ∈ all := by
  cases input <;> decide

private theorem isWord_expression (input : ColorInput) : IsWord input.expression := by
  cases input <;> decide

private theorem expression_injective : Function.Injective expression := fun input other =>
  List.inj_on_of_nodup_map (by decide +kernel) (mem_all input) (mem_all other)

end ColorInput

namespace AlphaInput

private def all : List AlphaInput :=
  [combined, texel0, texel1, primitive, shade, environment, one, zero, lodFraction,
    primitiveLodFraction]

private theorem mem_all (input : AlphaInput) : input ∈ all := by
  cases input <;> decide

private theorem isWord_expression (input : AlphaInput) : IsWord input.expression := by
  cases input <;> decide

private theorem expression_injective : Function.Injective expression := fun input other =>
  List.inj_on_of_nodup_map (by decide +kernel) (mem_all input) (mem_all other)

end AlphaInput

namespace Shader

section Formulas

variable {α : Type} {expression : α → String}

private theorem toList_formula (expression : α → String) (cycle : Cycle α) :
    (formula expression cycle).toList =
      ('(' :: (expression cycle.a).toList) ++ ' ' :: '-' :: ' ' ::
        (((expression cycle.b).toList ++ [')']) ++ ' ' :: '*' :: ' ' ::
          ((expression cycle.c).toList ++ ' ' :: '+' :: ' ' :: (expression cycle.d).toList)) := by
  simp [formula]

private theorem formula_injective (hexpression : Function.Injective expression)
    (hwords : ∀ input, IsWord (expression input)) :
    Function.Injective (formula expression) := by
  intro cycle other h
  have hblank : ∀ input, ' ' ∉ (expression input).toList := fun input => (hwords input).1
  have hfirst : ∀ input, ' ' ∉ '(' :: (expression input).toList := by simp [hblank]
  have hsecond : ∀ input, ' ' ∉ (expression input).toList ++ [')'] := by simp [hblank]
  have hinput : ∀ input input', (expression input).toList = (expression input').toList →
      input = input' :=
    fun input input' hsame => hexpression (String.toList_inj.mp hsame)
  have htext := congrArg String.toList h
  rw [toList_formula, toList_formula, append_separator_inj (hfirst _) (hfirst _)] at htext
  obtain ⟨ha, htext⟩ := htext
  simp only [List.cons.injEq, true_and] at ha htext
  rw [append_separator_inj (hsecond _) (hsecond _)] at htext
  obtain ⟨hb, htext⟩ := htext
  simp only [List.cons.injEq, true_and, List.append_cancel_right_eq] at hb htext
  rw [append_separator_inj (hblank _) (hblank _)] at htext
  obtain ⟨hc, htext⟩ := htext
  simp only [List.cons.injEq, true_and] at htext
  cases cycle
  cases other
  rw [Cycle.mk.injEq]
  exact ⟨hinput _ _ ha, hinput _ _ hb, hinput _ _ hc, hinput _ _ htext⟩

private theorem newline_notMem_formula (hwords : ∀ input, IsWord (expression input))
    (cycle : Cycle α) :
    '\n' ∉ (formula expression cycle).toList := by
  have hline : ∀ input, '\n' ∉ (expression input).toList := fun input => (hwords input).2
  simp [toList_formula, hline]

end Formulas

section Lines

def Unbroken (lines : List String) : Prop := ∀ line ∈ lines, '\n' ∉ line.toList

private theorem ofLines_append (lines more : List String) :
    ofLines (lines ++ more) = ofLines lines ++ ofLines more := by
  rw [ofLines, List.map_append, String.join_append]
  rfl

private theorem ofLines_cons_ne (line : String) (rest : List String) : ofLines
    (line :: rest) ≠ "" := by
  intro h
  have htext := congrArg String.toList h
  rw [toList_ofLines_cons] at htext
  exact List.append_ne_nil_of_right_ne_nil _ (List.cons_ne_nil _ _) htext

private theorem ofLines_inj {lines others : List String} (h : Unbroken lines)
    (hothers : Unbroken others) :
    ofLines lines = ofLines others ↔ lines = others := by
  refine ⟨fun hsame => ?_, congrArg ofLines⟩
  induction lines generalizing others with
  | nil =>
    cases others with
    | nil => rfl
    | cons other others => exact absurd hsame.symm (ofLines_cons_ne other others)
  | cons line lines ih =>
    cases others with
    | nil => exact absurd hsame (ofLines_cons_ne line lines)
    | cons other others =>
      obtain ⟨hfirst, hlines⟩ := List.forall_mem_cons.mp h
      obtain ⟨hotherFirst, hotherLines⟩ := List.forall_mem_cons.mp hothers
      have htext := congrArg String.toList hsame
      rw [toList_ofLines_cons, toList_ofLines_cons,
        append_separator_inj hfirst hotherFirst] at htext
      obtain ⟨hline, hrest⟩ := htext
      rw [String.toList_inj.mp hline, ih hlines hotherLines (String.toList_inj.mp hrest)]

private theorem newline_notMem_toString (n : Nat) : '\n' ∉ (toString n).toList := by
  intro h
  rw [Nat.toString_eq_repr, Nat.repr_eq_ofList_toDigits, String.toList_ofList] at h
  exact absurd (Nat.isDigit_of_mem_toDigits (by decide) (by decide) h) (by decide)

private theorem unbroken_cycleLines (n : Nat) (color : Cycle ColorInput)
    (alpha : Cycle AlphaInput) :
    Unbroken (cycleLines n color alpha) := by
  have hcolor := newline_notMem_formula ColorInput.isWord_expression color
  have halpha := newline_notMem_formula AlphaInput.isWord_expression alpha
  have hnumber := newline_notMem_toString n
  simpa [Unbroken, cycleLines, hcolor, halpha] using hnumber

private theorem cycleLines_inj {n : Nat} {color color' : Cycle ColorInput}
    {alpha alpha' : Cycle AlphaInput} :
    cycleLines n color alpha = cycleLines n color' alpha' ↔ color = color' ∧ alpha = alpha' := by
  have hcolor := formula_injective ColorInput.expression_injective ColorInput.isWord_expression
  have halpha := formula_injective AlphaInput.expression_injective AlphaInput.isWord_expression
  simp only [cycleLines, List.cons.injEq, and_true, String.append_left_inj,
    String.append_right_inj, hcolor.eq_iff, halpha.eq_iff]

private theorem activeCycles_inj (key : Key) (stages others : Stages) :
    activeCycles key stages = activeCycles key others ↔
      (stages.color.first = others.color.first ∧ stages.alpha.first = others.alpha.first) ∧
        (key.isTwoCycle = true →
          stages.color.second = others.color.second ∧
            stages.alpha.second = others.alpha.second) := by
  constructor
  · intro h
    obtain ⟨hfirst, hsecond⟩ := List.append_inj h rfl
    refine ⟨cycleLines_inj.mp hfirst, fun htwo => ?_⟩
    rw [if_pos htwo, if_pos htwo] at hsecond
    exact cycleLines_inj.mp hsecond
  · rintro ⟨⟨hcolor, halpha⟩, hsecond⟩
    rw [activeCycles, activeCycles, hcolor, halpha]
    cases htwo : key.isTwoCycle with
    | false => rfl
    | true => rw [(hsecond htwo).1, (hsecond htwo).2]

private theorem unbroken_activeCycles (key : Key) (stages : Stages) :
    Unbroken (activeCycles key stages) := by
  intro line hline
  rw [activeCycles, List.mem_append] at hline
  rcases hline with hline | hline
  · exact unbroken_cycleLines _ _ _ line hline
  · split at hline
    · exact unbroken_cycleLines _ _ _ line hline
    · cases hline

end Lines

/-- Programs of the same key and settings are the same text exactly if the active cycles of their
stages are the same. -/
theorem combine_tellsCycles (key : Key) (accuracy : Accuracy) (capabilities : Capabilities)
    (stages others : Stages) :
    combine stages key accuracy capabilities = combine others key accuracy capabilities ↔
      (stages.color.first = others.color.first ∧ stages.alpha.first = others.alpha.first) ∧
        (key.isTwoCycle = true →
          stages.color.second = others.color.second ∧
            stages.alpha.second = others.alpha.second) := by
  simp only [combine, ofLines_append, String.append_left_inj, String.append_right_inj]
  rw [ofLines_inj (unbroken_activeCycles key stages) (unbroken_activeCycles key others),
    activeCycles_inj]

end Shader

end Combiner

end DisplayPipeline
