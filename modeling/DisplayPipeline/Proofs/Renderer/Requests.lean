import DisplayPipeline.Proofs.DisplayList.Refusal
import DisplayPipeline.Proofs.DisplayList.Timeline
import DisplayPipeline.Proofs.Renderer.Drawing
import DisplayPipeline.Proofs.Texture.Fetching
import Mathlib.Data.List.Induction

namespace DisplayPipeline

namespace PerUnit

variable {α : Type}

private theorem and_one_cases (unit : UInt8) : unit &&& 1 = 0 ∨ unit &&& 1 = 1 := by
  have hbit : (unit &&& 1).toNat = unit.toNat % 2 := by
    rw [UInt8.toNat_and]
    exact Nat.and_one_is_mod _
  rcases Nat.mod_two_eq_zero_or_one unit.toNat with hzero | hone
  · exact Or.inl (UInt8.toNat_inj.mp (hbit.trans hzero))
  · exact Or.inr (UInt8.toNat_inj.mp (hbit.trans hone))

private theorem get_set_of_same (p : PerUnit α) {unit other : UInt8} (h : unit &&& 1 = other &&& 1)
    (a : α) :
    (p.set unit a).get other = a := by
  rw [get, set, ← h]
  split <;> rfl

private theorem get_set_of_ne (p : PerUnit α) {unit other : UInt8} (h : unit &&& 1 ≠ other &&& 1)
    (a : α) :
    (p.set unit a).get other = p.get other := by
  rw [get, get, set]
  rcases and_one_cases unit with hu | hu <;> rcases and_one_cases other with ho | ho <;>
    simp_all

theorem get_both (a : α) (unit : UInt8) : (both a).get unit = a := by
  rw [get, both]
  exact ite_self a

theorem get_map {β : Type} (f : α → β) (p : PerUnit α) (unit : UInt8) :
    (p.map f).get unit = f (p.get unit) := by
  rw [get, get, map]
  split <;> rfl

theorem mem_toList_iff {p : PerUnit α} {a : α} : a ∈ p.toList ↔ ∃ unit, p.get unit = a := by
  rw [toList, List.mem_cons, List.mem_singleton]
  constructor
  · rintro (rfl | rfl)
    · exact ⟨0, rfl⟩
    · exact ⟨1, rfl⟩
  · rintro ⟨unit, rfl⟩
    rw [get]
    split
    · exact Or.inl rfl
    · exact Or.inr rfl

end PerUnit

namespace TextureCache

private theorem key_of_fetch {c : TextureCache} {source : TextureSource} {d : Device}
    {fetched : FetchedTexture} (h : (c.fetch source d).2.2 = .ok fetched) :
    fetched.key = source.key := by
  rcases c.fetch_cases source d with ⟨entry, -, hfetch⟩ | ⟨cause, -, -, hfetch⟩ |
    ⟨rgba, dropped, kept, -, -, -, ⟨fault, -, hfetch⟩ | ⟨-, hfetch⟩⟩ <;> rw [hfetch] at h <;>
    cases h <;> rfl

end TextureCache

/-- What happens to a renderer: a command, or its device gaining and losing features. -/
inductive RenderStep where
  | execute (command : Command)
  | regrade (capabilities : Capabilities)
deriving DecidableEq, Repr

/-- Whether a step asks for a texture on a unit; only the lowest bit of its number counts. -/
def RenderStep.AsksFor (unit : UInt8) : RenderStep → Prop
  | .execute command => ∃ asked, command.textureUnit? = some asked ∧ asked &&& 1 = unit &&& 1
  | .regrade _ => False

namespace Renderer

def after (r : Renderer) : RenderStep → Renderer
  | .execute command => r.execute command
  | .regrade capabilities => { r with device := { r.device with capabilities } }

def afterAll (r : Renderer) (steps : List RenderStep) : Renderer := steps.foldl after r

/-- The texture that a step asks for, unless there are no pixels to make it of. -/
def asked? (r : Renderer) : RenderStep → Option TextureSource
  | .execute (.loadTexture load) => some load.source
  | .execute (.captureColorBuffer capture) =>
    (r.reader.read r.device capture.read).2.map (captureSource capture)
  | _ => none

def triangles (r : Renderer) : RenderStep → List Vertex
  | .execute (.drawTriangles vertices) => vertices
  | .execute (.drawRects rects) =>
    rects.flatMap (rectVertices (Single.ofNat r.screenWidth) (Single.ofNat r.screenHeight))
  | _ => []

/-- The texture that a step asks for can be had, and has a key. -/
def Obtains (r : Renderer) (step : RenderStep) (key : TextureKey) : Prop :=
  ∃ source fetched, r.asked? step = some source ∧
    (r.textures.fetch source r.device).2.2 = .ok fetched ∧ source.key = key

/-- The texture that was asked for last on a unit was had, and has a key. -/
def LastObtained (first : Renderer) (steps : List RenderStep) (unit : UInt8) (key : TextureKey) :
    Prop :=
  ∃ before step since, steps = before ++ step :: since ∧ step.AsksFor unit ∧
    (∀ later ∈ since, ¬ later.AsksFor unit) ∧ (first.afterAll before).Obtains step key

section History

variable {first : Renderer} {steps : List RenderStep} {step : RenderStep} {unit : UInt8}
  {key : TextureKey}

private theorem afterAll_concat (first : Renderer) (steps : List RenderStep) (step : RenderStep) :
    first.afterAll (steps ++ [step]) = (first.afterAll steps).after step := by
  rw [afterAll, List.foldl_append]
  rfl

private theorem lastObtained_concat_of_asks (h : step.AsksFor unit) :
    LastObtained first (steps ++ [step]) unit key ↔ (first.afterAll steps).Obtains step key := by
  constructor
  · rintro ⟨before, asking, since, hsplit, -, hquiet, hobtains⟩
    rcases split_concat hsplit with ⟨rfl, rfl, -⟩ | ⟨rest, rfl, -⟩
    · exact hobtains
    · exact absurd h (hquiet step (List.mem_append_right _ (.head _)))
  · intro hobtains
    exact ⟨steps, step, [], rfl, h, nofun, hobtains⟩

private theorem lastObtained_concat_of_not (h : ¬ step.AsksFor unit) :
    LastObtained first (steps ++ [step]) unit key ↔ LastObtained first steps unit key := by
  constructor
  · rintro ⟨before, asking, since, hsplit, hasks, hquiet, hobtains⟩
    rcases split_concat hsplit with ⟨-, rfl, -⟩ | ⟨rest, rfl, rfl⟩
    · exact absurd hasks h
    · exact ⟨before, asking, rest, rfl, hasks,
        fun later hlater => hquiet later (List.mem_append_left _ hlater), hobtains⟩
  · rintro ⟨before, asking, since, rfl, hasks, hquiet, hobtains⟩
    refine ⟨before, asking, since ++ [step], by simp, hasks, fun later hlater => ?_, hobtains⟩
    rcases List.mem_append.mp hlater with hlater | hlater
    · exact hquiet later hlater
    · rw [List.mem_singleton.mp hlater]
      exact h

end History

section Binding

variable {r : Renderer} {step : RenderStep} {unit : UInt8} {key : TextureKey}

/-- A texture is bound if it could be fetched, and nothing is drawn. -/
theorem bindSource_eq (r : Renderer) (unit : UInt8) (source : TextureSource) :
    ∃ tally events, r.bindSource unit source =
        { r with
          textures := (r.textures.fetch source r.device).1
          device := (r.textures.fetch source r.device).2.1
          bound := r.bound.set unit
            ((r.textures.fetch source r.device).2.2.toOption.map fun _ => source.key)
          tally
          events } ∧
      tally.skippedDraws = r.tally.skippedDraws ∧
      ∀ cause, .drawRejected cause ∈ events → .drawRejected cause ∈ r.events := by
  rw [bindSource, fetch]
  cases hfetch : r.textures.fetch source r.device with
  | mk textures rest =>
    obtain ⟨device, reply⟩ := rest
    cases reply with
    | error cause => exact ⟨_, _, rfl, rfl, fun cause hcause => by simpa using hcause⟩
    | ok fetched =>
      have hkey : fetched.key = source.key := TextureCache.key_of_fetch (by rw [hfetch])
      simp only [hkey]
      refine ⟨_, _, rfl, ?_, fun cause hcause => hcause⟩
      split <;> rfl

private theorem bound_bindSource (r : Renderer) (unit : UInt8) (source : TextureSource) :
    (r.bindSource unit source).bound = r.bound.set unit
      ((r.textures.fetch source r.device).2.2.toOption.map fun _ => source.key) := by
  obtain ⟨tally, events, hbind, -⟩ := r.bindSource_eq unit source
  rw [hbind]

private theorem bound_draw (r : Renderer) (vertices : List Vertex) :
    (r.draw vertices).bound = r.bound := by
  obtain ⟨programs, device, tally, events, hdraw⟩ := r.draw_keeps vertices
  rw [hdraw]

private theorem get_bound_of_asks (h : step.AsksFor unit) :
    (r.after step).bound.get unit = some key ↔ r.Obtains step key := by
  have hhad (source : TextureSource) :
      ((r.textures.fetch source r.device).2.2.toOption.map fun _ => source.key) = some key ↔
        ∃ fetched, (r.textures.fetch source r.device).2.2 = .ok fetched ∧ source.key = key := by
    cases (r.textures.fetch source r.device).2.2 <;> simp [Except.toOption]
  cases step with
  | regrade capabilities => exact absurd h id
  | execute command =>
    obtain ⟨asked, hasked, hsame⟩ := h
    cases command with
    | loadTexture load =>
      cases hasked
      rw [after, execute, bound_bindSource, PerUnit.get_set_of_same _ hsame, hhad]
      simp [Obtains, asked?]
    | captureColorBuffer capture =>
      cases hasked
      rw [after, execute, Renderer.capture, Obtains, asked?]
      cases hread : r.reader.read r.device capture.read with
      | mk reader bytes =>
        cases bytes with
        | none =>
          simp only [PerUnit.get_set_of_same _ hsame]
          simp
        | some bytes =>
          simp only [bound_bindSource, PerUnit.get_set_of_same _ hsame, hhad]
          simp
    | setCombine | setOtherModes | setColors | invalidateRange | drawTriangles | drawRects
    | fillRects | endFrame => cases hasked

theorem get_bound_of_not (h : ¬ step.AsksFor unit) :
    (r.after step).bound.get unit = r.bound.get unit := by
  cases step with
  | regrade capabilities => rfl
  | execute command =>
    cases command with
    | loadTexture load =>
      rw [after, execute, bound_bindSource]
      exact PerUnit.get_set_of_ne _ (fun hsame => h ⟨_, rfl, hsame⟩) _
    | captureColorBuffer capture =>
      have hother : capture.unit &&& 1 ≠ unit &&& 1 := fun hsame => h ⟨_, rfl, hsame⟩
      rw [after, execute, Renderer.capture]
      cases hread : r.reader.read r.device capture.read with
      | mk reader bytes =>
        cases bytes with
        | none => exact PerUnit.get_set_of_ne _ hother _
        | some bytes =>
          simp only [bound_bindSource]
          exact PerUnit.get_set_of_ne _ hother _
    | drawTriangles vertices => exact congrArg (·.get unit) (r.bound_draw _)
    | drawRects rects => exact congrArg (·.get unit) (r.bound_draw _)
    | setCombine | setOtherModes | setColors | invalidateRange | fillRects | endFrame => rfl

/-- What is bound to a unit is what was asked for last on it. -/
theorem get_bound_afterAll {first : Renderer} (hfresh : first.bound = .both none)
    (steps : List RenderStep) :
    (first.afterAll steps).bound.get unit = some key ↔ LastObtained first steps unit key := by
  induction steps using List.reverseRecOn with
  | nil =>
    have hnone : (first.afterAll []).bound.get unit = none := by
      rw [afterAll, List.foldl_nil, hfresh, PerUnit.get_both]
    rw [hnone]
    refine iff_of_false nofun ?_
    rintro ⟨before, step, since, hsplit, -⟩
    simp at hsplit
  | append_singleton steps step ih =>
    rw [afterAll_concat]
    by_cases hasks : step.AsksFor unit
    · rw [get_bound_of_asks hasks, lastObtained_concat_of_asks hasks]
    · rw [get_bound_of_not hasks, lastObtained_concat_of_not hasks, ih]

theorem not_asksFor_of_triangles (h : r.triangles step ≠ []) : ¬ step.AsksFor unit := by
  cases step with
  | regrade capabilities => exact id
  | execute command =>
    rintro ⟨asked, hasked, -⟩
    cases command with
    | loadTexture | captureColorBuffer => exact h rfl
    | setCombine | setOtherModes | setColors | invalidateRange | drawTriangles | drawRects
    | fillRects | endFrame => cases hasked

end Binding

end Renderer

end DisplayPipeline
