import DisplayPipeline.Proofs.Combiner.LivePrograms
import DisplayPipeline.Proofs.Renderer.Requests
import DisplayPipeline.Proofs.Texture.Holdings

/-!
# Draws name what is live

A renderer remembers textures by key and looks up their handles at each draw, and it makes programs
anew where the table was cleared. So whatever commands it carries out, and whichever features its
device gains or loses meanwhile, a draw names a live program of the current key and, on each unit,
the live texture of the last request, as long as the cache has it. The device refuses no draw.
-/

namespace DisplayPipeline

namespace Device

def SameBesideTextures (d after : Device) : Prop :=
  after = { d with textures := after.textures, nextTexture := after.nextTexture }

theorem SameBesideTextures.keeps {α : Type} {d after : Device} (h : d.SameBesideTextures after)
    (look : Device → α)
    (hlook : ∀ textures next, look { d with textures, nextTexture := next } = look d) :
    look after = look d := by
  rw [h]
  exact hlook _ _

private theorem releaseAll_sameBesideTextures (d : Device) (entries : List CachedTexture) :
    d.SameBesideTextures (d.releaseAll entries) := by
  rw [releaseAll_eq]
  rfl

theorem fill_eq (d : Device) (rects : List FillRect) :
    rects.foldl fill d = { d with target := (rects.foldl fill d).target } := by
  induction rects generalizing d with
  | nil => rfl
  | cons rect rects ih => exact ih (d.fill rect)

theorem present_eq (d : Device) :
    ∃ shown frame, d.present = ({ d with framesShown := shown }, frame) := by
  rw [present]
  split
  · exact ⟨d.framesShown, none, rfl⟩
  · exact ⟨_, _, rfl⟩

private theorem draw_of_live {d : Device} {draw : Draw} (hfaults : d.faults.draws = false)
    (hprogram : (d.label? draw.program).isSome)
    (htextures : ∀ unit handle, draw.textures.get unit = some handle → (d.texture? handle).isSome) :
    d.draw draw = ({ d with draws := d.draws.push draw }, .ok ()) := by
  have hsound : d.drawFault? draw = none := by
    rw [drawFault?, hfaults, if_neg Bool.false_ne_true,
      if_neg (by simpa [← Option.isSome_iff_ne_none] using hprogram), List.findSome?_eq_none_iff]
    intro handle hhandle
    obtain ⟨slot, hslot, hsome⟩ := List.mem_filterMap.mp hhandle
    obtain ⟨unit, hunit⟩ := PerUnit.mem_toList_iff.mp hslot
    have hlive := htextures unit handle (hunit.trans hsome)
    exact if_neg (by simpa [← Option.isSome_iff_ne_none] using hlive)
  rw [Device.draw, hsound]

end Device

namespace TextureCache

theorem fetch_sameBesideTextures (c : TextureCache) (source : TextureSource) (d : Device) :
    d.SameBesideTextures (c.fetch source d).2.1 := by
  rcases c.fetch_cases source d with ⟨entry, -, hfetch⟩ | ⟨cause, -, -, hfetch⟩ |
    ⟨rgba, dropped, kept, -, -, -, ⟨fault, -, hfetch⟩ | ⟨-, hfetch⟩⟩
  · rw [hfetch]
    rfl
  · rw [hfetch]
    rfl
  · rw [hfetch]
    exact d.releaseAll_sameBesideTextures dropped
  · rw [hfetch]
    dsimp only
    rw [d.releaseAll_sameBesideTextures dropped]
    rfl

theorem invalidate_sameBesideTextures (c : TextureCache) (range : Span) (d : Device) :
    d.SameBesideTextures (c.invalidate range d).2.1 := by
  rw [invalidate]
  split
  · rfl
  · exact d.releaseAll_sameBesideTextures _

end TextureCache

namespace Holdings

variable {spec : TextureCacheSpec} {c : TextureCache} {d : Device}

private theorem fetch (h : Holdings spec c d) (source : TextureSource) :
    Holdings spec (c.fetch source d).1 (c.fetch source d).2.1 :=
  (TextureStock.holdings_fetch (s := ⟨c, d⟩) h source).1

private theorem invalidate (h : Holdings spec c d) (range : Span) :
    Holdings spec (c.invalidate range d).1 (c.invalidate range d).2.1 :=
  (TextureStock.holdings_serve (s := ⟨c, d⟩) h (.invalidate range)).1

private theorem congr (h : Holdings spec c d) {after : Device}
    (htextures : after.textures = d.textures)
    (hnext : after.nextTexture = d.nextTexture) : Holdings spec c after where
  held :=
    { h.held with
      live := htextures ▸ h.held.live
      issued := hnext ▸ h.held.issued }
  budget := h.budget
  maxEntries := h.maxEntries
  bytes := h.bytes
  fits := h.fits
  slots := h.slots
  clock := h.clock
  fetches := h.fetches

/-- The handle of an entry is live and names the entry's pixels. -/
theorem texture?_of_mem (h : Holdings spec c d) {e : CachedTexture} (he : e ∈ c.entries) :
    d.texture? e.handle = some ⟨e.key.width.toNat, e.key.height.toNat, e.rgba⟩ := by
  have hmem : e.onDevice ∈ d.textures := h.held.live.mem_iff.mpr (List.mem_map_of_mem he)
  have hnodup : (d.textures.map Prod.fst).Nodup := by
    rw [(h.held.live.map Prod.fst).nodup_iff, List.map_map]
    exact h.held.handles
  obtain ⟨before, after, hsplit⟩ := List.append_of_mem hmem
  rw [Device.texture?, List.lookup_eq_some_iff]
  refine ⟨before, after, hsplit, fun t ht => ?_⟩
  rw [hsplit, List.map_append, List.nodup_append] at hnodup
  obtain ⟨-, -, hapart⟩ := hnodup
  rw [bne_iff_ne]
  exact (hapart _ (List.mem_map_of_mem ht) _ (.head _)).symm

end Holdings

namespace Renderer

open Combiner.Programs

variable {spec : TextureCacheSpec} {r : Renderer} {unit : UInt8}

private theorem currentTextures_eq_some_iff {handle : TextureHandle} :
    r.currentTextures.get unit = some handle ↔ r.key.isTextured = true ∧
      ∃ key entry, r.bound.get unit = some key ∧ r.textures.find? key = some entry ∧
        entry.handle = handle := by
  rw [currentTextures]
  split
  · rename_i htextured
    rw [PerUnit.get_map]
    simp [htextured, Option.bind_eq_some_iff]
  · rename_i hplain
    rw [PerUnit.get_both]
    simp [hplain]

private theorem currentTextures_eq_none_iff :
    r.currentTextures.get unit = none ↔ r.key.isTextured = false ∨
      ∀ key, r.bound.get unit = some key → r.textures.find? key = none := by
  rw [currentTextures]
  split
  · rename_i htextured
    rw [PerUnit.get_map]
    simp [htextured, Option.bind_eq_none_iff]
  · rename_i hplain
    rw [PerUnit.get_both]
    simp [hplain]

/-- A handle is that of the current key's program, which is live and uses no feature that the device
was last known to lack. -/
def HasProgram (r : Renderer) (handle : ProgramHandle) : Prop :=
  ∃ q ∈ r.programs.table, q.key = r.key ∧ LiveOn r.device q handle ∧
    MadeFor r.programs.accuracy r.programs.capabilities q

/-- What a renderer keeps up on a device that compiles every main program and rejects no draw of live
handles. -/
structure InOrder (spec : TextureCacheSpec) (r : Renderer) : Prop where
  textures : Holdings spec r.textures r.device
  programs : r.programs.Compiled r.device
  compiles : ∀ key, r.device.faults.refuses (label key) = false
  accepts : r.device.faults.draws = false
  unskipped : r.tally.skippedDraws = 0
  unrejected : ∀ cause, .drawRejected cause ∉ r.events

namespace InOrder

private theorem retexture (h : r.InOrder spec) {after : Renderer}
    (htextures : Holdings spec after.textures after.device)
    (hdevice : r.device.SameBesideTextures after.device) (hprograms : after.programs = r.programs)
    (hskipped : after.tally.skippedDraws = r.tally.skippedDraws)
    (hevents : ∀ cause, .drawRejected cause ∈ after.events → .drawRejected cause ∈ r.events) :
    after.InOrder spec where
  textures := htextures
  programs := by
    rw [hprograms]
    exact h.programs.congr (hdevice.keeps Device.programs fun _ _ => rfl)
      (hdevice.keeps Device.nextProgram fun _ _ => rfl)
  compiles := by
    rw [hdevice.keeps Device.faults fun _ _ => rfl]
    exact h.compiles
  accepts := (hdevice.keeps (·.faults.draws) fun _ _ => rfl).trans h.accepts
  unskipped := hskipped.trans h.unskipped
  unrejected cause hcause := h.unrejected cause (hevents cause hcause)

private theorem bindSource (h : r.InOrder spec) (unit : UInt8) (source : TextureSource) :
    (r.bindSource unit source).InOrder spec := by
  obtain ⟨tally, events, hbind, hskipped, hevents⟩ := r.bindSource_eq unit source
  rw [hbind]
  exact h.retexture (h.textures.fetch source) (r.textures.fetch_sameBesideTextures source r.device)
    rfl hskipped hevents

private theorem capture (h : r.InOrder spec) (capture : ColorCapture) :
    (r.capture capture).InOrder spec := by
  rw [Renderer.capture]
  cases hread : r.reader.read r.device capture.read with
  | mk reader bytes =>
    cases bytes with
    | none => exact ⟨h.textures, h.programs, h.compiles, h.accepts, h.unskipped, h.unrejected⟩
    | some bytes =>
      refine InOrder.bindSource ?_ _ _
      exact ⟨h.textures, h.programs, h.compiles, h.accepts, h.unskipped, h.unrejected⟩

private theorem currentProgram (h : r.InOrder spec) :
    ∃ ready handle, r.currentProgram = (ready, some handle) ∧ ready.InOrder spec ∧
      ready.HasProgram handle ∧ ready.device.draws = r.device.draws := by
  obtain ⟨programs, device, q, hbuild, hbuilt⟩ := h.programs.build (h.compiles r.key)
  obtain ⟨handle, hlive⟩ := hbuilt.compiled.live q hbuilt.listed
  have hdevice := hbuilt.device
  have hprogram : MadeFor programs.accuracy programs.capabilities q :=
    hbuilt.compiled.made hbuilt.current q hbuilt.listed
  rw [Renderer.currentProgram, hbuild]
  dsimp only
  rw [hlive.owned]
  refine ⟨_, handle, rfl, ⟨?_, hbuilt.compiled, ?_, ?_, h.unskipped, ?_⟩, ?_, ?_⟩
  · exact h.textures.congr (hdevice.keeps Device.textures fun _ _ => rfl)
      (hdevice.keeps Device.nextTexture fun _ _ => rfl)
  · dsimp only
    rw [hdevice.keeps Device.faults fun _ _ => rfl]
    exact h.compiles
  · exact (hdevice.keeps (·.faults.draws) fun _ _ => rfl).trans h.accepts
  · simpa using h.unrejected
  · exact ⟨q, hbuilt.listed, hbuilt.key, hlive, hprogram⟩
  · exact hdevice.keeps Device.draws fun _ _ => rfl

/-- The device takes a draw down, which names what is live. -/
theorem draw (h : r.InOrder spec) {vertices : List Vertex} (hsome : vertices ≠ []) :
    (r.draw vertices).InOrder spec ∧ ∃ draw,
      (r.draw vertices).device.draws = r.device.draws.push draw ∧ draw.vertices = vertices ∧
      draw.textures = (r.draw vertices).currentTextures ∧
      (r.draw vertices).HasProgram draw.program := by
  obtain ⟨ready, handle, hcurrent, hready, hprogram, hdraws⟩ := h.currentProgram
  have htextures (unit : UInt8) (texture : TextureHandle)
      (htexture : ready.currentTextures.get unit = some texture) :
      (ready.device.texture? texture).isSome := by
    obtain ⟨-, key, entry, -, hfound, rfl⟩ := currentTextures_eq_some_iff.mp htexture
    rw [hready.textures.texture?_of_mem (List.mem_of_find?_eq_some hfound)]
    rfl
  obtain ⟨q, hlisted, hkey, hlive, hmade⟩ := hprogram
  have hlabel : (ready.device.label? handle).isSome := by
    rw [hlive.labelled]
    rfl
  have hdrawn : ready.device.draw (ready.drawOf handle vertices) = _ :=
    Device.draw_of_live hready.accepts hlabel htextures
  rw [draw_drawWith (by simpa using hsome) hcurrent, drawWith_ok hdrawn, ← hdraws]
  refine ⟨⟨?_, ?_, hready.compiles, hready.accepts, hready.unskipped, hready.unrejected⟩,
    ready.drawOf handle vertices, rfl, rfl, rfl, q, hlisted, hkey,
    ⟨hlive.main, hlive.owned, hlive.labelled⟩, hmade⟩
  · exact hready.textures.congr rfl rfl
  · exact hready.programs.congr rfl rfl

private theorem draw_after (h : r.InOrder spec) {step : RenderStep}
    (hsome : r.triangles step ≠ []) :
    ∃ draw, (r.after step).device.draws = r.device.draws.push draw ∧
      draw.vertices = r.triangles step ∧ draw.textures = (r.after step).currentTextures ∧
      (r.after step).HasProgram draw.program := by
  cases step with
  | regrade capabilities => exact absurd rfl hsome
  | execute command =>
    cases command with
    | drawTriangles vertices => exact (h.draw hsome).2
    | drawRects rects => exact (h.draw hsome).2
    | setCombine | setOtherModes | setColors | loadTexture | invalidateRange | captureColorBuffer
    | fillRects | endFrame => exact absurd rfl hsome

private theorem execute (h : r.InOrder spec) (command : Command) :
    (r.execute command).InOrder spec := by
  have hdraw (vertices : List Vertex) : (r.draw vertices).InOrder spec := by
    by_cases hsome : vertices = []
    · rw [draw_empty (by simp [hsome])]
      exact h
    · exact (h.draw hsome).1
  cases command with
  | loadTexture load => exact h.bindSource load.unit load.source
  | captureColorBuffer capture => exact h.capture capture
  | drawTriangles vertices => exact hdraw _
  | drawRects rects => exact hdraw _
  | setCombine | setOtherModes | setColors =>
    exact ⟨h.textures, h.programs, h.compiles, h.accepts, h.unskipped, h.unrejected⟩
  | invalidateRange address length =>
    exact h.retexture (h.textures.invalidate _)
      (r.textures.invalidate_sameBesideTextures (.ofLength address length) r.device) rfl rfl
      fun _ hcause => hcause
  | fillRects rects =>
    rw [Renderer.execute, fill, Device.fill_eq]
    exact ⟨h.textures.congr rfl rfl, h.programs.congr rfl rfl, h.compiles, h.accepts, h.unskipped,
      h.unrejected⟩
  | endFrame =>
    obtain ⟨shown, frame, hpresent⟩ := r.device.present_eq
    have hprograms := h.programs.setCapabilities r.device.capabilities
    rw [Renderer.execute, endFrame, hpresent]
    exact ⟨h.textures.congr rfl rfl, hprograms.congr rfl rfl, h.compiles, h.accepts, h.unskipped,
      h.unrejected⟩

private theorem after (h : r.InOrder spec) (step : RenderStep) : (r.after step).InOrder spec := by
  cases step with
  | execute command => exact h.execute command
  | regrade capabilities =>
    exact ⟨h.textures.congr rfl rfl, h.programs.congr rfl rfl, h.compiles, h.accepts, h.unskipped,
      h.unrejected⟩

end InOrder

private theorem draws_bindSource (r : Renderer) (unit : UInt8) (source : TextureSource) :
    (r.bindSource unit source).device.draws = r.device.draws := by
  obtain ⟨tally, events, hbind, -⟩ := r.bindSource_eq unit source
  rw [hbind]
  exact (r.textures.fetch_sameBesideTextures source r.device).keeps Device.draws fun _ _ => rfl

private theorem draws_after_of_nil {step : RenderStep} (h : r.triangles step = []) :
    (r.after step).device.draws = r.device.draws := by
  cases step with
  | regrade capabilities => rfl
  | execute command =>
    cases command with
    | loadTexture load => exact r.draws_bindSource load.unit load.source
    | captureColorBuffer capture =>
      rw [after, Renderer.execute, Renderer.capture]
      cases hread : r.reader.read r.device capture.read with
      | mk reader bytes =>
        cases bytes with
        | none => rfl
        | some bytes => exact draws_bindSource _ _ _
    | drawTriangles vertices =>
      rw [after, Renderer.execute, draw_empty (by simpa [triangles] using h)]
    | drawRects rects =>
      rw [after, Renderer.execute, draw_empty (by simpa [triangles] using h)]
    | invalidateRange address length =>
      exact (r.textures.invalidate_sameBesideTextures (.ofLength address length) r.device).keeps
        Device.draws fun _ _ => rfl
    | fillRects rects =>
      rw [after, Renderer.execute, fill, Device.fill_eq]
    | endFrame =>
      obtain ⟨shown, frame, hpresent⟩ := r.device.present_eq
      rw [after, Renderer.execute, endFrame, hpresent]
    | setCombine | setOtherModes | setColors => rfl

section Runs

variable {first : Renderer} {spec : RendererSpec} {device : DeviceSpec} {faults : Faults}

private theorem inOrder_ofSpec
    (hstart : ofSpec spec { Device.ofSpec device with faults } = .ok first)
    (hcompiles : ∀ key, faults.refuses (label key) = false) (hdraws : faults.draws = false) :
    first.InOrder spec.textures ∧ first.bound = .both none := by
  cases htextures : TextureCache.ofSpec spec.textures with
  | error cause =>
    rw [ofSpec, htextures] at hstart
    cases hstart
  | ok textures =>
    have hstock : TextureStock.ofSpec spec.textures device = .ok ⟨textures, .ofSpec device⟩ := by
      rw [TextureStock.ofSpec, htextures]
      rfl
    obtain ⟨hholdings, -⟩ := TextureStock.holdings_ofSpec hstock
    rw [ofSpec, htextures] at hstart
    cases hstart
    exact ⟨⟨hholdings.congr rfl rfl, .of_nil rfl rfl, hcompiles, hdraws, rfl, by simp⟩, rfl⟩

private theorem inOrder_afterAll {spec : TextureCacheSpec} (h : first.InOrder spec)
    (steps : List RenderStep) : (first.afterAll steps).InOrder spec := by
  induction steps generalizing first with
  | nil => exact h
  | cons step steps ih => exact ih (h.after step)

/-- What a draw names is live: the program of the renderer's key, and on each unit the texture that
was asked for last, if the key samples textures, that texture was had, and it is still cached. -/
structure NamesLive (first : Renderer) (steps : List RenderStep) (r : Renderer) (draw : Draw) :
    Prop where
  program : r.HasProgram draw.program
  texture : ∀ unit handle, draw.textures.get unit = some handle ↔ r.key.isTextured = true ∧
    ∃ key entry, LastObtained first steps unit key ∧ r.textures.find? key = some entry ∧
      entry.handle = handle
  noTexture : ∀ unit, draw.textures.get unit = none ↔ r.key.isTextured = false ∨
    ∀ key, LastObtained first steps unit key → r.textures.find? key = none
  live : ∀ key entry, r.textures.find? key = some entry →
    r.device.texture? entry.handle = some ⟨key.width.toNat, key.height.toNat, entry.rgba⟩

/-- Over a device that compiles every main program and rejects no draw of live handles, a renderer
skips no draw. Each step that draws any triangles has them drawn, and all that the draw names is
live. -/
theorem afterAll_namesLive
    (hstart : ofSpec spec { Device.ofSpec device with faults } = .ok first)
    (hcompiles : ∀ key, faults.refuses (label key) = false) (hdraws : faults.draws = false)
    (steps : List RenderStep) :
    let r := first.afterAll steps
    r.tally.skippedDraws = 0 ∧ (∀ cause, .drawRejected cause ∉ r.events) ∧
    ∀ step,
      (r.triangles step = [] → (r.after step).device.draws = r.device.draws) ∧
      (r.triangles step ≠ [] → ∃ draw, (r.after step).device.draws = r.device.draws.push draw ∧
        draw.vertices = r.triangles step ∧ NamesLive first steps (r.after step) draw) := by
  intro r
  obtain ⟨hfirst, hfresh⟩ := inOrder_ofSpec hstart hcompiles hdraws
  have horder : r.InOrder spec.textures := inOrder_afterAll hfirst steps
  refine ⟨horder.unskipped, horder.unrejected, fun step => ⟨draws_after_of_nil, fun hsome => ?_⟩⟩
  have hafter : (r.after step).InOrder spec.textures := horder.after step
  have hbound (unit : UInt8) (key : TextureKey) :
      (r.after step).bound.get unit = some key ↔ LastObtained first steps unit key := by
    rw [get_bound_of_not (not_asksFor_of_triangles hsome)]
    exact get_bound_afterAll hfresh steps
  obtain ⟨draw, hrecorded, hvertices, htextures, hprogram⟩ := horder.draw_after hsome
  refine ⟨draw, hrecorded, hvertices, hprogram, fun unit handle => ?_, fun unit => ?_, ?_⟩
  · rw [htextures, currentTextures_eq_some_iff]
    simp only [hbound]
  · rw [htextures, currentTextures_eq_none_iff]
    simp only [hbound]
  · intro key entry hfound
    have hkey := List.find?_some hfound
    rw [hafter.textures.texture?_of_mem (List.mem_of_find?_eq_some hfound), of_decide_eq_true hkey]

def singleTexture : Renderer where
  device := .ofSpec { width := 4, height := 4 }
  textures := { budget := 16, maxEntries := 1 }
  programs := { accuracy := .fast, capabilities := .all }
  reader := { narrowing := .nearest }
  screenWidth := 4
  screenHeight := 4

def grayLoad (unit gray : UInt8) : RenderStep :=
  .execute (.loadTexture ⟨unit, 0, 1, .i8, 1, 1, none, [gray]⟩)

/-- A texture is bound to each unit, the second one at the cost of the first, and between them the
device loses all features. -/
def crowdingSteps : List RenderStep :=
  [.execute (.setCombine 0 ⟨Combiner.Flags.texturePresent⟩), grayLoad 1 0x11, .regrade ⟨0⟩,
    .execute .endFrame, grayLoad 2 0x22]

theorem afterAll_namesLive_crowding :
    let spec : RendererSpec :=
      { textures := { budget := 16, maxEntries := 1 }, screenWidth := 4, screenHeight := 4 }
    let step := RenderStep.execute (.drawTriangles (List.replicate 3 default))
    let r := singleTexture.afterAll crowdingSteps
    ofSpec spec { Device.ofSpec { width := 4, height := 4 } with faults := {} } =
        .ok singleTexture ∧
      (∀ key, Faults.refuses {} (label key) = false) ∧ r.triangles step ≠ [] ∧
      r.tally.skippedDraws = 0 ∧ r.textures.entries.length = 1 ∧
      ∃ draw, (r.after step).device.draws = r.device.draws.push draw ∧
        draw.textures.get 0 = some ⟨2⟩ := by
  intro spec step r
  have hstart : ofSpec spec { Device.ofSpec { width := 4, height := 4 } with faults := {} } =
      .ok singleTexture := rfl
  have hcompiles (key : Combiner.Key) : Faults.refuses {} (label key) = false := rfl
  have hsome : r.triangles step ≠ [] := List.cons_ne_nil _ _
  have hr : singleTexture.afterAll crowdingSteps = r := rfl
  have hall := afterAll_namesLive hstart hcompiles rfl crowdingSteps
  rw [hr] at hall
  obtain ⟨hskipped, -, hsteps⟩ := hall
  obtain ⟨draw, hrecorded, -, hlive⟩ := (hsteps step).2 hsome
  let source : TextureSource := ⟨0, 1, .i8, 1, 1, none, [0x22]⟩
  have hobtained : LastObtained singleTexture crowdingSteps 0 source.key :=
    ⟨crowdingSteps.take 4, grayLoad 2 0x22, [], rfl, ⟨2, rfl, rfl⟩, nofun, source,
      ⟨⟨2⟩, source.key, false⟩, rfl, by decide +kernel, rfl⟩
  obtain ⟨entry, hfound, hhandle⟩ : ∃ entry, (r.after step).textures.find? source.key = some entry ∧
      entry.handle = ⟨2⟩ := by
    refine ⟨⟨source.key, ⟨2⟩, [0x22, 0x22, 0x22, 0x22], source.span, 2⟩, ?_, rfl⟩
    decide +kernel
  have hnamed := (hlive.texture 0 ⟨2⟩).mpr
    ⟨by decide +kernel, source.key, entry, hobtained, hfound, hhandle⟩
  exact ⟨hstart, hcompiles, hsome, hskipped, by decide +kernel, draw, hrecorded, hnamed⟩

end Runs

end Renderer
end DisplayPipeline
