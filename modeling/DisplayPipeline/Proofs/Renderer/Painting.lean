import DisplayPipeline.Proofs.DisplayList.Batching
import DisplayPipeline.Proofs.DisplayList.IndexedTiles
import DisplayPipeline.Proofs.Renderer.SampledMemory
import DisplayPipeline.Proofs.Renderer.Screen

/-!
# Display lists paint over what was there

However fills are batched, split and mixed with other things, a pixel has the color of the last
rectangle that was filled over it, cut to the scissor of that moment, or else the color that it had.
The frame that the host ends shows these pixels.
-/

namespace DisplayPipeline

namespace Instruction

private theorem bounds_of_fetch {ram : Ram} {address : UInt32} {bounds : QuarterRect}
    (h : (fetch ram address).1 = .fillRect bounds) :
    bounds = .ofWords (ram.read32 (address + 4)) (ram.read32 address) := by
  have hopcode (opcode : Opcode) (w0 w1 : UInt32) (operands : UInt32 × UInt32)
      (hfill : ofOpcode opcode w0 w1 operands = .fillRect bounds) : bounds = .ofWords w1 w0 := by
    cases opcode with
    | fillRect => exact (fillRect.inj hfill).symm
    | moveWord =>
      simp only [ofOpcode, decodeMoveWord] at hfill
      repeat' split at hfill
      all_goals cases hfill
    | moveMemory =>
      simp only [ofOpcode, decodeMoveMemory] at hfill
      repeat' split at hfill
      all_goals cases hfill
    | modifyVertex =>
      simp only [ofOpcode, decodeModifyVertex] at hfill
      repeat' split at hfill
      all_goals cases hfill
    | _ => cases hfill
  unfold fetch at h
  dsimp only at h
  split at h
  · cases h
  · split at h <;> exact hopcode _ _ _ _ h

end Instruction

namespace Scene

instance (scene : Scene) (bounds : QuarterRect) (x y : Nat) : Decidable (scene.Fills bounds x y) :=
  inferInstanceAs (Decidable ((_ ∧ _) ∧ (_ ∧ _) ∧ (_ ∧ _) ∧ _ ∧ _))

private theorem toNat_fillCoordinate {n : Nat} (h : n ≤ 65535) : (fillCoordinate n).toNat = n := by
  rw [fillCoordinate, Nat.min_eq_left h, UInt16.toNat_ofNat_of_lt' (Nat.lt_succ_of_le h)]

private theorem fillDrawings_of_ne_nil {scene : Scene} {bounds : QuarterRect}
    (hright : bounds.right < 4096) (hbottom : bounds.bottom < 4096)
    (h : scene.fillDrawings bounds ≠ []) :
    ∃ r, scene.fillDrawings bounds = [.fill r] ∧
      (∀ x y, r.Covers x y ↔ scene.Fills bounds x y) ∧
      r.color = scene.registers.render.rectColor := by
  unfold fillDrawings Fills at *
  dsimp only at h ⊢
  have hedge : (if scene.registers.render.modes.cycleType.isInclusive = true then 1 else 0) ≤ 1 := by
    split <;> decide
  generalize (if scene.registers.render.modes.cycleType.isInclusive = true then 1 else 0) = edge
    at h hedge ⊢
  split at h
  · next hsome =>
    rw [if_pos hsome]
    refine ⟨_, rfl, fun x y => ?_, rfl⟩
    simp only [FillRect.Covers]
    rw [toNat_fillCoordinate, toNat_fillCoordinate, toNat_fillCoordinate, toNat_fillCoordinate] <;>
      omega
  · exact absurd rfl h

end Scene

namespace RenderTarget

/-- The pixels of an area get a color, and nothing else changes. -/
structure Paints (t : RenderTarget) (area : Nat → Nat → Prop) (color : Color)
    (after : RenderTarget) : Prop where
  format : after.format = t.format
  width : after.width = t.width
  height : after.height = t.height
  full : after.Full
  inside : ∀ x y, x < t.width → y < t.height → area x y → after.pixel x y = color
  outside : ∀ x y, x < t.width → y < t.height → ¬ area x y → after.pixel x y = t.pixel x y

private theorem Full.paints_nothing {t : RenderTarget} (h : t.Full) {area : Nat → Nat → Prop}
    (hnone : ∀ x y, ¬ area x y) (color : Color) : t.Paints area color t :=
  ⟨rfl, rfl, rfl, h, fun x y _ _ hinside => absurd hinside (hnone x y), fun _ _ _ _ _ => rfl⟩

private theorem Full.paints_fill {t : RenderTarget} (h : t.Full) (r : FillRect) :
    t.Paints r.Covers r.color (t.fill r) where
  format := rfl
  width := rfl
  height := rfl
  full := h.fill r
  inside x y hx hy hcovers := by rw [pixel_fill h r hx hy, if_pos hcovers]
  outside x y hx hy hmisses := by rw [pixel_fill h r hx hy, if_neg hmisses]

end RenderTarget

/-- An instruction, with what was in force when it was carried out. -/
structure Execution where
  scene : Scene
  instruction : Instruction

namespace Execution

def drawings (e : Execution) : List Drawing := e.scene.drawings e.instruction

/-- A rectangle was filled over a pixel. -/
def Reaches (e : Execution) (x y : Nat) : Prop :=
  ∃ bounds, e.instruction = .fillRect bounds ∧ e.scene.Fills bounds x y

instance (e : Execution) (x y : Nat) : Decidable (e.Reaches x y) :=
  match h : e.instruction with
  | .fillRect bounds =>
    decidable_of_iff (e.scene.Fills bounds x y)
      ⟨fun hfills => ⟨bounds, h, hfills⟩, fun ⟨_, hsame, hfills⟩ =>
        Instruction.fillRect.inj (h.symm.trans hsame) ▸ hfills⟩
  | .nothing | .unknown _ | .flow _ | .geometry _ | .render _ | .texture _ | .triangle _
  | .twoTriangles _ _ | .texturedRect _ =>
    isFalse fun ⟨_, hsame, _⟩ => Instruction.noConfusion (h.symm.trans hsame)

def color (e : Execution) : Color := e.scene.registers.render.rectColor

def Fetched (e : Execution) : Prop := ∃ ram address, e.instruction =
    (Instruction.fetch ram address).1

variable {e : Execution} {t : RenderTarget}

private theorem paints_of_not_fill (ht : t.Full) (h : ∀ bounds, e.instruction ≠ .fillRect bounds) :
    t.Paints e.Reaches e.color (e.drawings.foldl RenderTarget.paint t) := by
  have hnone (x y : Nat) : ¬ e.Reaches x y := fun ⟨bounds, hfill, _⟩ => h bounds hfill
  have htriangle (corners : Corners) :
      (e.scene.triangleDrawings corners).foldl RenderTarget.paint t = t := by
    unfold Scene.triangleDrawings
    dsimp only
    repeat' split
    all_goals rfl
  have hrest : e.drawings.foldl RenderTarget.paint t = t := by
    rw [drawings]
    cases hinstruction : e.instruction with
    | triangle corners => exact htriangle corners
    | twoTriangles first second =>
      rw [Scene.drawings, List.foldl_append, htriangle, htriangle]
    | fillRect bounds => exact absurd hinstruction (h bounds)
    | texturedRect rect =>
      rw [Scene.drawings, Scene.rectDrawings]
      dsimp only
      repeat' split
      all_goals rfl
    | _ => rfl
  rw [hrest]
  exact ht.paints_nothing hnone e.color

private theorem paints_of_fill (ht : t.Full) {bounds : QuarterRect}
    (h : e.instruction = .fillRect bounds)
    (hright : bounds.right < 4096) (hbottom : bounds.bottom < 4096) :
    t.Paints e.Reaches e.color (e.drawings.foldl RenderTarget.paint t) := by
  have hreaches (x y : Nat) : e.Reaches x y ↔ e.scene.Fills bounds x y := by
    constructor
    · rintro ⟨other, hother, hfills⟩
      cases hother.symm.trans h
      exact hfills
    · exact fun hfills => ⟨bounds, h, hfills⟩
  have hdrawings : e.drawings = e.scene.fillDrawings bounds := by
    rw [drawings, h]
    rfl
  rw [hdrawings]
  by_cases hnil : e.scene.fillDrawings bounds = []
  · rw [hnil]
    refine ht.paints_nothing (fun x y => ?_) e.color
    rw [hreaches]
    exact (e.scene.fillDrawings_eq_nil_iff bounds).mp hnil x y
  · obtain ⟨r, hfill, hcovers, hcolor⟩ := e.scene.fillDrawings_of_ne_nil hright hbottom hnil
    have harea : e.Reaches = r.Covers := by
      funext x y
      rw [hreaches, ← hcovers]
    rw [hfill, harea, show e.color = r.color from hcolor.symm]
    exact ht.paints_fill r

private theorem paints (ht : t.Full) (hfetched : e.Fetched) :
    t.Paints e.Reaches e.color (e.drawings.foldl RenderTarget.paint t) := by
  obtain ⟨ram, address, hinstruction⟩ := hfetched
  by_cases hfill : ∃ bounds, e.instruction = .fillRect bounds
  · obtain ⟨bounds, hfill⟩ := hfill
    rw [Instruction.bounds_of_fetch (hinstruction.symm.trans hfill)] at hfill
    exact paints_of_fill ht hfill (Word.fieldNat_lt _ _ (by decide))
      (Word.fieldNat_lt _ _ (by decide))
  · exact paints_of_not_fill ht fun bounds hbounds => hfill ⟨bounds, hbounds⟩

/-- What some instructions leave of a target. -/
structure Leaves (executed : List Execution) (t after : RenderTarget) : Prop where
  format : after.format = t.format
  width : after.width = t.width
  height : after.height = t.height
  full : after.Full
  /-- The last fill of a pixel decides. -/
  last : ∀ earlier e later, executed = earlier ++ e :: later → ∀ x y, x < t.width →
    y < t.height → e.Reaches x y → (∀ f ∈ later, ¬ f.Reaches x y) → after.pixel x y = e.color
  rest : ∀ x y, x < t.width → y < t.height → (∀ e ∈ executed, ¬ e.Reaches x y) →
    after.pixel x y = t.pixel x y

private theorem leaves_nil (ht : t.Full) : Leaves [] t t where
  format := rfl
  width := rfl
  height := rfl
  full := ht
  last _ _ _ hsplit := absurd hsplit (by simp)
  rest _ _ _ _ _ := rfl

/-- The first instruction is painted over by the others. -/
theorem Leaves.cons {executed : List Execution} {painted after : RenderTarget}
    (h : t.Paints e.Reaches e.color painted) (hrest : Leaves executed painted after) :
    Leaves (e :: executed) t after where
  format := hrest.format.trans h.format
  width := hrest.width.trans h.width
  height := hrest.height.trans h.height
  full := hrest.full
  last earlier f later hsplit x y hx hy hreaches hlater := by
    rw [← h.width] at hx
    rw [← h.height] at hy
    cases earlier with
    | nil =>
      obtain ⟨rfl, rfl⟩ := List.cons.inj hsplit
      rw [hrest.rest x y hx hy hlater]
      exact h.inside x y (h.width ▸ hx) (h.height ▸ hy) hreaches
    | cons first earlier =>
      exact hrest.last earlier f later (List.cons.inj hsplit).2 x y hx hy hreaches hlater
  rest x y hx hy hnone := by
    obtain ⟨hfirst, hothers⟩ := List.forall_mem_cons.mp hnone
    rw [hrest.rest x y (h.width ▸ hx) (h.height ▸ hy) hothers, h.outside x y hx hy hfirst]

private theorem leaves {executed : List Execution} (ht : t.Full)
    (hfetched : ∀ e ∈ executed, e.Fetched) :
    Leaves executed t ((executed.flatMap drawings).foldl RenderTarget.paint t) := by
  induction executed generalizing t with
  | nil => exact leaves_nil ht
  | cons e executed ih =>
    obtain ⟨hfirst, hothers⟩ := List.forall_mem_cons.mp hfetched
    rw [List.flatMap_cons, List.foldl_append]
    exact .cons (paints ht hfirst) (ih (paints ht hfirst).full hothers)

end Execution

namespace Renderer

private theorem sameScreen_reports (r : Renderer) (writes : List MemoryWrite) :
    r.SameScreen (writes.foldl Renderer.hear r) := by
  induction writes generalizing r with
  | nil => exact .refl r
  | cons write writes ih =>
    exact (r.sameScreen_invalidate write.address write.length).trans (ih (r.hear write))

end Renderer

namespace Hosting

variable {σ : Type} {o : Outlet σ}

/-- The instructions that a call has carried out. -/
def executionsOf (o : Outlet σ) (h : Hosting σ) : HostCall → List Execution
  | .run ram start => (h.course o ram start).map fun m =>
    ⟨m.visit.scene ram h.processor.settings, m.visit.instruction ram⟩
  | .notify _ _ | .endFrame => []

/-- The instructions that calls have carried out, in order. -/
def executions (o : Outlet σ) (h : Hosting σ) (calls : List HostCall) : List Execution :=
  (h.turns o calls).flatMap fun turn => turn.1.executionsOf o turn.2

private theorem fetched_of_executions {h : Hosting σ} {calls : List HostCall} {e : Execution}
    (he : e ∈ h.executions o calls) : e.Fetched := by
  obtain ⟨⟨called, call⟩, -, he⟩ := List.mem_flatMap.mp he
  cases call with
  | run ram start =>
    obtain ⟨m, -, rfl⟩ := List.mem_map.mp he
    exact ⟨ram, m.visit.address, rfl⟩
  | notify address length => cases he
  | endFrame => cases he

private structure Drawn (h : Hosting (Traced σ)) (produced : List Drawing) : Prop where
  delivers : ∃ slots, h.link.Delivers produced slots
  closed : h.processor.delivery.batch = none

variable {h : Hosting (Traced σ)} {produced : List Drawing}

private theorem Drawn.drawings (hdrawn : h.Drawn produced) : h.sink.drawings = produced := by
  obtain ⟨slots, hdelivers⟩ := hdrawn.delivers
  have hall := hdelivers.drawings
  rw [show h.link.delivery.batch = none from hdrawn.closed] at hall
  exact (List.append_nil _).symm.trans hall

private theorem drawn_start (settings : ListSettings) (sink : σ) :
    (start settings (⟨sink, []⟩ : Traced σ)).Drawn [] where
  delivers := ⟨_, fun _ hnone => absurd hnone List.not_mem_nil, nofun, rfl, rfl⟩
  closed := rfl

private theorem Drawn.run (ho : o.Forgiving) (hdrawn : h.Drawn produced) (ram : Ram)
    (start : UInt32) :
    (h.serve o.traced (.run ram start)).Drawn
      (produced ++ (h.executionsOf o.traced (.run ram start)).flatMap Execution.drawings) := by
  obtain ⟨slots, hdelivers⟩ := hdrawn.delivers
  let p := h.processor
  let m : Machine (Traced σ) := p.machine ram start h.sink
  have hroom : m.link.HasRoom := fun b hb => absurd (hdrawn.closed.symm.trans hb) nofun
  have hlast := Machine.delivers_walkFor ho ram p.settings p.settings.budget
    (show m.link.Delivers produced slots from hdelivers) hroom
  have hvisits : (h.executionsOf o.traced (.run ram start)).flatMap Execution.drawings =
      ((m.course o.traced ram p.settings p.settings.budget).map (·.visit)).flatMap
        (·.drawings ram p.settings) := by
    simp only [executionsOf, List.flatMap_map]
    rfl
  rw [hvisits]
  obtain ⟨link, ⟨hlink, hnone⟩, hrun⟩ := ListProcessor.run_closes rfl
    (Machine.walkFor_not_refused ho.traced ram p.settings p.settings.budget m) fun link hbeside =>
      DeliverM.gives_closeBatch ho (hlast.congr (congrArg _ hbeside.delivery) hbeside.sink
        hbeside.triangles hbeside.dropped)
  rw [serve, hrun]
  exact ⟨⟨_, hlink⟩, hnone⟩

private theorem Drawn.notify (hdrawn : h.Drawn produced) (address length : UInt32) :
    (h.serve o.traced (.notify address length)).Drawn produced := by
  obtain ⟨slots, hdelivers⟩ := hdrawn.delivers
  show Drawn ⟨h.processor.notify address length, h.sink, _⟩ produced
  unfold ListProcessor.notify
  split
  · exact ⟨⟨slots, hdelivers.congr rfl rfl rfl rfl⟩, hdrawn.closed⟩
  · exact ⟨⟨slots, hdelivers.congr rfl rfl rfl rfl⟩, hdrawn.closed⟩

private theorem Drawn.endFrame (ho : o.Forgiving) (hdrawn : h.Drawn produced) :
    (h.serve o.traced .endFrame).Drawn produced := by
  obtain ⟨slots, hdelivers⟩ := hdrawn.delivers
  obtain ⟨_, settled, hsettle, hsettled⟩ := DeliverM.gives_settle ho hdelivers
  obtain ⟨_, last, hsubmit, hlast, hnone⟩ := DeliverM.keeps_submit_hush ho
    (show Command.endFrame.IsHush from ⟨rfl, trivial⟩) settled hsettled
  have hserve : (h.serve o.traced .endFrame).link = last ∧
      (h.serve o.traced .endFrame).processor.delivery = last.delivery := by
    rw [serve, ListProcessor.endFrame_eq hsettle hsubmit]
    exact ⟨rfl, rfl⟩
  exact ⟨⟨slots, hserve.1 ▸ hlast⟩, hserve.2 ▸ hnone⟩

private theorem Drawn.serve (ho : o.Forgiving) (hdrawn : h.Drawn produced) (call : HostCall) :
    (h.serve o.traced call).Drawn
      (produced ++ (h.executionsOf o.traced call).flatMap Execution.drawings) := by
  cases call with
  | run ram start => exact hdrawn.run ho ram start
  | notify address length =>
    rw [executionsOf, List.flatMap_nil, List.append_nil]
    exact hdrawn.notify address length
  | endFrame =>
    rw [executionsOf, List.flatMap_nil, List.append_nil]
    exact hdrawn.endFrame ho

private theorem Drawn.serveAll (ho : o.Forgiving) (hdrawn : h.Drawn produced)
    (calls : List HostCall) :
    (h.serveAll o.traced calls).Drawn
      (produced ++ (h.executions o.traced calls).flatMap Execution.drawings) := by
  refine serveAll_accumulates (R := fun past h => h.Drawn
    (produced ++ (past.flatMap fun turn => turn.1.executionsOf o.traced turn.2).flatMap
      Execution.drawings)) ?_ calls ?_
  · intro past h call hdrawn
    rw [List.flatMap_append, List.flatMap_singleton, List.flatMap_append, ← List.append_assoc]
    exact hdrawn.serve ho call
  · rwa [List.flatMap_nil, List.flatMap_nil, List.append_nil]

section Frames

/-- The target once everything that was drawn is painted. -/
theorem target_serveAll (settings : ListSettings) (first : Renderer) (calls : List HostCall) :
    ((start settings (⟨first, []⟩ : Traced Renderer)).serveAll Outlet.rendering.traced
        calls).sink.sink.device.target =
      (((start settings (⟨first, []⟩ : Traced Renderer)).executions Outlet.rendering.traced
        calls).flatMap Execution.drawings).foldl RenderTarget.paint first.device.target := by
  have hdrawn := (drawn_start settings first).serveAll Outlet.rendering_forgiving calls
  have hrendered := (serveAll_rendered settings first calls).renderer
  rw [hrendered, Renderer.target_foldl_execute, List.flatMap_map]
  exact congrArg (List.foldl RenderTarget.paint first.device.target) hdrawn.drawings

private theorem faults_serveAll (settings : ListSettings) (first : Renderer)
    (calls : List HostCall) :
    ((start settings (⟨first, []⟩ : Traced Renderer)).serveAll Outlet.rendering.traced
      calls).sink.sink.device.faults = first.device.faults := by
  rw [(serveAll_rendered settings first calls).renderer, Renderer.faults_foldl_execute]

private theorem frames_serve_endFrame {h : Hosting (Traced Renderer)}
    (hclosed : h.processor.delivery.batch = none)
    (hformat : h.sink.sink.device.target.format = .rgba8)
    (hshown : h.sink.sink.device.faults.frames = false) :
    (h.serve Outlet.rendering.traced .endFrame).sink.sink.frames = h.sink.sink.frames.push
      ⟨h.sink.sink.device.target.width, h.sink.sink.device.target.height,
        h.sink.sink.device.target.pixels⟩ := by
  have hsame := h.sink.sink.sameScreen_reports h.processor.delivery.writes
  rw [sink_endFrame hclosed, Renderer.frames_endFrame (hsame.target ▸ hformat)
    (hsame.faults ▸ hshown), hsame.target, hsame.frames]

/-- A pixel of the target has the color of the last fill that reached it, or the color that it had
before, and the next frame shows the pixels of the target. -/
theorem serveAll_paints (settings : ListSettings) {first : Renderer}
    (hformat : first.device.target.format = .rgba8) (hfull : first.device.target.Full)
    (hshown : first.device.faults.frames = false) (before calls : List HostCall) :
    let h := (start settings (⟨first, []⟩ : Traced Renderer)).serveAll Outlet.rendering.traced before
    let last := h.serveAll Outlet.rendering.traced calls
    let executed := h.executions Outlet.rendering.traced calls
    let old := h.sink.sink.device.target
    let new := last.sink.sink.device.target
    (new.width = first.device.target.width ∧ new.height = first.device.target.height) ∧
      (∀ x y, x < new.width → y < new.height →
        (∀ earlier e later, executed = earlier ++ e :: later → e.Reaches x y →
          (∀ f ∈ later, ¬ f.Reaches x y) → new.pixel x y = e.color) ∧
        ((∀ e ∈ executed, ¬ e.Reaches x y) → new.pixel x y = old.pixel x y)) ∧
      (last.serve Outlet.rendering.traced .endFrame).sink.sink.frames =
        last.sink.sink.frames.push ⟨new.width, new.height, new.pixels⟩ := by
  intro h last executed old new
  have hlast : last = (start settings (⟨first, []⟩ : Traced Renderer)).serveAll
      Outlet.rendering.traced (before ++ calls) := (List.foldl_append ..).symm
  have hold := target_serveAll settings first before
  have hnew : new = (executed.flatMap Execution.drawings).foldl RenderTarget.paint old := by
    have hall := target_serveAll settings first (before ++ calls)
    rw [← hlast, executions, turns_append, List.flatMap_append, List.flatMap_append,
      List.foldl_append, ← executions, ← hold] at hall
    exact hall
  have hfetched : ∀ e ∈ (start settings (⟨first, []⟩ : Traced Renderer)).executions
      Outlet.rendering.traced before, e.Fetched := fun _ => fetched_of_executions
  have hearlier := Execution.leaves hfull hfetched
  rw [← hold] at hearlier
  have hlater : Execution.Leaves executed old new :=
    hnew ▸ Execution.leaves hearlier.full fun _ => fetched_of_executions
  have hdrawn := (drawn_start settings first).serveAll Outlet.rendering_forgiving (before ++ calls)
  rw [← hlast] at hdrawn
  have hfaults := faults_serveAll settings first (before ++ calls)
  rw [← hlast] at hfaults
  refine ⟨⟨hlater.width.trans hearlier.width, hlater.height.trans hearlier.height⟩,
    fun x y hx hy => ⟨fun earlier e later hsplit => ?_, ?_⟩, ?_⟩
  · exact hlater.last earlier e later hsplit x y (hlater.width ▸ hx) (hlater.height ▸ hy)
  · exact hlater.rest x y (hlater.width ▸ hx) (hlater.height ▸ hy)
  · exact frames_serve_endFrame hdrawn.closed
      (hlater.format.trans (hearlier.format.trans hformat)) (hfaults ▸ hshown)

/-- Two rectangles of two colors, the second within the first. -/
def nestedFillsRam : Ram where
  bytes := ⟨([0xE3000A01, 0x00300000, 0xF7000000, 0xFF0000FF, 0xF6008008, 0, 0xF7000000, 0x00FF00FF,
    0xF6004004, 0x00004004, 0xDF000000, 0, 0, 0, 0, 0].flatMap Word.be32).toArray⟩
  -- words of four bytes, sixteen of them
  logSize := 2 + 4
  size_eq := by decide +kernel
  logSize_le := by decide

def nestedFills : Hosting (Traced Renderer) :=
  (start {} ⟨smallRenderer, []⟩).serveAll Outlet.rendering.traced [.run nestedFillsRam 0]

def nestedExecutions : List Execution :=
  (start {} ⟨smallRenderer, []⟩).executions Outlet.rendering.traced [.run nestedFillsRam 0]

theorem serveAll_paints_nestedFills :
    let new := nestedFills.sink.sink.device.target
    smallRenderer.device.target.format = .rgba8 ∧ smallRenderer.device.target.Full ∧
      smallRenderer.device.faults.frames = false ∧
      new.pixel 1 1 = ⟨0, 255, 0, 255⟩ ∧ new.pixel 3 3 = .transparent ∧
      (nestedFills.serve Outlet.rendering.traced .endFrame).sink.sink.frames =
        nestedFills.sink.sink.frames.push ⟨new.width, new.height, new.pixels⟩ := by
  have hfull : smallRenderer.device.target.Full := RenderTarget.full_blank ..
  have hpaints := serveAll_paints {} rfl hfull rfl [] [.run nestedFillsRam 0]
  have hstart : (start {} (⟨smallRenderer, []⟩ : Traced Renderer)).serveAll
      Outlet.rendering.traced [] = start {} ⟨smallRenderer, []⟩ := rfl
  have hfills : (start {} (⟨smallRenderer, []⟩ : Traced Renderer)).serveAll
      Outlet.rendering.traced [.run nestedFillsRam 0] = nestedFills := rfl
  have hexecutions : (start {} (⟨smallRenderer, []⟩ : Traced Renderer)).executions
      Outlet.rendering.traced [.run nestedFillsRam 0] = nestedExecutions := rfl
  dsimp only at hpaints
  rw [hstart, hfills, hexecutions] at hpaints
  obtain ⟨⟨hwidth, hheight⟩, hpixels, hframes⟩ := hpaints
  have hinside (n : Nat) (hn : n < 4) : n < nestedFills.sink.sink.device.target.width ∧
      n < nestedFills.sink.sink.device.target.height := by
    rw [hwidth, hheight]
    exact ⟨hn, hn⟩
  have hsplit : nestedExecutions = nestedExecutions.take 4 ++
      nestedExecutions.get ⟨4, by decide +kernel⟩ :: nestedExecutions.drop 5 := by
    rw [List.get_eq_getElem, List.getElem_cons_drop, List.take_append_drop]
  have hgreen := (hpixels 1 1 (hinside 1 (by decide)).1 (hinside 1 (by decide)).2).1 _ _ _ hsplit
    (by decide +kernel) (by decide +kernel)
  have hkept := (hpixels 3 3 (hinside 3 (by decide)).1 (hinside 3 (by decide)).2).2
    (by decide +kernel)
  exact ⟨rfl, hfull, rfl, hgreen.trans (by decide +kernel),
    hkept.trans (by decide +kernel), hframes⟩

end Frames

end Hosting

end DisplayPipeline
