import DisplayPipeline.Proofs.DisplayList.Gathering
import DisplayPipeline.Proofs.DisplayList.Timeline
import DisplayPipeline.Proofs.DisplayList.WriteReports
import DisplayPipeline.Proofs.Renderer.Requests

/-!
# Writes to memory that a cached texture was gathered from

A cached texture is dropped when a write is reported to the range that it is said to come from. That
range starts at the address that the display list gave, while the texels were read at offsets cut to
the size of memory. So a write to a byte of the texture drops it exactly where its offset lies in
the range: always if the range lies within memory, and never if it lies beyond.
-/

namespace DisplayPipeline

variable {σ : Type}

namespace Span

private theorem overlaps_byte_iff (s : Span) (p : UInt32) :
    s.overlaps (.ofLength p 1) = true ↔ s.Contains p.toNat := by
  have hone : (1 : UInt32).toNat = 1 := rfl
  simp only [overlaps, ofLength, Contains, hone, Bool.and_eq_true, decide_eq_true_eq]
  omega

private theorem isEmpty_ofLength {address length : UInt32} (h : length ≠ 0) :
    (ofLength address length).isEmpty = false := by
  have hpos : 0 < length.toNat := Nat.pos_of_ne_zero fun hzero => h (UInt32.toNat_inj.mp hzero)
  apply decide_eq_false
  simp only [ofLength]
  omega

end Span

namespace TextureCache

variable {c : TextureCache} {key : TextureKey} {span : Span}

/-- The entry of a key, if there is one, came from a range. -/
def ComesFrom (c : TextureCache) (key : TextureKey) (span : Span) : Prop :=
  ∀ e ∈ c.entries, e.key = key → e.source = span

private theorem find?_eq_none_iff : c.find? key = none ↔ ∀ e ∈ c.entries, e.key ≠ key := by
  simp [find?]

private theorem comesFrom_fetch (c : TextureCache) (source : TextureSource) (d : Device) :
    (c.fetch source d).1.ComesFrom source.key source.span := by
  have habsent {entries : List CachedTexture} (hnone : c.find? source.key = none)
      (hsubset : ∀ e ∈ entries, e ∈ c.entries) :
      ∀ e ∈ entries, e.key = source.key → e.source = source.span := by
    intro e he hkey
    exact absurd hkey (find?_eq_none_iff.mp hnone e (hsubset e he))
  rcases c.fetch_cases source d with ⟨entry, hfound, hfetch⟩ | ⟨cause, hnone, -, hfetch⟩ |
    ⟨rgba, dropped, kept, hnone, -, hyields, ⟨fault, -, hfetch⟩ | ⟨-, hfetch⟩⟩
  · have hentry : entry.key = source.key := by
      have := List.find?_some hfound
      exact of_decide_eq_true this
    rw [hfetch]
    intro e he hkey
    rcases List.mem_append.mp he with he | he
    · have hother := (List.mem_filter.mp he).2
      exact absurd (hkey.trans hentry.symm) (of_decide_eq_true hother)
    · rw [List.mem_singleton.mp he]
  · rw [hfetch]
    exact habsent hnone fun e he => he
  · rw [hfetch]
    exact habsent hnone fun e he => hyields.parts ▸ List.mem_append_right _ he
  · rw [hfetch]
    intro e he hkey
    rcases List.mem_append.mp he with he | he
    · exact habsent hnone (fun e he => hyields.parts ▸ List.mem_append_right _ he) e he hkey
    · rw [List.mem_singleton.mp he]

private theorem entries_invalidate {range : Span} (h : range.isEmpty = false) (d : Device) :
    (c.invalidate range d).1.entries = c.entries.filter fun e =>
      !(c.entries.filter fun s => s.source.overlaps range).any fun s => s.key = e.key := by
  rw [invalidate, if_neg (by rw [h]; exact Bool.false_ne_true)]
  rfl

private theorem ComesFrom.invalidate (h : c.ComesFrom key span) (range : Span) (d : Device) :
    (c.invalidate range d).1.ComesFrom key span := by
  cases hempty : range.isEmpty with
  | true =>
    rw [TextureCache.invalidate, if_pos hempty]
    exact h
  | false =>
    intro e he
    rw [entries_invalidate hempty] at he
    exact h e (List.mem_filter.mp he).1

/-- A report drops an entry exactly where it is for a part of the range that the entry came from. -/
theorem ComesFrom.find?_invalidate_iff (h : c.ComesFrom key span) {range : Span}
    (hrange : range.isEmpty = false) (d : Device) :
    (c.invalidate range d).1.find? key = none ↔
      c.find? key = none ∨ span.overlaps range = true := by
  rw [find?_eq_none_iff, find?_eq_none_iff, entries_invalidate hrange]
  constructor
  · intro hnone
    by_cases hover : span.overlaps range = true
    · exact Or.inr hover
    · left
      intro e he hkey
      refine hnone e (List.mem_filter.mpr ⟨he, ?_⟩) hkey
      rw [Bool.not_eq_true', List.any_eq_false]
      intro s hs hsame
      obtain ⟨hs, hstale⟩ := List.mem_filter.mp hs
      rw [h s hs ((of_decide_eq_true hsame).trans hkey)] at hstale
      exact hover hstale
  · rintro (hnone | hover) e he
    · exact hnone e (List.mem_filter.mp he).1
    · intro hkey
      obtain ⟨he, hstays⟩ := List.mem_filter.mp he
      rw [Bool.not_eq_true', List.any_eq_false] at hstays
      have hstale : e.source.overlaps range = true := h e he hkey ▸ hover
      exact hstays e (List.mem_filter.mpr ⟨he, hstale⟩) (decide_eq_true rfl)

private theorem clock_fetch (c : TextureCache) (source : TextureSource) (d : Device) :
    (c.fetch source d).1.clock = c.clock + 1 := by
  rcases c.fetch_cases source d with ⟨entry, -, hfetch⟩ | ⟨cause, -, -, hfetch⟩ |
    ⟨rgba, dropped, kept, -, -, -, ⟨fault, -, hfetch⟩ | ⟨-, hfetch⟩⟩ <;> rw [hfetch] <;> rfl

private theorem clock_invalidate (c : TextureCache) (range : Span) (d : Device) :
    (c.invalidate range d).1.clock = c.clock := by
  unfold invalidate
  split <;> rfl

end TextureCache

namespace Renderer

variable {r : Renderer} {key : TextureKey} {span : Span}

private theorem textures_bindSource (r : Renderer) (unit : UInt8) (source : TextureSource) :
    (r.bindSource unit source).textures = (r.textures.fetch source r.device).1 := by
  obtain ⟨tally, events, hbind, -⟩ := r.bindSource_eq unit source
  rw [hbind]

private theorem textures_draw (r : Renderer) (vertices : List Vertex) :
    (r.draw vertices).textures = r.textures := by
  obtain ⟨programs, device, tally, events, hdraw⟩ := r.draw_keeps vertices
  rw [hdraw]

private theorem textures_execute_cases (r : Renderer) (command : Command) :
    (r.execute command).textures = r.textures ∨
      (∃ source d, (r.execute command).textures = (r.textures.fetch source d).1) ∨
      ∃ range d, (r.execute command).textures = (r.textures.invalidate range d).1 := by
  cases command with
  | loadTexture load => exact Or.inr (Or.inl ⟨_, _, r.textures_bindSource load.unit load.source⟩)
  | invalidateRange address length => exact Or.inr (Or.inr ⟨_, _, rfl⟩)
  | captureColorBuffer capture =>
    simp only [execute, Renderer.capture]
    split
    · exact Or.inl rfl
    · exact Or.inr (Or.inl ⟨_, _, textures_bindSource _ _ _⟩)
  | drawTriangles vertices => exact Or.inl (r.textures_draw _)
  | drawRects rects => exact Or.inl (r.textures_draw _)
  | setCombine | setOtherModes | setColors | fillRects | endFrame => exact Or.inl rfl

private theorem clock_le_execute (r : Renderer) (command : Command) :
    r.textures.clock ≤ (r.execute command).textures.clock := by
  rcases r.textures_execute_cases command with hsame | ⟨source, d, hfetch⟩ | ⟨range, d, hdrop⟩
  · rw [hsame]
  · rw [hfetch, TextureCache.clock_fetch]
    exact Nat.le_succ _
  · rw [hdrop, TextureCache.clock_invalidate]

private theorem clock_le_foldl (r : Renderer) (commands : List Command) :
    r.textures.clock ≤ (commands.foldl execute r).textures.clock := by
  induction commands generalizing r with
  | nil => exact Nat.le_refl _
  | cons command commands ih => exact (r.clock_le_execute command).trans (ih _)

private theorem comesFrom_execute (h : r.textures.ComesFrom key span) {command : Command}
    (hclock : (r.execute command).textures.clock = r.textures.clock) :
    (r.execute command).textures.ComesFrom key span := by
  rcases r.textures_execute_cases command with hsame | ⟨source, d, hfetch⟩ | ⟨range, d, hdrop⟩
  · rw [hsame]
    exact h
  · rw [hfetch, TextureCache.clock_fetch] at hclock
    exact absurd hclock (Nat.succ_ne_self _)
  · rw [hdrop]
    exact h.invalidate range d

private theorem comesFrom_foldl (h : r.textures.ComesFrom key span) {commands : List Command}
    (hclock : (commands.foldl execute r).textures.clock = r.textures.clock) :
    (commands.foldl execute r).textures.ComesFrom key span := by
  induction commands generalizing r with
  | nil => exact h
  | cons command commands ih =>
    have hfirst : (r.execute command).textures.clock = r.textures.clock := by
      apply Nat.le_antisymm
      · exact ((r.execute command).clock_le_foldl commands).trans hclock.le
      · exact r.clock_le_execute command
    exact ih (comesFrom_execute h hfirst) (hclock.trans hfirst.symm)

def hear (r : Renderer) (w : MemoryWrite) : Renderer :=
  r.execute (.invalidateRange w.address w.length)

private theorem find?_reports_iff {r : Renderer} (h : r.textures.ComesFrom key span)
    {writes : List MemoryWrite} (hwrites : ∀ w ∈ writes, w.length ≠ 0) :
    (writes.foldl hear r).textures.find? key = none ↔
      r.textures.find? key = none ∨
        ∃ w ∈ writes, span.overlaps (.ofLength w.address w.length) = true := by
  induction writes generalizing r with
  | nil => simp
  | cons w writes ih =>
    obtain ⟨hw, hrest⟩ := List.forall_mem_cons.mp hwrites
    have hdrop : (r.hear w).textures =
        (r.textures.invalidate (.ofLength w.address w.length) r.device).1 := rfl
    rw [List.foldl_cons, ih (hdrop ▸ h.invalidate _ _) hrest, hdrop,
      h.find?_invalidate_iff (Span.isEmpty_ofLength hw), or_assoc, List.exists_mem_cons_iff]

end Renderer

/-- Carries out each command at once. -/
def Outlet.rendering : Outlet Renderer where
  submit command r := (r.execute command, .ok ())

theorem Outlet.rendering_forgiving : Outlet.rendering.Forgiving := by
  intro command r cause h
  have hanswer : (Except.ok () : Except PoolError Unit) = .error cause := h
  cases hanswer

section Sinks

variable {o : Outlet σ} {made : Command → Prop} {P : σ → Prop}

structure Outlet.Sustains (o : Outlet σ) (made : Command → Prop) (P : σ → Prop) : Prop where
  plain : ∀ command, command.kind ≠ .loadTexture → made command
  submit : ∀ command sink, made command → P sink → P (o.submit command sink).1

open DeliverM in
private theorem Outlet.Sustains.lasting (h : o.Sustains made P) (ho : o.Forgiving) :
    Lasting o made fun link => P link.sink where
  plain := h.plain
  submit command hmade link hlink := by
    have hafter := h.submit command link.sink hmade hlink
    apply gives_submit ho
    · intro sink hanswer
      rw [hanswer] at hafter
      exact hafter
    · intro sink cause hanswer
      rw [hanswer] at hafter
      exact hafter
  update _ _ hlink := gives_update hlink
  count _ _ hlink := gives_count hlink

namespace Hosting

private theorem sustained_run (h : o.Sustains made P) (ho : o.Forgiving) {hosting : Hosting σ}
    (hsink : P hosting.sink) (ram : Ram) (start : UInt32)
    (hscene : ∀ scene : Scene, scene.ram = ram → scene.LoadsWithin made) :
    P (hosting.serve o (.run ram start)).sink := by
  let p := hosting.processor
  have hstep (m : Machine σ) (hm : P m.link.sink) :
      P (m.step o ram p.settings).after.link.sink := by
    obtain ⟨_, link, hperformed, hlink⟩ := (h.lasting ho).performAll
      (hscene (m.visit.scene ram p.settings) rfl)
      ((m.visit.scene ram p.settings).requests (m.visit.instruction ram)) m.counted hm
    have hdelivered := (m.step_delivered ho ram p.settings).sink
    rw [Machine.delivered, DeliverM.after_eq hperformed] at hdelivered
    rw [hdelivered]
    exact hlink
  obtain ⟨hlast, -⟩ := Machine.walkFor_keeps (P := fun m => P m.link.sink) hstep p.settings.budget
    (m := p.machine ram start hosting.sink) hsink
  obtain ⟨closed, hclosed, hrun⟩ := ListProcessor.run_closes rfl
    (Machine.walkFor_not_refused ho ram p.settings p.settings.budget _) fun link hbeside =>
      (h.lasting ho).closeBatch link (hbeside.sink ▸ hlast)
  rw [serve, hrun]
  exact hclosed

private theorem sustained_endFrame (h : o.Sustains made P) (ho : o.Forgiving) {hosting : Hosting σ}
    (hsink : P hosting.sink) : P (hosting.serve o .endFrame).sink := by
  obtain ⟨_, settled, hsettle, hsettled⟩ := (h.lasting ho).settle hosting.link hsink
  obtain ⟨_, last, hsubmit, hlast⟩ :=
    (h.lasting ho).submit .endFrame (h.plain _ nofun) settled hsettled
  have hserve : (hosting.serve o .endFrame).sink = last.sink := by
    rw [serve, ListProcessor.endFrame_eq hsettle hsubmit]
  rw [hserve]
  exact hlast

/-- What each submission keeps of the sink, all calls of a host keep. -/
theorem sustained_serveAll (h : o.Sustains made P) (ho : o.Forgiving) {hosting : Hosting σ}
    (hsink : P hosting.sink) (calls : List HostCall)
    (hcalls : ∀ ram start, .run ram start ∈ calls → ∀ scene : Scene, scene.ram = ram →
      scene.LoadsWithin made) :
    P (hosting.serveAll o calls).sink := by
  refine List.foldlRecOn (motive := fun hosting => P hosting.sink) calls (serve o) hsink ?_
  intro hosting hsink call hcall
  cases call with
  | run ram start => exact sustained_run h ho hsink ram start (hcalls ram start hcall)
  | notify address length => exact hsink
  | endFrame => exact sustained_endFrame h ho hsink

end Hosting

end Sinks

/-- A texture load that some tile asked for during one of the runs. -/
def HostCall.GatheredIn (calls : List HostCall) (load : TextureLoad) : Prop :=
  ∃ ram start, .run ram start ∈ calls ∧ ∃ scene : Scene, scene.ram = ram ∧
    ∃ tile, scene.textureCommand? load.unit tile = some (.loadTexture load)

namespace Hosting

variable {first : Renderer} {h : Hosting (Traced Renderer)} {load : TextureLoad}

/-- A texture was loaded, is in the cache, and was the last one to be fetched. -/
structure LastFetched (first : Renderer) (t : Traced Renderer) (load : TextureLoad) : Prop where
  submitted : ∃ before since, t.attempts.map (·.command) = before ++ .loadTexture load :: since ∧
    ((before ++ [.loadTexture load]).foldl Renderer.execute first).textures.clock =
      t.sink.textures.clock
  cached : t.sink.textures.find? load.source.key ≠ none

/-- The renderer carried out what was submitted, and textures were loaded only for tiles. -/
structure Rendered (first : Renderer) (calls : List HostCall) (t : Traced Renderer) : Prop where
  renderer : t.sink = (t.attempts.map (·.command)).foldl Renderer.execute first
  loads : ∀ a ∈ t.attempts, ∀ load, a.command = .loadTexture load → HostCall.GatheredIn calls load

theorem serveAll_rendered (settings : ListSettings) (first : Renderer) (calls : List HostCall) :
    Rendered first calls ((start settings (⟨first, []⟩ : Traced Renderer)).serveAll
      Outlet.rendering.traced calls).sink := by
  have hsustains : Outlet.rendering.traced.Sustains
      (fun command => ∀ load, command = .loadTexture load → HostCall.GatheredIn calls load)
      (Rendered first calls) := by
    refine ⟨fun command hkind load hload => absurd (by rw [hload]; rfl) hkind, ?_⟩
    rintro command t hmade ⟨hrenderer, hloads⟩
    refine ⟨?_, ?_⟩
    · change t.sink.execute command = _
      rw [hrenderer]
      simp [Outlet.traced, Traced.add]
    · intro a ha
      rcases List.mem_append.mp ha with ha | ha
      · exact hloads a ha
      · rw [List.mem_singleton.mp ha]
        exact hmade
  refine sustained_serveAll hsustains Outlet.rendering_forgiving.traced
    ⟨rfl, fun _ hnone => absurd hnone List.not_mem_nil⟩ calls ?_
  intro ram start hcall scene hram unit tile command hcommand load hload
  subst hload
  have hunit : load.unit = unit := Option.some.inj (Scene.textureUnit?_of_textureCommand? hcommand)
  exact ⟨ram, start, hcall, scene, hram, tile, hunit ▸ hcommand⟩

section Reports

open DeliverM

variable {link : Link (Traced Renderer)}

private theorem gives_submit_rendering {command : Command}
    {Q : Bool → Link (Traced Renderer) → Prop}
    (h : Q true { link with sink := link.sink.add (link.sink.sink.execute command) command none }) :
    Gives (submit Outlet.rendering.traced command) link Q :=
  ⟨true, _, rfl, h⟩

private theorem gives_announce_rendering (writes : List MemoryWrite) :
    Gives (announce Outlet.rendering.traced writes) link fun _ after =>
      after.sink.sink = writes.foldl Renderer.hear link.sink.sink := by
  induction writes generalizing link with
  | nil => exact gives_pure rfl
  | cons write writes ih => exact gives_bind (gives_submit_rendering ih)

private theorem gives_settle_rendering (hclosed : link.delivery.batch = none) :
    Gives (settle Outlet.rendering.traced) link fun _ after =>
      after.sink.sink = link.delivery.writes.foldl Renderer.hear link.sink.sink := by
  refine gives_bind (gives_look ?_)
  rw [hclosed]
  refine gives_pure (gives_look ?_)
  by_cases hwrites : link.delivery.writes = []
  · rw [if_neg (not_not_intro hwrites), hwrites]
    exact gives_pure rfl
  · rw [if_pos hwrites]
    refine gives_bind (gives_update (gives_bind ?_))
    exact (gives_announce_rendering _).imp fun _ _ hannounced => gives_update hannounced

theorem sink_endFrame (hclosed : h.processor.delivery.batch = none) :
    (h.serve Outlet.rendering.traced .endFrame).sink.sink =
      (h.processor.delivery.writes.foldl Renderer.hear h.sink.sink).execute .endFrame := by
  have hlink : h.link.delivery.batch = none := hclosed
  obtain ⟨_, settled, hsettle, hsettled⟩ := gives_settle_rendering hlink
  have hserve : (h.serve Outlet.rendering.traced .endFrame).sink.sink =
      settled.sink.sink.execute .endFrame := by
    rw [serve, ListProcessor.endFrame_eq hsettle rfl]
    rfl
  rw [hserve, hsettled]
  rfl

private theorem textures_endFrame (hclosed : h.processor.delivery.batch = none) :
    (h.serve Outlet.rendering.traced .endFrame).sink.sink.textures =
      (h.processor.delivery.writes.foldl Renderer.hear h.sink.sink).textures := by
  rw [sink_endFrame hclosed]
  rfl

end Reports

private theorem length_of_mem_notedWrites {calls : List HostCall} {w : MemoryWrite}
    (hw : w ∈ notedWrites calls) : w.length ≠ 0 := by
  obtain ⟨call, -, hnoted⟩ := List.mem_filterMap.mp hw
  cases call with
  | notify address length =>
    rw [HostCall.notedWrite?] at hnoted
    split at hnoted
    · cases hnoted
    · rename_i hlength
      cases hnoted
      exact hlength
  | run ram start => cases hnoted
  | endFrame => cases hnoted

private theorem LastFetched.comesFrom {calls : List HostCall} {t : Traced Renderer}
    (hlast : LastFetched first t load) (ht : Rendered first calls t) :
    t.sink.textures.ComesFrom load.source.key load.source.span := by
  obtain ⟨⟨before, since, hsplit, hclock⟩, -⟩ := hlast
  let loaded := (before ++ [Command.loadTexture load]).foldl Renderer.execute first
  have hloaded : loaded.textures.ComesFrom load.source.key load.source.span := by
    have hfetch : loaded.textures = ((before.foldl Renderer.execute first).textures.fetch
        load.source (before.foldl Renderer.execute first).device).1 := by
      simp only [loaded, List.foldl_append, List.foldl_cons, List.foldl_nil]
      exact Renderer.textures_bindSource _ _ _
    rw [hfetch]
    exact TextureCache.comesFrom_fetch _ _ _
  have hsink : t.sink = since.foldl Renderer.execute loaded := by
    rw [ht.renderer, hsplit]
    simp [loaded]
  rw [hsink] at hclock ⊢
  exact Renderer.comesFrom_foldl hloaded hclock.symm

/-- A write to a byte that a cached texture was gathered from drops it exactly where the byte's
offset is in the range that the texture is said to come from, unless a write that was still to be
reported drops it anyway. -/
theorem serveAll_write_drops_iff (settings : ListSettings) (first : Renderer)
    (calls : List HostCall) (load : TextureLoad) :
    let h := (start settings (⟨first, []⟩ : Traced Renderer)).serveAll Outlet.rendering.traced calls
    LastFetched first h.sink load →
    HostCall.GatheredIn calls load ∧
    ∀ (scene : Scene) (tile : TileIndex),
      scene.textureCommand? load.unit tile = some (.loadTexture load) →
      load.source.bytes = (scene.gatheredOffsets tile).map scene.ram.byte ∧
      ∀ p ∈ scene.gatheredOffsets tile,
        let after := (h.serveAll Outlet.rendering.traced
          [.notify p 1, .endFrame]).sink.sink.textures
        p.toNat < scene.ram.size ∧
        (after.find? load.source.key = none ↔
          load.source.span.Contains p.toNat ∨
            ∃ w ∈ h.processor.delivery.writes,
              load.source.span.overlaps (.ofLength w.address w.length) = true) ∧
        (load.source.span.stop ≤ scene.ram.size → scene.ram.size < UInt32.size →
          after.find? load.source.key = none) := by
  intro h hlast
  have hrendered : Rendered first calls h.sink := serveAll_rendered settings first calls
  have hinformed : h.Informed (notedWrites calls) :=
    start_informed Outlet.rendering_forgiving settings first calls
  have hfrom := hlast.comesFrom hrendered
  have hcached := hlast.cached
  have hgathered : HostCall.GatheredIn calls load := by
    obtain ⟨before, since, hsplit, -⟩ := hlast.submitted
    have hmem : Command.loadTexture load ∈ h.sink.attempts.map (·.command) := by
      rw [hsplit]
      exact List.mem_append_right _ List.mem_cons_self
    obtain ⟨a, ha, hcommand⟩ := List.mem_map.mp hmem
    exact hrendered.loads a ha load hcommand
  refine ⟨hgathered, fun scene tile hcommand =>
    ⟨scene.bytes_of_textureCommand? hcommand, fun p hp => ?_⟩⟩
  intro after
  let write : MemoryWrite := ⟨p, 1⟩
  have hafter : after =
      ((h.processor.delivery.writes ++ [write]).foldl Renderer.hear h.sink.sink).textures :=
    textures_endFrame (h := h.serve _ (.notify p 1)) hinformed.closed
  have hwrites : ∀ w ∈ h.processor.delivery.writes ++ [write], w.length ≠ 0 := by
    intro w hw
    rcases List.mem_append.mp hw with hw | hw
    · have hnoted : w ∈ notedWrites calls := by
        rw [← hinformed.accounted]
        exact List.mem_append_right _ hw
      exact length_of_mem_notedWrites hnoted
    · rw [List.mem_singleton.mp hw]
      exact (by decide : (1 : UInt32) ≠ 0)
  have hgone : after.find? load.source.key = none ↔
      load.source.span.Contains p.toNat ∨ ∃ w ∈ h.processor.delivery.writes,
        load.source.span.overlaps (.ofLength w.address w.length) = true := by
    rw [hafter, Renderer.find?_reports_iff hfrom hwrites, or_iff_right hcached]
    simp [write, ← Span.overlaps_byte_iff, or_and_right, exists_or, or_comm]
  refine ⟨scene.offset_lt_size hcommand hp, hgone, fun hwithin hsize => ?_⟩
  exact hgone.mpr (Or.inl (scene.contains_of_within hcommand hsize hwithin hp))

def smallRenderer : Renderer where
  device := .ofSpec { width := 4, height := 4 }
  textures := { budget := 16, maxEntries := 0 }
  programs := { accuracy := .fast, capabilities := .all }
  reader := { narrowing := .nearest }
  screenWidth := 4
  screenHeight := 4

def drawnRect (address : UInt32) : Hosting (Traced Renderer) :=
  (start { budget := 20 } (⟨smallRenderer, []⟩ : Traced Renderer)).serveAll Outlet.rendering.traced
    [.run (loadedRectRam address) 0]

def texelLoad (address : UInt32) : TextureLoad :=
  ⟨0, ⟨address, 1, .ci4, 1, 1, some ⟨.rgba5551, .replicate 16 0⟩, [0x11]⟩⟩

def rectScene (address : UInt32) : Scene :=
  ⟨loadedRectRam address, { budget := 20 }, (drawnRect address).processor.registers⟩

/-- The address is that of a byte in memory, or one size of memory further on. -/
theorem lastFetched_drawnRect (address : UInt32) (h : address = 56 ∨ address = 120) :
    LastFetched smallRenderer (drawnRect address).sink (texelLoad address) ∧
      (rectScene address).textureCommand? 0 0 = some (.loadTexture (texelLoad address)) ∧
      (rectScene address).gatheredOffsets 0 = [56] := by
  refine ⟨⟨⟨((drawnRect address).sink.attempts.take 3).map (·.command),
    ((drawnRect address).sink.attempts.drop 4).map (·.command), ?_, ?_⟩, ?_⟩, ?_, ?_⟩ <;>
    rcases h with rfl | rfl <;> decide +kernel

theorem serveAll_write_drops_iff_texel :
    LastFetched smallRenderer (drawnRect 56).sink (texelLoad 56) ∧
      (rectScene 56).textureCommand? 0 0 = some (.loadTexture (texelLoad 56)) ∧
      (rectScene 56).gatheredOffsets 0 = [56] ∧
      ((drawnRect 56).serveAll Outlet.rendering.traced
        [.notify 56 1, .endFrame]).sink.sink.textures.find? (texelLoad 56).source.key = none := by
  obtain ⟨hlast, hcommand, hoffsets⟩ := lastFetched_drawnRect 56 (Or.inl rfl)
  have hdrawn : (start { budget := 20 } (⟨smallRenderer, []⟩ : Traced Renderer)).serveAll
      Outlet.rendering.traced [.run (loadedRectRam 56) 0] = drawnRect 56 := rfl
  have hall := serveAll_write_drops_iff { budget := 20 } smallRenderer
    [.run (loadedRectRam 56) 0] (texelLoad 56)
  rw [hdrawn] at hall
  obtain ⟨-, hdrops⟩ := hall hlast
  obtain ⟨-, hoffset⟩ := hdrops (rectScene 56) 0 hcommand
  obtain ⟨-, -, hwithin⟩ := hoffset 56 (hoffsets ▸ List.mem_singleton_self _)
  exact ⟨hlast, hcommand, hoffsets, hwithin (by decide) (by decide)⟩

/-- A write to any byte that the texture fetched last was gathered from drops it. -/
def DropsWritten (first : Renderer) (h : Hosting (Traced Renderer)) : Prop :=
  ∀ load, LastFetched first h.sink load → ∀ (scene : Scene) (tile : TileIndex),
    scene.textureCommand? load.unit tile = some (.loadTexture load) →
    ∀ p ∈ scene.gatheredOffsets tile,
      (h.serveAll Outlet.rendering.traced
        [.notify p 1, .endFrame]).sink.sink.textures.find? load.source.key = none

/-- The texel at address 120 is read at offset 56 of 64 bytes of memory, and a write there leaves
its texture in the cache. -/
theorem mirroredTexel_not_dropsWritten : ¬ DropsWritten smallRenderer (drawnRect 120) := by
  intro hdrops
  obtain ⟨hlast, hcommand, hoffsets⟩ := lastFetched_drawnRect 120 (Or.inr rfl)
  have hgone := hdrops (texelLoad 120) hlast (rectScene 120) 0 hcommand 56
    (hoffsets ▸ List.mem_singleton_self _)
  revert hgone
  decide +kernel

end Hosting

end DisplayPipeline
