import DisplayPipeline.Proofs.DisplayList.Preservation
import DisplayPipeline.Proofs.DisplayList.ToldRegisters

/-!
# Draws with the registers of their primitives

Whatever is refused, every draw of a batch finds the renderer with the registers as they were when its
primitives were added, unless something was refused as the batch was opened.
-/

namespace DisplayPipeline

variable {σ : Type}

/-- The combiner program that a primitive is to be drawn with. Copying takes texels as they are. -/
def Primitive.combinerIn (scene : Scene) : Primitive → UInt64 × Combiner.Flags
  | .triangle _ _ _ =>
    (scene.registers.render.mux,
      scene.registers.render.combinerFlags scene.registers.texture.use.on)
  | .corners _ _ _ _ | .rect _ =>
    if scene.registers.render.modes.cycleType = .copy then
      (0x00FFFFFFFFFCF279, ⟨Combiner.Flags.texturePresent⟩)
    else (scene.registers.render.mux, scene.registers.render.combinerFlags true)
  | .fill _ => (scene.registers.render.mux, scene.registers.render.combinerFlags false)

private def Request.TakesRegisters (scene : Scene) : Request → Prop
  | .draw key primitive =>
    key.shape ≠ .fills → primitive.combinerIn scene = scene.combinerFor key
  | _ => True

namespace Scene

variable (scene : Scene)

private theorem takesRegisters_triangleRequest (corners : Corners) :
    (scene.triangleRequest corners).TakesRegisters scene := by
  rcases scene.triangleRequest_cases corners with h | ⟨_, _, _, h⟩ <;> rw [h]
  · trivial
  · exact fun _ => rfl

private theorem takesRegisters_requests (instruction : Instruction) :
    ∀ request ∈ scene.requests instruction, request.TakesRegisters scene := by
  cases instruction with
  | triangle corners =>
    exact List.forall_mem_singleton.mpr (scene.takesRegisters_triangleRequest corners)
  | twoTriangles first second =>
    exact List.forall_mem_cons.mpr ⟨scene.takesRegisters_triangleRequest first,
      List.forall_mem_singleton.mpr (scene.takesRegisters_triangleRequest second)⟩
  | fillRect bounds =>
    rcases scene.fillRequests_cases bounds with h | ⟨_, h⟩ <;> rw [requests, h]
    · exact fun _ hnone => absurd hnone List.not_mem_nil
    · exact List.forall_mem_singleton.mpr fun hshape => absurd rfl hshape
  | texturedRect rect =>
    rcases scene.rectRequests_cases rect with h | ⟨key, primitive, h, hsuits, hslots, hshape,
      htextured, _, hcopied⟩ <;> rw [requests, h]
    · exact fun _ hnone => absurd hnone List.not_mem_nil
    · intro request hrequest
      rw [List.mem_singleton.mp hrequest]
      intro _
      rw [combinerFor, hcopied, htextured]
      simp only [decide_eq_true_eq]
      cases primitive with
      | triangle a b c => cases hslots
      | corners topLeft topRight bottomLeft bottomRight => rfl
      | rect area => rfl
      | fill area => exact absurd hsuits hshape
  | render change => exact List.forall_mem_singleton.mpr trivial
  | texture change => exact List.forall_mem_singleton.mpr trivial
  | _ => exact fun _ hnone => absurd hnone List.not_mem_nil

end Scene

private theorem Drawing.triangles_ne_nil {vertices : List Vertex} (hsome : vertices ≠ [])
    (hwhole : 3 ∣ vertices.length) : triangles vertices ≠ [] := by
  match vertices with
  | [] => exact absurd rfl hsome
  | [_] => simp at hwhole
  | [_, _] => simp at hwhole
  | _ :: _ :: _ :: _ => simp [triangles]

namespace Batch

variable {b : Batch} {command : Command}

private theorem drawings_ne_nil_of_command? (hb : b.Sound) (h : b.command? = some command) :
    command.drawings ≠ [] := by
  rcases command?_cases h with ⟨rfl, hsome⟩ | ⟨rfl, hsome⟩ | ⟨rfl, hsome⟩
  · exact Drawing.triangles_ne_nil hsome hb.whole
  · exact fun hnone => hsome (List.map_eq_nil_iff.mp hnone)
  · exact fun hnone => hsome (List.map_eq_nil_iff.mp hnone)

private theorem kind_of_fills (hb : b.Sound) (h : b.command? = some command)
    (hshape : b.key.shape = .fills) :
    command.kind = .fillRects := by
  rcases command?_cases h with ⟨_, hsome⟩ | ⟨_, hsome⟩ | ⟨rfl, _⟩
  · exact absurd (hb.vertices_eq_nil (by rw [hshape]; decide)) hsome
  · exact absurd (hb.rects_eq_nil (by rw [hshape]; decide)) hsome
  · rfl

end Batch

namespace Story

/-- A command draws what was added to its batch. Unless it fills, or something was refused while the
batch was opened, the renderer has the registers as they were for each of these primitives. -/
def Faithful (command : Command) (past : Story) : Prop :=
  ∃ o opening, past.opening? = some (o, opening) ∧
    past.waiting ≠ [] ∧ command.drawings = past.waiting.flatMap (·.2.drawings) ∧
    (command.kind ≠ .fillRects → (∀ a ∈ opening, a.refusal = none) →
      ∀ added ∈ past.waiting, ∀ told ∈ added.1.registerCommands (added.2.combinerIn added.1),
        lastAccepted? told.kind past.attempts = some told)

/-- The batch holds what was added since it was opened, all with the same registers. Unless something
was refused as it was opened, the renderer has them. -/
def BatchHasRegisters (render : RenderRegisters) (s : Story) (b : Batch) : Prop :=
  ∃ o opening, s.opening? = some (o, opening) ∧ s.waiting.flatMap (·.2.drawings) = b.drawings ∧
    (b.key.shape ≠ .fills →
      ((∀ a ∈ opening, a.refusal = none) → ∀ scene : Scene, scene.registers.render = render →
        ∀ told ∈ scene.registerCommands (scene.combinerFor b.key),
          lastAccepted? told.kind s.attempts = some told) ∧
      ∀ added ∈ s.waiting, added.1.registers.render = render ∧
        added.2.combinerIn added.1 = added.1.combinerFor b.key)

section Draws

variable {s : Story} {render : RenderRegisters} {b : Batch} {command : Command}

private theorem BatchHasRegisters.faithful (h : BatchHasRegisters render s b) (hb : b.Sound)
    (hcommand : b.command? = some command) : Faithful command s := by
  obtain ⟨o, opening, hopening, hdrawings, hregisters⟩ := h
  have hdraws := (hb.command hcommand).1
  refine ⟨o, opening, hopening, ?_, hdraws.trans hdrawings.symm, ?_⟩
  · intro hnone
    apply Batch.drawings_ne_nil_of_command? hb hcommand
    rw [hdraws, ← hdrawings, hnone]
    rfl
  · intro hkind hclean added hadded told htold
    have hshape : b.key.shape ≠ .fills := fun hfills => hkind (Batch.kind_of_fills hb hcommand hfills)
    obtain ⟨haccepted, hwaiting⟩ := hregisters hshape
    obtain ⟨hrender, hcombiner⟩ := hwaiting added hadded
    rw [hcombiner] at htold
    exact haccepted hclean added.1 hrender told htold

private theorem tellsRegisters_of_mem {scene : Scene} {combiner : UInt64 × Combiner.Flags}
    {told : Command}
    (h : told ∈ scene.registerCommands combiner) : told.kind.tellsRegisters = true := by
  simp only [Scene.registerCommands, List.mem_cons, List.not_mem_nil, or_false] at h
  rcases h with rfl | rfl | rfl <;> rfl

private theorem BatchHasRegisters.drawn (h : BatchHasRegisters render s b)
    (hcommand : b.command? = some command) (refusal : Option PoolError) :
    BatchHasRegisters render (.attempted ⟨command, refusal⟩ :: s) b.emptied := by
  obtain ⟨o, opening, hopening, _, hregisters⟩ := h
  have hwaiting : waiting (.attempted ⟨command, refusal⟩ :: s) = [] :=
    if_pos (Batch.draws_of_command? hcommand)
  refine ⟨o, opening, hopening, ?_, fun hshape => ⟨fun hclean scene hscene told htold => ?_, ?_⟩⟩
  · rw [hwaiting]
    rfl
  -- A draw tells nothing of registers, so that what was accepted last stays the same.
  · have hne : command.kind ≠ told.kind := by
      intro hsame
      have htells := DeliverM.kind_of_command? hcommand
      rw [hsame, tellsRegisters_of_mem htold] at htells
      cases htells
    rw [attempts_attempted, lastAccepted?_append]
    simp only [beq_false_of_ne hne, Bool.and_false, Bool.false_eq_true, if_false]
    exact (hregisters hshape).1 hclean scene hscene told htold
  · rw [hwaiting]
    exact fun _ hnone => absurd hnone List.not_mem_nil

private theorem grounds_faithful (render : RenderRegisters) : Grounds Faithful
    (BatchHasRegisters render) :=
  ⟨BatchHasRegisters.faithful, BatchHasRegisters.drawn⟩

private theorem BatchHasRegisters.add (h : BatchHasRegisters render s b) {scene : Scene}
    {primitive : Primitive} (hrender : scene.registers.render = render)
    (hcombiner : b.key.shape ≠ .fills → primitive.combinerIn scene = scene.combinerFor b.key)
    (hdrawings : (b.add primitive).drawings = b.drawings ++ primitive.drawings) :
    BatchHasRegisters render (.recorded scene primitive :: s) (b.add primitive) := by
  obtain ⟨o, opening, hopening, hwaiting, hregisters⟩ := h
  have hkey : (b.add primitive).key = b.key := by cases primitive <;> rfl
  refine ⟨o, opening, hopening, ?_, fun hshape => ?_⟩
  · change (s.waiting ++ [(scene, primitive)]).flatMap _ = _
    rw [List.flatMap_append, hwaiting, List.flatMap_singleton, hdrawings]
  · rw [hkey] at hshape ⊢
    refine ⟨(hregisters hshape).1, List.forall_mem_append.mpr ⟨(hregisters hshape).2, ?_⟩⟩
    exact List.forall_mem_singleton.mpr ⟨hrender, hcombiner hshape⟩

end Draws

end Story

namespace DeliverM

open Story

variable {o : Outlet σ} {s : Story} {link : Link (Traced σ)}

/-- A batch that is opened holds nothing yet, and the renderer has its registers unless something was
refused. -/
theorem gives_openBatch_recordsBatch (ho : o.Forgiving) (scene : Scene) (key : BatchKey)
    (hsound : ∀ b, link.delivery.batch = some b → b.Sound) (hremembers : link.Remembers)
    (h : s.RecordsBatch Faithful (BatchHasRegisters scene.registers.render) link) :
    Gives (openBatch o.traced scene key) link fun _ after =>
      (s.withOpening ⟨scene, key⟩ link after).RecordsBatch Faithful
        (BatchHasRegisters scene.registers.render) after ∧
        after.Remembers := by
  by_cases hkey : link.delivery.batch.map (·.key) = some key
  · apply gives_look
    rw [if_neg (not_not_intro hkey)]
    apply gives_pure
    rw [withOpening, if_pos hkey]
    exact ⟨h, hremembers⟩
  · refine ((gives_openBatch_recordsDraws ho (grounds_faithful _) scene hkey hsound h.upTo).and
      (gives_openBatch_knows ho hremembers scene hkey)).imp ?_
    rintro _ after ⟨⟨hrecords, hbatch⟩, hknows⟩
    refine ⟨?_, hknows.remembers⟩
    rw [withOpening, if_neg hkey]
    refine ⟨⟨hrecords.attempts, hrecords.draws⟩, fun b hb => ?_⟩
    rw [hbatch] at hb
    cases hb
    refine ⟨_, _, rfl, rfl, fun hshape => ⟨fun hclean other hother told htold => ?_, ?_⟩⟩
    · rw [if_pos hshape] at hknows
      rw [Scene.registerCommands_congr hother] at htold
      rw [show attempts (.opened _ _ :: s.upTo after.sink) = after.sink.attempts from
        hrecords.attempts]
      exact hknows.accepted hclean told htold
    · exact fun _ hnone => absurd hnone List.not_mem_nil

end DeliverM

namespace Story

open DeliverM

structure KnowsRegisters (s : Story) (render : RenderRegisters) (link : Link (Traced σ)) :
    Prop where
  records : s.RecordsBatch Faithful (BatchHasRegisters render) link
  remembers : link.Remembers

private theorem RecordsDraws.knowsRegisters {s : Story} {link : Link (Traced σ)}
    (h : s.RecordsDraws Faithful link)
    (hremembers : link.Remembers) (hnone : link.delivery.batch = none) (render : RenderRegisters) :
    s.KnowsRegisters render link :=
  ⟨⟨h, fun _ hb => absurd (hnone.symm.trans hb) nofun⟩, hremembers⟩

private theorem gives_knowsRegisters {α : Type} {s : Story} {link : Link (Traced σ)}
    {x : DeliverM (Traced σ) α} {render : RenderRegisters} (hrecords : Gives x link fun _ after =>
      (s.upTo after.sink).RecordsDraws Faithful after ∧ after.delivery.batch = none)
    (hremembers : Gives x link fun _ after => after.Remembers) :
    Gives x link fun _ after => (s.upTo after.sink).KnowsRegisters render after :=
  (hrecords.and hremembers).imp fun _ _ hafter => hafter.1.1.knowsRegisters hafter.2 hafter.1.2 render

private theorem KnowsRegisters.congr {s : Story} {render : RenderRegisters}
    {link after : Link (Traced σ)}
    (h : s.KnowsRegisters render link) (hbatch : after.delivery.batch = link.delivery.batch)
    (htold : after.delivery.told.command? = link.delivery.told.command?)
    (hsink : after.sink = link.sink) : s.KnowsRegisters render after :=
  ⟨⟨⟨hsink ▸ h.records.attempts, h.records.draws⟩, hbatch ▸ h.records.batch⟩,
    (h.remembers.knows.congr hsink htold).remembers⟩

private theorem RecordsDraws.changed {s : Story} {P : Command → Story → Prop}
    {link : Link (Traced σ)} (h : s.RecordsDraws P link) : RecordsDraws (.changed :: s) P link :=
  ⟨h.attempts, h.draws⟩

theorem preserved_knowsRegisters {o : Outlet σ} (ho : o.Forgiving) :
    Preserved o fun s _ render link => s.KnowsRegisters render link where
  attempts h := h.records.attempts
  congr h hdelivery hsink :=
    h.congr (congrArg _ hdelivery) (congrArg (·.told.command?) hdelivery) hsink
  close {s texture render link} h hlink := by
    refine gives_knowsRegisters ?_
      (keeps_remembers (fun _ => keeps_closeBatch_knows ho) link h.remembers)
    exact gives_closeBatch_recordsDraws ho (grounds_faithful render) (fun _ => hlink.sound)
      h.records.upTo
  settle {s texture render link} h hlink := by
    refine gives_knowsRegisters ?_ (keeps_remembers (fun _ => keeps_settle_knows ho) link h.remembers)
    exact gives_settle_recordsDraws ho (grounds_faithful render) (fun _ => hlink.sound) h.records.upTo
  draw {s scene link instruction key primitive} h hlink hrequest := by
    obtain ⟨⟨_, _, hd⟩, hroom⟩ := hlink
    have htakes := scene.takesRegisters_requests instruction _ hrequest
    have hopen := gives_openBatch_recordsBatch ho scene key hd.sound h.remembers h.records
    have hrecords := gives_draw_recordsBatch ho (grounds_faithful scene.registers.render) scene
      (scene.suits_requests instruction _ hrequest) hd hroom (hopen.imp fun _ _ hafter => hafter.1)
      fun hb hkey => hb.add rfl (hkey ▸ htakes)
    have hremembers : Gives (DeliverM.draw o.traced scene key primitive) link fun _ after =>
        after.Remembers :=
      gives_draw_keeps primitive (hopen.imp fun _ _ hafter => hafter.2)
        (keeps_remembers fun _ => keeps_drawBatch_knows ho)
        (fun _ hf => keeps_remembers fun _ => keeps_update_knows (told_of_ofBatch hf))
        fun f => keeps_remembers fun _ => keeps_count_knows f
    exact (hrecords.and hremembers).imp fun _ _ hafter => ⟨hafter.1, hafter.2⟩
  render h hnone later := h.records.toRecordsDraws.knowsRegisters h.remembers hnone later
  texture {s texture render link} h hnone _ _ _ _ :=
    h.records.toRecordsDraws.changed.knowsRegisters h.remembers hnone render |>.congr rfl rfl rfl
  notify {s texture render link} h hnone _ :=
    h.records.toRecordsDraws.changed.knowsRegisters h.remembers hnone render |>.congr rfl rfl rfl
  endFrame {s texture render link} h hnone := by
    refine gives_knowsRegisters ?_
      (keeps_remembers (fun _ => keeps_submit_knows ho rfl) link h.remembers)
    exact (keeps_submit_recordsDraws ho rfl).and (keeps_submit_batch ho.traced _ none) link
      ⟨h.records.toRecordsDraws, hnone⟩

end Story

namespace Narrated

/-- The story tells all that was submitted, and every draw was faithful. As long as nothing is refused,
the renderer is not told the same registers twice. -/
structure Faithful (n : Narrated σ) : Prop where
  attempts : n.story.attempts = n.trace.attempts
  draws : n.story.AtDraws Story.Faithful
  once : (∀ a ∈ n.trace.attempts, a.refusal = none) → ∀ kind, kind.tellsRegisters = true →
    NeverRepeats kind n.trace.attempts

theorem knowsRegisters_start (settings : ListSettings) (sink : σ) :
    Story.KnowsRegisters [] (Registers.initial settings).render
      (⟨{}, {}, sink, []⟩ : Link (Traced σ)) where
  records := ⟨⟨rfl, trivial⟩, nofun⟩
  remembers := by
    refine ⟨fun kind command htold => ?_, fun _ kind _ => ?_, fun _ kind _ => ?_⟩
    · change Told.command? {} kind = some command at htold
      rw [Told.command?_forgotten] at htold
      cases htold
    · exact (Told.command?_forgotten kind).symm
    · exact fun earlier a later hsplit => absurd hsplit (by simp)

/-- After any calls of a host, through an outlet none of whose refusals is final, every draw found the
registers told last to be those that its primitives were added with, unless something was refused while
its batch was opened. If nothing at all was refused, no register was told twice in a row. -/
theorem serveAll_faithful {o : Outlet σ} (ho : o.Forgiving) (settings : ListSettings) (sink : σ)
    (calls : List HostCall) : ((start settings sink).serveAll o calls).Faithful := by
  have h := (rests_serveAll (Story.preserved_knowsRegisters ho) ho settings sink
    (knowsRegisters_start settings sink) calls).kept
  exact ⟨h.records.attempts, h.records.draws, h.remembers.once⟩

/-- A rectangle, a change of a color, and the rectangle again. -/
def twoRectsRam : Ram where
  bytes := ⟨([0xE4010010, 0, 0xE1000000, 0, 0xF1000000, 0x04000400, 0xFB000000, 0xFF0000FF,
    0xE4010010, 0, 0xE1000000, 0, 0xF1000000, 0x04000400, 0xDF000000, 0].flatMap
      Word.be32).toArray⟩
  logSize := 6
  size_eq := by decide +kernel
  logSize_le := by decide

/-- After a refusal all registers are told again. -/
theorem serveAll_faithful_twoRects :
    (Outlet.refusingOnly 1).Forgiving ∧
      ((start {} 0).serveAll (.refusingOnly 1) [.run twoRectsRam 0, .endFrame]).Faithful ∧
      ((start {} 0).serveAll (.refusingOnly 1) [.run twoRectsRam 0, .endFrame]).trace.attempts.map
          (fun a => (a.command.kind, a.refusal.isNone)) =
        [(.setCombine, true), (.setOtherModes, false), (.setColors, true), (.drawRects, true),
          (.setCombine, true), (.setOtherModes, true), (.setColors, true), (.drawRects, true),
          (.endFrame, true)] := by
  refine ⟨Outlet.refusingOnly_forgiving 1, ?_, by decide +kernel⟩
  exact serveAll_faithful (Outlet.refusingOnly_forgiving 1) {} 0 [.run twoRectsRam 0, .endFrame]

end Narrated

end DisplayPipeline
