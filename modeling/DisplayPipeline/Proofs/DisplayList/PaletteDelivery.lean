import DisplayPipeline.Proofs.DisplayList.RegisterDelivery
import DisplayPipeline.Proofs.DisplayList.TextureSupply

/-!
# Draws with the palette of their supplier

As long as nothing is refused, a textured draw samples what its supplier asked for. The palette of
loaded indices is therefore in the encoding that the supplier's modes select. The modes that the
renderer was told last are those of the draw itself, and they select the same encoding only if it did
not change since the supplier.
-/

namespace DisplayPipeline

variable {σ : Type}

/-- The encoding of the palette that the first texture unit was loaded with last. -/
def lastPalette? (attempts : List Attempt) : Option PaletteFormat :=
  match latest? (fun c => c.kind == .loadTexture && c.textureUnit? == some 0) attempts with
  | some (.loadTexture load) => load.source.palette.map (·.format)
  | _ => none

private theorem latest?_of_latest? {p q : Command → Bool} {attempts : List Attempt}
    {command : Command} (h : latest? p attempts = some command) (hq : q command = true)
    (himp : ∀ c, q c = true → p c = true) : latest? q attempts = some command := by
  obtain ⟨a, ha, rfl⟩ := Option.map_eq_some_iff.mp h
  obtain ⟨before, hbefore⟩ := List.getLast?_eq_some_iff.mp ha
  have hfilter : attempts.filter (fun a => a.refusal.isNone && q a.command) =
      (attempts.filter fun a => a.refusal.isNone && p a.command).filter fun a =>
        a.refusal.isNone && q a.command := by
    rw [List.filter_filter]
    apply List.filter_congr
    intro b _
    cases hqb : q b.command with
    | false => simp
    | true => simp [himp _ hqb]
  have haccepted : a.refusal.isNone = true := by
    have hmem : a ∈ attempts.filter fun a => a.refusal.isNone && p a.command :=
      List.mem_of_getLast? ha
    exact (Bool.and_eq_true_iff.mp (List.mem_filter.mp hmem).2).1
  rw [latest?, hfilter, hbefore, List.filter_append, List.filter_cons, haccepted, hq]
  simp

private theorem lastPalette?_of_lastGiven? {attempts : List Attempt} {source : TextureSource}
    (h : lastGiven? 0 attempts = some (.loadTexture ⟨0, source⟩)) :
    lastPalette? attempts = source.palette.map (·.format) := by
  have hlatest : latest? (fun c => c.kind == .loadTexture && c.textureUnit? == some 0) attempts =
      some (.loadTexture ⟨0, source⟩) :=
    latest?_of_latest? h rfl fun c hc => (Bool.and_eq_true_iff.mp hc).2
  rw [lastPalette?, hlatest]

namespace Story

/-- The textured batches since the last change, the latest first. -/
def texturedSince : Story → List Opening
  | [] => []
  | .attempted _ :: s => texturedSince s
  | .changed :: _ => []
  | .opened o _ :: s => if o.isTextured then o :: texturedSince s else texturedSince s
  | .recorded _ _ :: s => texturedSince s

/-- The batch was opened last, and its primitives were added with the registers that it was opened
with. As long as nothing is refused, a textured one has a supplier, opened with the same texture
registers for the same tile, and what that asked for was given last. -/
structure Supplies (s : Story) (o : Opening) (opening : List Attempt) : Prop where
  opened : s.opening? = some (o, opening)
  attempts : ∀ a ∈ opening, a ∈ s.attempts
  waiting : ∀ added ∈ s.waiting, added.1.registers.texture = o.scene.registers.texture ∧
    added.1.registers.render = o.scene.registers.render
  bounded : o.scene.registers.texture.Bounded
  supplier : o.isTextured = true → (∀ a ∈ s.attempts, a.refusal = none) →
    ∃ supplier, Opening.supplier? s.texturedSince = some supplier ∧
      supplier.key.tile = o.key.tile ∧
      supplier.scene.registers.texture = o.scene.registers.texture ∧
      ∀ command, supplier.scene.textureCommand? 0 supplier.key.tile = some command →
        lastGiven? 0 s.attempts = some command

/-- A command draws a batch that is supplied, and fills only if the batch is not textured. -/
def SuppliedDraw (command : Command) (past : Story) : Prop :=
  ∃ o opening, past.Supplies o opening ∧ (o.isTextured = true → command.kind ≠ .fillRects)

def SuppliesBatch (texture : TextureRegisters) (render : RenderRegisters) (s : Story)
    (b : Batch) : Prop :=
  ∃ o opening, s.Supplies o opening ∧ o.key = b.key ∧ o.scene.registers.texture = texture ∧
    o.scene.registers.render = render

section Lemmas

variable {s : Story} {o : Opening} {opening : List Attempt}

@[simp] theorem texturedSince_hear (s : Story) (attempts : List Attempt) :
    (s.hear attempts).texturedSince = s.texturedSince := by
  induction attempts generalizing s with
  | nil => rfl
  | cons a attempts ih => exact ih (.attempted a :: s)

@[simp] theorem texturedSince_upTo (s : Story) (trace : Traced σ) :
    (s.upTo trace).texturedSince = s.texturedSince :=
  texturedSince_hear s _

private theorem Supplies.drawn (h : s.Supplies o opening) {command : Command}
    (hdraws : command.draws = true) (refusal : Option PoolError) :
    Supplies (.attempted ⟨command, refusal⟩ :: s) o opening where
  opened := h.opened
  attempts a ha := by
    rw [attempts_attempted]
    exact List.mem_append_left _ (h.attempts a ha)
  waiting := by
    have hwaiting : Story.waiting (.attempted ⟨command, refusal⟩ :: s) = [] := if_pos hdraws
    rw [hwaiting]
    exact fun _ hnone => absurd hnone List.not_mem_nil
  bounded := h.bounded
  supplier htextured hclean := by
    have hunit : command.textureUnit? ≠ some 0 := by
      rw [Command.textureUnit?_of_draws hdraws]
      exact (Option.some_ne_none 0).symm
    rw [attempts_attempted] at hclean ⊢
    rw [lastGiven?_append_of_ne (a := ⟨command, refusal⟩) hunit]
    exact h.supplier htextured fun a ha => hclean a (List.mem_append_left _ ha)

private theorem Supplies.add (h : s.Supplies o opening) {scene : Scene} (primitive : Primitive)
    (htexture : scene.registers.texture = o.scene.registers.texture)
    (hrender : scene.registers.render = o.scene.registers.render) :
    Supplies (.recorded scene primitive :: s) o opening where
  opened := h.opened
  attempts := h.attempts
  waiting := List.forall_mem_append.mpr
    ⟨h.waiting, List.forall_mem_singleton.mpr ⟨htexture, hrender⟩⟩
  bounded := h.bounded
  supplier := h.supplier

private theorem SuppliesBatch.add {scene : Scene} {b : Batch}
    (h : SuppliesBatch scene.registers.texture scene.registers.render s b) (primitive : Primitive) :
    SuppliesBatch scene.registers.texture scene.registers.render (.recorded scene primitive :: s)
      (b.add primitive) := by
  obtain ⟨o, attempts, hsupplies, hkey, htexture, hrender⟩ := h
  refine ⟨o, attempts, hsupplies.add primitive htexture.symm hrender.symm, ?_, htexture, hrender⟩
  rw [hkey]
  cases primitive <;> rfl

private theorem grounds_suppliedDraw (texture : TextureRegisters) (render : RenderRegisters) :
    Grounds SuppliedDraw (SuppliesBatch texture render) where
  draw := by
    rintro s b command ⟨o, opening, h, hkey, _, _⟩ hb hcommand
    refine ⟨o, opening, h, fun htextured hkind => ?_⟩
    rcases Batch.command?_cases hcommand with ⟨rfl, _⟩ | ⟨rfl, _⟩ | ⟨rfl, hfills⟩
    · cases hkind
    · cases hkind
    · rw [Opening.isTextured, hkey, hb.fills hfills] at htextured
      cases htextured
  drawn := by
    rintro s b command ⟨o, opening, h, hregisters⟩ hcommand refusal
    exact ⟨o, opening, h.drawn (Batch.draws_of_command? hcommand) refusal, hregisters⟩

end Lemmas

/-- A story goes along with what is known of the first texture unit. -/
structure Stocks (s : Story) (texture : TextureRegisters) (render : RenderRegisters)
    (link : Link (Traced σ)) : Prop where
  records : s.RecordsBatch SuppliedDraw (SuppliesBatch texture render) link
  stocked : link.Stocked s.texturedSince
  registers : ∀ o ∈ s.texturedSince, o.scene.registers.texture = texture
  bounded : texture.Bounded

end Story

namespace DeliverM

open Story

variable {o : Outlet σ} {s : Story} {link : Link (Traced σ)}

private theorem gives_openBatch_supplies (ho : o.Forgiving) (opening : Opening)
    (hlink : link.Orderly)
    (h : s.Stocks opening.scene.registers.texture opening.scene.registers.render link) :
    Gives (openBatch o.traced opening.scene opening.key) link fun _ after =>
      let later := s.withOpening opening link after
      later.RecordsBatch SuppliedDraw (SuppliesBatch opening.scene.registers.texture
          opening.scene.registers.render) after ∧
        after.Stocked (s.withOpening opening link link).texturedSince := by
  -- With a batch for the same key nothing happens; any other is told before the new one is opened.
  by_cases hkey : link.delivery.batch.map (·.key) = some opening.key
  · apply gives_look
    rw [if_neg (not_not_intro hkey)]
    apply gives_pure
    simp only [withOpening, if_pos hkey]
    exact ⟨h.records, h.stocked⟩
  · refine ((gives_openBatch_recordsDraws ho (grounds_suppliedDraw _ _) opening.scene hkey
      (fun _ => hlink.sound) h.records.upTo).and
      (gives_openBatch_stocked ho opening hkey h.stocked)).imp ?_
    rintro _ after ⟨⟨hdraws, hbatch⟩, hstocked⟩
    simp only [withOpening, if_neg hkey, texturedSince, texturedSince_upTo]
    refine ⟨⟨⟨hdraws.attempts, hdraws.draws⟩, fun b hb => ?_⟩, hstocked⟩
    rw [hbatch] at hb
    cases hb
    have hattempts : attempts (.opened opening
        (after.sink.attempts.drop link.sink.attempts.length) :: s.upTo after.sink) =
          after.sink.attempts := hdraws.attempts
    refine ⟨opening, _, ⟨rfl, ?_, ?_, h.bounded, ?_⟩, rfl, rfl, rfl⟩
    · rw [hattempts]
      exact fun a ha => List.mem_of_mem_drop ha
    · exact fun _ hnone => absurd hnone List.not_mem_nil
    · intro htextured hclean
      rw [hattempts] at hclean ⊢
      rw [if_pos htextured] at hstocked
      have hsupplied := hstocked hclean
      obtain ⟨supplier, hmem, hsupplier, htile⟩ :=
        Opening.exists_supplier (List.head?_cons : (opening :: s.texturedSince).head? = _)
      refine ⟨supplier, ?_, htile, ?_, hsupplied.given supplier hsupplier⟩
      · simp only [texturedSince, htextured, if_true, texturedSince_upTo]
        exact hsupplier
      -- Texture registers did not change since any of these batches.
      · rcases List.mem_cons.mp hmem with rfl | hmem
        · rfl
        · exact h.registers supplier hmem

end DeliverM

namespace Story

open DeliverM

section Steps

variable {o : Outlet σ} {s : Story} {texture : TextureRegisters} {render : RenderRegisters}
  {link : Link (Traced σ)}

private theorem RecordsDraws.stocks (h : s.RecordsDraws SuppliedDraw link)
    (hnone : link.delivery.batch = none) (hstocked : link.Stocked s.texturedSince)
    (hregisters : ∀ o ∈ s.texturedSince, o.scene.registers.texture = texture)
    (hbounded : texture.Bounded) (render : RenderRegisters) : s.Stocks texture render link :=
  ⟨⟨h, fun _ hb => absurd (hnone.symm.trans hb) nofun⟩, hstocked, hregisters, hbounded⟩

private theorem gives_stocks {α : Type} {x : DeliverM (Traced σ) α}
    (hregisters : ∀ o ∈ s.texturedSince, o.scene.registers.texture = texture)
    (hbounded : texture.Bounded)
    (hdraws : Gives x link fun _ after =>
      (s.upTo after.sink).RecordsDraws SuppliedDraw after ∧ after.delivery.batch = none)
    (hstocked : Gives x link fun _ after => after.Stocked s.texturedSince) :
    Gives x link fun _ after => (s.upTo after.sink).Stocks texture render after := by
  refine (hdraws.and hstocked).imp ?_
  rintro _ after ⟨⟨hdraws, hnone⟩, hstocked⟩
  rw [← texturedSince_upTo s after.sink] at hstocked hregisters
  exact hdraws.stocks hnone hstocked hregisters hbounded render

private theorem Stocks.changed (h : s.Stocks texture render link) (d : Delivery)
    (hnone : d.batch = none)
    (houtdated : outdated d = true) {later : TextureRegisters} (hbounded : later.Bounded) :
    Stocks (.changed :: s) later render { link with delivery := d } := by
  have hdraws : RecordsDraws (.changed :: s) SuppliedDraw { link with delivery := d } :=
    ⟨h.records.attempts, h.records.draws⟩
  refine hdraws.stocks hnone (Link.stocked_nil houtdated) ?_ hbounded render
  exact fun _ hmem => absurd hmem List.not_mem_nil

private theorem texturedSince_watch_draw (scene : Scene) (key : BatchKey) (primitive : Primitive) :
    (watch o scene (.draw key primitive) link s).texturedSince =
      (s.withOpening ⟨scene, key⟩ link link).texturedSince := by
  simp only [watch, texturedSince_upTo, texturedSince, withOpening]
  split
  · rfl
  · simp only [texturedSince, texturedSince_upTo]

private theorem registers_withOpening {opening : Opening}
    (h : ∀ o ∈ s.texturedSince, o.scene.registers.texture = opening.scene.registers.texture) :
    ∀ o ∈ (s.withOpening opening link link).texturedSince,
      o.scene.registers.texture = opening.scene.registers.texture := by
  unfold withOpening
  split
  · exact h
  · simp only [texturedSince, texturedSince_upTo]
    split
    · exact List.forall_mem_cons.mpr ⟨rfl, h⟩
    · exact h

private theorem preserved_stocks (ho : o.Forgiving) : Preserved o Stocks where
  attempts h := h.records.attempts
  congr {s texture render link after} h hdelivery hsink := by
    refine ⟨⟨⟨hsink ▸ h.records.attempts, h.records.draws⟩, hdelivery ▸ h.records.batch⟩, ?_,
      h.registers, h.bounded⟩
    exact h.stocked.congr (congrArg _ hdelivery) (congrArg _ hdelivery)
      (congrArg (·.told.tiles) hdelivery) hsink
  close {s texture render link} h hlink := by
    refine gives_stocks h.registers h.bounded ?_ ?_
    · exact gives_closeBatch_recordsDraws ho (grounds_suppliedDraw texture render)
        (fun _ => hlink.sound) h.records.upTo
    · exact keeps_closeBatch_stocked ho link h.stocked
  settle {s texture render link} h hlink := by
    refine gives_stocks h.registers h.bounded ?_ ?_
    · exact gives_settle_recordsDraws ho (grounds_suppliedDraw texture render) (fun _ => hlink.sound)
        h.records.upTo
    · exact (gives_settle_stocked ho h.stocked).imp fun _ _ hafter => hafter.1
  draw {s scene link instruction key primitive} h hlink hrequest := by
    obtain ⟨⟨_, _, hd⟩, hroom⟩ := hlink
    let opening : Opening := ⟨scene, key⟩
    let textured := (s.withOpening opening link link).texturedSince
    have hopen := gives_openBatch_supplies ho opening ⟨⟨_, _, hd⟩, hroom⟩ h
    have hrecords := gives_draw_recordsBatch ho (grounds_suppliedDraw scene.registers.texture
      scene.registers.render) scene (scene.suits_requests instruction _ hrequest) hd hroom
      (hopen.imp fun _ _ hafter => hafter.1) fun hb _ _ => hb.add primitive
    have hstocked : Gives (DeliverM.draw o.traced scene key primitive) link fun _ after =>
        after.Stocked textured :=
      gives_draw_keeps primitive (hopen.imp fun _ _ hafter => hafter.2)
        (keeps_drawBatch_stocked ho) (fun _ hf => keeps_update_batch_stocked hf) keeps_count_stocked
    refine (hrecords.and hstocked).imp ?_
    rintro _ after ⟨hrecords, hstocked⟩
    refine ⟨hrecords, ?_, ?_, h.bounded⟩
    · rw [texturedSince_watch_draw]
      exact hstocked
    · rw [texturedSince_watch_draw]
      exact registers_withOpening h.registers
  render h hnone later := h.records.toRecordsDraws.stocks hnone h.stocked h.registers h.bounded later
  texture {s texture render link} h hnone ram segments _ hchange :=
    h.changed { link.delivery with texturesStale := true } hnone rfl
      (h.bounded.apply ram segments hchange)
  notify {s texture render link} h hnone write :=
    h.changed { link.delivery with writes := link.delivery.writes ++ [write] } hnone
      (by simp [outdated]) h.bounded
  endFrame {s texture render link} h hnone := by
    have hregisters := h.registers
    have hstocked := h.stocked
    rw [texturedSince_upTo] at hregisters hstocked
    have hunit : Command.endFrame.textureUnit? ≠ some 0 := (Option.some_ne_none 0).symm
    refine gives_stocks hregisters h.bounded ?_ ?_
    · exact (keeps_submit_recordsDraws ho rfl).and (keeps_submit_batch ho.traced _ none) link
        ⟨h.records.toRecordsDraws, hnone⟩
    · exact keeps_submit_stocked ho hunit link hstocked

end Steps

/-- The palette that was loaded last is in the encoding that the modes told last select. -/
def PaletteFollowsModes (past : Story) : Prop :=
  ∃ high low, lastAccepted? .setOtherModes past.attempts = some (.setOtherModes high low) ∧
    lastPalette? past.attempts = some (Modes.paletteFormatOf high)

/-- What is drawn was added with the registers that the batch was opened with. If loaded indices are
sampled and nothing was refused, the renderer was told the modes in force last. What it samples is what
the supplier asked for. Unless that was a part of the render target, the palette is in the encoding in
force for the supplier, so that it follows the modes exactly if the encoding is still the same. -/
def SamplesSupplier (_ : Command) (past : Story) : Prop :=
  ∃ o opening, past.opening? = some (o, opening) ∧ past.waiting ≠ [] ∧
    (∀ added ∈ past.waiting, added.1.registers.texture = o.scene.registers.texture ∧
      added.1.registers.render = o.scene.registers.render) ∧
    (o.isTextured = true → (∀ a ∈ past.attempts, a.refusal = none) →
      o.scene.registers.texture.samplesIndices o.key.tile = true →
      lastAccepted? .setOtherModes past.attempts =
          some (.setOtherModes o.scene.registers.render.modes.high
            o.scene.registers.render.modes.low) ∧
        ∃ supplier, Opening.supplier? past.texturedSince = some supplier ∧
          (supplier.scene.imageOf? o.key.tile = none →
            lastPalette? past.attempts = some supplier.scene.registers.render.modes.paletteFormat ∧
              (past.PaletteFollowsModes ↔ supplier.scene.registers.render.modes.paletteFormat =
                o.scene.registers.render.modes.paletteFormat)) ∧
          ∀ image, supplier.scene.imageOf? o.key.tile = some image →
            ∃ capture, lastGiven? 0 past.attempts = some (.captureColorBuffer capture))

private theorem Faithful.samplesSupplier {command : Command} {past : Story}
    (h : Faithful command past)
    (hsupplied : SuppliedDraw command past) : SamplesSupplier command past := by
  obtain ⟨o, opening, hsupplies, hkind⟩ := hsupplied
  obtain ⟨o', opening', hopened, hwaiting, _, hregisters⟩ := h
  obtain ⟨rfl, rfl⟩ := Prod.mk.inj (Option.some.inj (hsupplies.opened.symm.trans hopened))
  refine ⟨o, opening, hopened, hwaiting, hsupplies.waiting, fun htextured hclean hindices => ?_⟩
  -- The modes were told for some primitive, and so for all of them.
  have hmodes : lastAccepted? .setOtherModes past.attempts =
      some (.setOtherModes o.scene.registers.render.modes.high
        o.scene.registers.render.modes.low) := by
    obtain ⟨added, hadded⟩ := List.exists_mem_of_ne_nil _ hwaiting
    rw [← (hsupplies.waiting added hadded).2]
    exact hregisters (hkind htextured) (fun a ha => hclean a (hsupplies.attempts a ha)) added hadded
      _ (List.mem_cons_of_mem _ List.mem_cons_self)
  refine ⟨hmodes, ?_⟩
  obtain ⟨supplier, hsupplier, htile, htexture, hgiven⟩ := hsupplies.supplier htextured hclean
  rw [← htexture] at hindices
  rw [htile] at hgiven
  refine ⟨supplier, hsupplier, fun himage => ?_, fun image himage => ?_⟩
  · obtain ⟨source, hcommand, hpalette⟩ :=
      Scene.textureCommand?_of_indices (htexture ▸ hsupplies.bounded) hindices himage 0
    have hlast := lastPalette?_of_lastGiven? (hgiven _ hcommand)
    rw [hpalette] at hlast
    refine ⟨hlast, ?_, fun hsame => ?_⟩
    · rintro ⟨high, low, htold, hrecords⟩
      cases Option.some.inj (htold.symm.trans hmodes)
      exact Option.some.inj (hlast.symm.trans hrecords)
    · exact ⟨_, _, hmodes, hlast.trans (congrArg some hsame)⟩
  · obtain ⟨capture, hcommand⟩ := Scene.textureCommand?_of_image hindices himage 0
    exact ⟨capture, hgiven _ hcommand⟩

private theorem AtDraws.map₂ {P Q R : Command → Story → Prop} {s : Story} (hP : s.AtDraws P)
    (hQ : s.AtDraws Q) (h : ∀ {command past}, P command past → Q command past → R command past) :
    s.AtDraws R := by
  induction s with
  | nil => trivial
  | cons event s ih =>
    cases event with
    | attempted a => exact ⟨fun hdraws => h (hP.1 hdraws) (hQ.1 hdraws), ih hP.2 hQ.2⟩
    | _ => exact ih hP hQ

end Story

namespace Narrated

/-- The story tells all that was submitted, and every draw samples what its supplier asked for. -/
structure SamplesSuppliers (n : Narrated σ) : Prop where
  attempts : n.story.attempts = n.trace.attempts
  draws : n.story.AtDraws Story.SamplesSupplier

private theorem stocks_start (settings : ListSettings) (sink : σ) :
    Story.Stocks [] {} (Registers.initial settings).render
      (⟨{}, {}, sink, []⟩ : Link (Traced σ)) where
  records := ⟨⟨rfl, trivial⟩, nofun⟩
  stocked := Link.stocked_nil rfl
  registers _ hnone := absurd hnone List.not_mem_nil
  bounded := TextureRegisters.bounded_initial

/-- After any calls of a host, through an outlet none of whose refusals is final, the story tells all
that was submitted. At each draw of a textured batch that samples loaded indices, and with nothing
refused so far, the modes told last are those of the batch. It samples what its supplier asked for, with
the palette in the encoding that was in force for the supplier. -/
theorem serveAll_samplesSuppliers {o : Outlet σ} (ho : o.Forgiving) (settings : ListSettings)
    (sink : σ) (calls : List HostCall) :
    ((start settings sink).serveAll o calls).SamplesSuppliers := by
  have hregisters := (rests_serveAll (Story.preserved_knowsRegisters ho) ho settings sink
    (knowsRegisters_start settings sink) calls).kept
  have hsupplies := (rests_serveAll (Story.preserved_stocks ho) ho settings sink
    (stocks_start settings sink) calls).kept
  exact ⟨hsupplies.records.attempts, hregisters.records.draws.map₂ hsupplies.records.draws
    Story.Faithful.samplesSupplier⟩

/-- A rectangle of palette indices, a change of the encoding of the palette, and the rectangle
again. -/
def encodingSwitchRam : Ram where
  bytes := ⟨([0xFD500000, 0x60, 0xF5400000, 0, 0xF3000000, 0,
    0xE4010010, 0, 0xE1000000, 0, 0xF1000000, 0x04000400, 0xE3001001, 0xC000,
    0xE4010010, 0, 0xE1000000, 0, 0xF1000000, 0x04000400, 0xDF000000, 0, 0, 0, 0x11000000, 0,
    0, 0, 0, 0, 0, 0].flatMap Word.be32).toArray⟩
  logSize := 7
  size_eq := by decide +kernel
  logSize_le := by decide

theorem serveAll_samplesSuppliers_encodingSwitch :
    Outlet.accepting.Forgiving ∧
      ((start {} ()).serveAll .accepting [.run encodingSwitchRam 0]).SamplesSuppliers ∧
      ((start {} ()).serveAll .accepting [.run encodingSwitchRam 0]).trace.attempts.map
          (·.command.kind) =
        [.setCombine, .setOtherModes, .setColors, .loadTexture, .drawRects, .setOtherModes,
          .drawRects] := by
  refine ⟨Outlet.accepting_forgiving, ?_, by decide +kernel⟩
  exact serveAll_samplesSuppliers Outlet.accepting_forgiving {} () [.run encodingSwitchRam 0]

end Narrated

section Counterexample

namespace Story

/-- As loaded indices that are not part of an image are drawn, the palette follows the modes. -/
def PaletteCurrent (_ : Command) (past : Story) : Prop :=
  ∀ o opening, past.opening? = some (o, opening) → o.isTextured = true →
    o.scene.registers.texture.samplesIndices o.key.tile = true →
    o.scene.imageOf? o.key.tile = none → past.PaletteFollowsModes

def paletteLags (past : Story) : Bool :=
  match past.opening?, lastAccepted? .setOtherModes past.attempts with
  | some (o, _), some (.setOtherModes high _) =>
    o.isTextured && o.scene.registers.texture.samplesIndices o.key.tile &&
      (o.scene.imageOf? o.key.tile).isNone &&
      lastPalette? past.attempts != some (Modes.paletteFormatOf high)
  | _, _ => false

private theorem not_paletteCurrent_of_paletteLags {command : Command} {past : Story}
    (h : past.paletteLags = true) : ¬ PaletteCurrent command past := by
  intro hcurrent
  unfold paletteLags at h
  split at h
  · rename_i o opening high low hopened hmodes
    simp only [Bool.and_eq_true, Option.isNone_iff_eq_none, bne_iff_ne] at h
    obtain ⟨⟨⟨htextured, hindices⟩, himage⟩, hother⟩ := h
    obtain ⟨_, _, htold, hpalette⟩ := hcurrent o opening hopened htextured hindices himage
    cases Option.some.inj (htold.symm.trans hmodes)
    exact hother hpalette
  · cases h

def lastDrawLags : Story → Bool
  | .attempted a :: past => a.command.draws && paletteLags past
  | _ => false

private theorem not_atDraws_of_lastDrawLags {s : Story} (h : s.lastDrawLags = true) :
    ¬ s.AtDraws PaletteCurrent := by
  intro hall
  unfold lastDrawLags at h
  split at h
  · obtain ⟨hdraws, hlags⟩ := Bool.and_eq_true_iff.mp h
    exact not_paletteCurrent_of_paletteLags hlags (hall.1 hdraws)
  · cases h

end Story

/-- The second rectangle is drawn with a palette in the encoding of the first one. -/
theorem encodingSwitch_not_paletteCurrent :
    ¬ ((Narrated.start {} ()).serveAll .accepting [.run Narrated.encodingSwitchRam 0]).story.AtDraws
      Story.PaletteCurrent :=
  Story.not_atDraws_of_lastDrawLags (by decide +kernel)

end Counterexample

end DisplayPipeline
