import DisplayPipeline.Proofs.DisplayList.IndexedTiles
import DisplayPipeline.Proofs.DisplayList.Story

namespace DisplayPipeline

variable {σ : Type}

namespace Story

/-- What is known of a batch is enough for a draw of it, which leaves that known of the empty batch. -/
structure Grounds (P : Command → Story → Prop) (H : Story → Batch → Prop) : Prop where
  draw : ∀ {s b command}, H s b → b.Sound → b.command? = some command → P command s
  drawn : ∀ {s b command}, H s b → b.command? = some command → ∀ refusal,
    H (.attempted ⟨command, refusal⟩ :: s) b.emptied

theorem RecordsBatch.upTo {s : Story} {P : Command → Story → Prop} {H : Story → Batch → Prop}
    {link : Link (Traced σ)} (h : s.RecordsBatch P H link) :
    (s.upTo link.sink).RecordsBatch P H link := by
  rw [upTo_self h.attempts]
  exact h

end Story

namespace DeliverM

open Story

variable {o : Outlet σ} {s : Story} {P : Command → Story → Prop} {H : Story → Batch → Prop}
  {link : Link (Traced σ)} {produced : List Drawing} {slots : Nat}

private theorem gives_drawBatch_recordsBatch (ho : o.Forgiving) (hPH : Grounds P H)
    (hsound : ∀ b, link.delivery.batch = some b → b.Sound)
    (h : (s.upTo link.sink).RecordsBatch P H link) :
    Gives (drawBatch o.traced) link fun _ after => (s.upTo after.sink).RecordsBatch P H after := by
  apply gives_look
  cases hb : link.delivery.batch with
  | none => exact gives_pure h
  | some b =>
    cases hcommand : b.command? with
    | none =>
      simp only [Option.bind_some, hcommand, Option.map_none]
      exact gives_pure h
    | some command =>
      simp only [Option.bind_some, hcommand, Option.map_some]
      have hholds := h.batch b hb
      have hdraw := hPH.draw hholds (hsound b hb) hcommand
      have hafter {after : Link (Traced σ)} (refusal : Option PoolError)
          (hsink : after.sink.attempts = link.sink.attempts ++ [⟨command, refusal⟩])
          (hbatch : after.delivery.batch = some b.emptied) :
          (s.upTo after.sink).RecordsBatch P H after := by
        rw [upTo_append h.attempts hsink]
        refine ⟨⟨?_, fun _ => hdraw, h.draws⟩, ?_⟩
        · rw [attempts_attempted, h.attempts, hsink]
        · intro other hother
          rw [hbatch] at hother
          cases hother
          exact hPH.drawn hholds hcommand refusal
      apply gives_bind
      apply gives_update
      apply gives_bind
      apply gives_count
      apply gives_bind
      apply gives_submit_traced ho
      · exact fun sink => gives_pure (hafter none rfl rfl)
      · exact fun sink cause => gives_pure (hafter (some cause) rfl rfl)

private theorem gives_drawBatchIf_recordsBatch (ho : o.Forgiving) (hPH : Grounds P H)
    (condition : Batch → Bool) (hsound : ∀ b, link.delivery.batch = some b → b.Sound)
    (h : (s.upTo link.sink).RecordsBatch P H link) :
    Gives (drawBatchIf o.traced condition) link fun _ after =>
      (s.upTo after.sink).RecordsBatch P H after := by
  apply gives_look
  split
  · exact gives_drawBatch_recordsBatch ho hPH hsound h
  · exact gives_pure h

theorem gives_closeBatch_recordsDraws (ho : o.Forgiving) (hPH : Grounds P H)
    (hsound : ∀ b, link.delivery.batch = some b → b.Sound)
    (h : (s.upTo link.sink).RecordsBatch P H link) :
    Gives (closeBatch o.traced) link fun _ after =>
      (s.upTo after.sink).RecordsDraws P after ∧ after.delivery.batch = none := by
  apply gives_look
  split
  · refine gives_bind ((gives_drawBatch_recordsBatch ho hPH hsound h).imp fun _ after hafter => ?_)
    exact gives_update ⟨⟨hafter.attempts, hafter.draws⟩, rfl⟩
  · rename_i hnone
    exact gives_pure ⟨h.toRecordsDraws, Option.not_isSome_iff_eq_none.mp hnone⟩

theorem keeps_submit_recordsDraws (ho : o.Forgiving) {command : Command}
    (hdraws : command.draws = false) :
    Keeps (fun link => (s.upTo link.sink).RecordsDraws P link) (submit o.traced command) := by
  intro link h
  have hafter {after : Link (Traced σ)} (refusal : Option PoolError)
      (hsink : after.sink.attempts = link.sink.attempts ++ [⟨command, refusal⟩]) :
      (s.upTo after.sink).RecordsDraws P after := by
    rw [upTo_append h.attempts hsink]
    refine ⟨?_, fun hcommand => absurd (hdraws.symm.trans hcommand) Bool.false_ne_true, h.draws⟩
    rw [attempts_attempted, h.attempts, hsink]
  apply gives_submit_traced ho
  · exact fun sink => hafter none rfl
  · exact fun sink cause => hafter (some cause) rfl

private theorem keeps_update_recordsDraws (f : Delivery → Delivery) :
    Keeps (fun link : Link (Traced σ) => (s.upTo link.sink).RecordsDraws P link) (update f) :=
  fun _ h => gives_update ⟨h.attempts, h.draws⟩

theorem gives_settle_recordsDraws (ho : o.Forgiving) (hPH : Grounds P H)
    (hsound : ∀ b, link.delivery.batch = some b → b.Sound)
    (h : (s.upTo link.sink).RecordsBatch P H link) :
    Gives (settle o.traced) link fun _ after =>
      (s.upTo after.sink).RecordsDraws P after ∧ after.delivery.batch = none := by
  refine gives_bind ((gives_closeBatch_recordsDraws ho hPH hsound h).imp fun _ closed hclosed => ?_)
  refine keeps_announceWrites (fun _ _ => ?_) (fun f hf => ?_) closed hclosed
  · exact (keeps_submit_recordsDraws ho rfl).and (keeps_submit_batch ho.traced _ none)
  · exact (keeps_update_recordsDraws f).and fun link hnone => gives_update ((hf _).1.trans hnone)

private theorem draws_of_tellsRegisters {command : Command}
    (h : command.kind.tellsRegisters = true) :
    command.draws = false := by
  cases command <;> first | rfl | cases h

theorem gives_openBatch_recordsDraws (ho : o.Forgiving) (hPH : Grounds P H) (scene : Scene)
    {key : BatchKey} (hkey : link.delivery.batch.map (·.key) ≠ some key)
    (hsound : ∀ b, link.delivery.batch = some b → b.Sound)
    (h : (s.upTo link.sink).RecordsBatch P H link) :
    Gives (openBatch o.traced scene key) link fun _ after =>
      (s.upTo after.sink).RecordsDraws P after ∧ after.delivery.batch = some { key } := by
  apply gives_look
  rw [if_pos hkey]
  refine gives_bind ((gives_settle_recordsDraws ho hPH hsound h).imp fun _ settled hsettled => ?_)
  have hopen {last : Link (Traced σ)} (hlast : (s.upTo last.sink).RecordsDraws P last) :
      Gives (update ({ · with batch := some { key } })) last fun _ after =>
        (s.upTo after.sink).RecordsDraws P after ∧ after.delivery.batch = some { key } :=
    gives_update ⟨⟨hlast.attempts, hlast.draws⟩, rfl⟩
  have hregisters : Keeps (fun link => (s.upTo link.sink).RecordsDraws P link)
      (tellRegisters o.traced scene key) :=
    keeps_tellRegisters key
      (fun _ hkind => keeps_submit_recordsDraws ho (draws_of_tellsRegisters hkind))
      fun f _ => keeps_update_recordsDraws f
  have htextures : Keeps (fun link => (s.upTo link.sink).RecordsDraws P link)
      (sendTextures o.traced scene key.tile (scene.combinerFor key).1) :=
    keeps_sendTextures key.tile _
      (fun _ _ _ hcommand => keeps_submit_recordsDraws ho
        (Command.draws_of_textureUnit? (Scene.textureUnit?_of_textureCommand? hcommand)))
      fun f _ => keeps_update_recordsDraws f
  split
  · refine gives_bind ((hregisters settled hsettled.1).imp fun _ told htold => ?_)
    split
    · exact gives_bind ((htextures told htold).imp fun _ _ => hopen)
    · exact hopen htold
  · exact hopen hsettled.1

theorem gives_draw_recordsBatch (ho : o.Forgiving) (hPH : Grounds P H) (scene : Scene)
    {key : BatchKey} {primitive : Primitive} (hshape : key.shape = primitive.shape)
    (hd : link.Delivers produced slots) (hroom : link.HasRoom)
    (hopening : Gives (openBatch o.traced scene key) link fun _ after =>
      (s.withOpening ⟨scene, key⟩ link after).RecordsBatch P H after)
    (hadd : ∀ {s b}, H s b → b.key = key →
      (b.add primitive).drawings = b.drawings ++ primitive.drawings →
      H (.recorded scene primitive :: s) (b.add primitive)) :
    Gives (perform o.traced scene (.draw key primitive)) link fun _ after =>
      (watch o scene (.draw key primitive) link s).RecordsBatch P H after := by
  obtain ⟨_, opened, hopen, hopenedRecords, hopened, b, hb, rfl, hfull⟩ :=
    hopening.and (gives_openBatch ho scene key hd hroom)
  -- The parts before the primitive is added are followed one by one.
  let s' := s.withOpening ⟨scene, b.key⟩ link opened
  obtain ⟨_, spaced, hspace, hspacedRecords, hspaced, left, hleft, hkey, hleftFull, hcrowded⟩ :=
    (gives_drawBatchIf_recordsBatch ho hPH (·.isCrowdedFor primitive) hopened.sound
      hopenedRecords.upTo).and (gives_makeRoom ho hopened hb hfull primitive)
  have hsuits : left.key.shape = primitive.shape := hkey ▸ hshape
  let added : Link (Traced σ) :=
    { spaced with delivery.batch := spaced.delivery.batch.map (·.add primitive) }
  have hadded : added.Delivers (produced ++ primitive.drawings) slots :=
    hspaced.add hleft hsuits hcrowded hleftFull
  let recorded : Story := .recorded scene primitive :: s'.upTo spaced.sink
  have haddedRecords : recorded.RecordsBatch P H added := by
    refine ⟨⟨hspacedRecords.attempts, hspacedRecords.draws⟩, fun other hother => ?_⟩
    have hother : (spaced.delivery.batch.map (·.add primitive)) = some other := hother
    rw [hleft] at hother
    cases hother
    exact hadd (hspacedRecords.batch left hleft) hkey
      ((hspaced.sound left hleft).add hsuits hcrowded hleftFull).2
  -- What is left is to draw a full batch.
  have hfinish {counted : Link (Traced σ)} (hdelivery : counted.delivery = added.delivery)
      (hsink : counted.sink = added.sink) :
      Gives (drawBatchIf o.traced (·.isFull)) counted fun _ after =>
        (recorded.upTo after.sink).RecordsBatch P H after := by
    have hcounted : recorded.RecordsBatch P H counted :=
      ⟨⟨hsink ▸ haddedRecords.attempts, haddedRecords.draws⟩, hdelivery ▸ haddedRecords.batch⟩
    exact gives_drawBatchIf_recordsBatch ho hPH _ (hdelivery ▸ hadded.sound) hcounted.upTo
  have hrest : Gives (perform o.traced scene (.draw b.key primitive)) link fun _ after =>
      (recorded.upTo after.sink).RecordsBatch P H after := by
    refine gives_bind ⟨_, opened, hopen, gives_bind ⟨_, spaced, hspace, ?_⟩⟩
    refine gives_bind (gives_update ?_)
    cases primitive with
    | triangle p q r => exact gives_bind (gives_count (hfinish rfl rfl))
    | corners topLeft topRight bottomLeft bottomRight => exact hfinish rfl rfl
    | rect area => exact hfinish rfl rfl
    | fill area => exact hfinish rfl rfl
  refine hrest.imp_run fun _ after hperform hafter => ?_
  rw [watch, after_eq hopen, after_eq hspace, after_eq hperform]
  exact hafter

end DeliverM

def Link.Orderly (link : Link (Traced σ)) : Prop :=
  (∃ produced slots, link.Delivers produced slots) ∧ link.HasRoom

theorem Link.Orderly.sound {link : Link (Traced σ)} (h : link.Orderly) {b : Batch}
    (hb : link.delivery.batch = some b) : b.Sound := by
  obtain ⟨⟨_, _, hd⟩, _⟩ := h
  exact hd.sound b hb

private theorem Link.Orderly.congr {link after : Link (Traced σ)} (h : link.Orderly)
    (hbatch : after.delivery.batch = link.delivery.batch) (hsink : after.sink = link.sink) :
    after.Orderly := by
  obtain ⟨⟨produced, slots, hd⟩, hroom⟩ := h
  refine ⟨⟨produced, _, hsink ▸ hd.fits, hbatch ▸ hd.sound, ?_, rfl⟩, fun b hb => hroom b (hbatch ▸ hb)⟩
  rw [hbatch, hsink]
  exact hd.drawings

private theorem Link.Delivers.orderly {link : Link (Traced σ)} {produced : List Drawing}
    {slots : Nat}
    (h : link.Delivers produced slots) (hnone : link.delivery.batch = none) : link.Orderly :=
  ⟨⟨produced, slots, h⟩, fun _ hb => absurd (hnone.symm.trans hb) nofun⟩

namespace DeliverM

variable {o : Outlet σ} {link : Link (Traced σ)}

private theorem gives_closeBatch_orderly (ho : o.Forgiving) (h : link.Orderly) :
    Gives (closeBatch o.traced) link fun _ after =>
      after.delivery.batch = none ∧ after.Orderly := by
  obtain ⟨⟨_, _, hd⟩, _⟩ := h
  exact (gives_closeBatch ho hd).imp fun _ _ ⟨hafter, hnone⟩ => ⟨hnone, hafter.orderly hnone⟩

private theorem gives_settle_orderly (ho : o.Forgiving) (h : link.Orderly) :
    Gives (settle o.traced) link fun _ after =>
      after.delivery.batch = none ∧ after.Orderly := by
  obtain ⟨⟨_, _, hd⟩, _⟩ := h
  exact (gives_settle ho hd).imp fun _ _ ⟨hafter, hnone⟩ => ⟨hnone, hafter.orderly hnone⟩

end DeliverM

namespace Story

open DeliverM

/-- A relation between stories, texture registers, render registers and links that every part of a
delivery keeps. Registers only change while no batch is open. -/
structure Preserved (o : Outlet σ)
    (I : Story → TextureRegisters → RenderRegisters → Link (Traced σ) → Prop) : Prop where
  attempts : ∀ {s texture render link}, I s texture render link → s.attempts = link.sink.attempts
  congr : ∀ {s texture render link after}, I s texture render link →
    after.delivery = link.delivery → after.sink = link.sink → I s texture render after
  close : ∀ {s texture render link}, I s texture render link → link.Orderly →
    Gives (closeBatch o.traced) link fun _ after => I (s.upTo after.sink) texture render after
  settle : ∀ {s texture render link}, I s texture render link → link.Orderly →
    Gives (settle o.traced) link fun _ after => I (s.upTo after.sink) texture render after
  draw : ∀ {s scene link instruction key primitive}, I s scene.registers.texture
      scene.registers.render link → link.Orderly →
    .draw key primitive ∈ scene.requests instruction →
    Gives (perform o.traced scene (.draw key primitive)) link fun _ after =>
      I (watch o scene (.draw key primitive) link s) scene.registers.texture
        scene.registers.render after
  render : ∀ {s texture render link}, I s texture render link → link.delivery.batch = none →
    ∀ later, I s texture later link
  texture : ∀ {s texture render link}, I s texture render link → link.delivery.batch = none →
    ∀ ram segments {change : TextureChange}, change.Bounded →
    I (.changed :: s) (texture.apply ram segments change) render
      { link with delivery.texturesStale := true }
  notify : ∀ {s texture render link}, I s texture render link → link.delivery.batch = none →
    ∀ write, I (.changed :: s) texture render
      { link with delivery.writes := link.delivery.writes ++ [write] }
  endFrame : ∀ {s : Story} {texture render} {link : Link (Traced σ)},
    I (s.upTo link.sink) texture render link → link.delivery.batch = none →
    Gives (submit o.traced .endFrame) link fun _ after => I (s.upTo after.sink) texture render after

namespace Preserved

variable {o : Outlet σ} {I : Story → TextureRegisters → RenderRegisters → Link (Traced σ) → Prop}
  {s : Story} {scene : Scene} {link : Link (Traced σ)} {asked : Instruction}

private theorem perform (h : Preserved o I) (ho : o.Forgiving) {request : Request}
    (hrequest : request ∈ scene.requests asked) (hne : request ≠ .retexture)
    (hI : I s scene.registers.texture scene.registers.render link) (hlink : link.Orderly) :
    Gives (DeliverM.perform o.traced scene request) link fun _ after =>
      I (watch o scene request link s) scene.registers.texture scene.registers.render after ∧
        after.Orderly := by
  cases request with
  | close =>
    refine ((h.close hI hlink).and (gives_closeBatch_orderly ho hlink)).imp_run ?_
    intro _ after hclose ⟨hafter, _, horderly⟩
    have hwatch : watch o scene .close link s =
        s.upTo (DeliverM.after (DeliverM.perform o.traced scene .close) link).sink := rfl
    rw [hwatch, after_eq (x := DeliverM.perform o.traced scene .close) hclose]
    exact ⟨hafter, horderly⟩
  | retexture => exact absurd rfl hne
  | drop =>
    refine gives_count (f := fun tally =>
      { tally with droppedTriangles := tally.droppedTriangles + 1 }) ⟨?_, hlink.congr rfl rfl⟩
    change I (s.upTo link.sink) _ _ _
    rw [upTo_self (h.attempts hI)]
    exact h.congr hI rfl rfl
  | draw key primitive =>
    obtain ⟨⟨_, _, hd⟩, hroom⟩ := hlink
    refine ((h.draw hI ⟨⟨_, _, hd⟩, hroom⟩ hrequest).and
      (gives_perform ho scene (scene.suits_requests asked _ hrequest) hd hroom)).imp ?_
    rintro _ after ⟨hafter, hdafter, hroomAfter⟩
    exact ⟨hafter, ⟨_, _, hdafter⟩, hroomAfter⟩

private theorem performAll (h : Preserved o I) (ho : o.Forgiving) {requests : List Request}
    (hrequests : ∀ request ∈ requests, request ∈ scene.requests asked)
    (hne : ∀ request ∈ requests, request ≠ .retexture)
    (hI : I s scene.registers.texture scene.registers.render link) (hlink : link.Orderly) :
    Gives (DeliverM.performAll o.traced scene requests) link fun _ after =>
      I (watchAll o scene requests link s) scene.registers.texture scene.registers.render after ∧
        after.Orderly := by
  induction requests generalizing s link with
  | nil => exact gives_pure ⟨hI, hlink⟩
  | cons request requests ih =>
    obtain ⟨hfirst, hrest⟩ := List.forall_mem_cons.mp hrequests
    obtain ⟨hneFirst, hneRest⟩ := List.forall_mem_cons.mp hne
    refine gives_bind ((h.perform ho hfirst hneFirst hI hlink).imp_run ?_)
    intro _ next hperform ⟨hnext, horderly⟩
    rw [watchAll, after_eq hperform]
    exact ih hrest hneRest hnext horderly

private theorem instruction (h : Preserved o I) (ho : o.Forgiving) {instruction : Instruction}
    (hbounded : instruction.Bounded)
    (hI : I s scene.registers.texture scene.registers.render link) (hlink : link.Orderly) :
    Gives (DeliverM.performAll o.traced scene (scene.requests instruction)) link fun _ after =>
      I (watchAll o scene (scene.requests instruction) link s) (scene.advance instruction).texture
        (scene.advance instruction).render after ∧ after.Orderly := by
  have hothers (hne : ∀ request ∈ scene.requests instruction, request ≠ .retexture)
      (htexture : (scene.advance instruction).texture = scene.registers.texture)
      (hrender : (scene.advance instruction).render = scene.registers.render) :
      Gives (DeliverM.performAll o.traced scene (scene.requests instruction)) link fun _ after =>
        I (watchAll o scene (scene.requests instruction) link s) (scene.advance instruction).texture
          (scene.advance instruction).render after ∧ after.Orderly := by
    rw [htexture, hrender]
    exact h.performAll ho (fun _ hrequest => hrequest) hne hI hlink
  cases instruction with
  | texture change =>
    refine gives_bind (gives_bind (((h.settle hI hlink).and (gives_settle_orderly ho hlink)).imp_run
      fun _ settled hsettle ⟨hsettled, hnone, horderly⟩ => gives_update (gives_pure ⟨?_, ?_⟩)))
    · have hperform : DeliverM.perform o.traced scene .retexture link =
          .ok () { settled with delivery.texturesStale := true } := by
        change EStateM.bind _ _ _ = _
        rw [EStateM.bind, hsettle]
        rfl
      change I (.changed :: s.upTo (after (DeliverM.perform o.traced scene .retexture) link).sink) _ _ _
      rw [after_eq hperform]
      exact h.texture hsettled hnone scene.ram scene.registers.geometry.segments hbounded
    · exact horderly.congr rfl rfl
  | render change =>
    refine gives_bind (((h.close hI hlink).and (gives_closeBatch_orderly ho hlink)).imp_run
      fun _ closed hclose ⟨hclosed, hnone, horderly⟩ => gives_pure ⟨?_, horderly⟩)
    change I (s.upTo (after (DeliverM.perform o.traced scene .close) link).sink) _ _ _
    rw [after_eq (x := DeliverM.perform o.traced scene .close) hclose]
    exact h.render hclosed hnone _
  | _ => exact hothers (Timeline.requests_ne_retexture fun _ hsame => by cases hsame) rfl rfl

variable {ram : Ram} {settings : ListSettings} {m : Machine (Traced σ)}

private theorem beside (h : Preserved o I) {after : Machine (Traced σ)}
    (hI : I s m.registers.texture m.registers.render m.link) (hlink : m.link.Orderly)
    (hbeside : m.Beside after) :
    I s after.registers.texture after.registers.render after.link ∧ after.link.Orderly := by
  rw [hbeside.registers]
  exact ⟨h.congr hI hbeside.delivery hbeside.sink,
    hlink.congr (congrArg _ hbeside.delivery) hbeside.sink⟩

private theorem step (h : Preserved o I) (ho : o.Forgiving)
    (hI : I s m.registers.texture m.registers.render m.link) (hlink : m.link.Orderly) :
    let last := (m.step o.traced ram settings).after
    I (watchStep o ram settings s m) last.registers.texture last.registers.render last.link ∧
      last.link.Orderly := by
  have hcounted : I s (m.visit.scene ram settings).registers.texture
      (m.visit.scene ram settings).registers.render m.counted := h.congr hI rfl rfl
  obtain ⟨_, link, hperformed, hdone, hdoneLink⟩ :=
    h.instruction ho (Instruction.bounded_fetch ram m.walk.address) hcounted (hlink.congr rfl rfl)
  obtain ⟨after, hbeside, _, _, hstep⟩ := Machine.step_of_performed hperformed
  obtain ⟨hafter, hafterLink⟩ := h.beside (m := ⟨_, m.walk, link⟩) hdone hdoneLink hbeside
  intro last
  have hlast := h.beside hafter hafterLink (Machine.follow_beside after settings.maxDepth
    m.walk.address ((m.visit.scene ram settings).move (Instruction.fetch ram m.walk.address).2
      (m.visit.instruction ram)))
  rw [← hstep] at hlast
  exact hlast

private theorem walkFor (h : Preserved o I) (ho : o.Forgiving) (ram : Ram) (settings : ListSettings)
    (budget : Nat) (hI : I s m.registers.texture m.registers.render m.link)
    (hlink : m.link.Orderly) :
    let last := (m.walkFor o.traced ram settings budget).1
    I ((m.course o.traced ram settings budget).foldl (watchStep o ram settings) s)
      last.registers.texture last.registers.render last.link ∧ last.link.Orderly := by
  refine Machine.walkFor_tells (R := fun s (m : Machine (Traced σ)) =>
    I s m.registers.texture m.registers.render m.link ∧ m.link.Orderly) ?_ budget ⟨hI, hlink⟩
  exact fun _ _ ⟨hI, hlink⟩ => h.step ho hI hlink

end Preserved

end Story

namespace Narrated

open DeliverM Story

variable {o : Outlet σ} {I : Story → TextureRegisters → RenderRegisters → Link (Traced σ) → Prop}
  {n : Narrated σ}

structure Rests (n : Narrated σ)
    (I : Story → TextureRegisters → RenderRegisters → Link (Traced σ) → Prop) : Prop where
  kept : I n.story n.processor.registers.texture n.processor.registers.render
    ⟨n.processor.delivery, n.processor.journal, n.trace⟩
  orderly : Link.Orderly ⟨n.processor.delivery, n.processor.journal, n.trace⟩
  closed : n.processor.delivery.batch = none

private theorem rests_run (h : Preserved o I) (ho : o.Forgiving) (hn : n.Rests I) (ram : Ram)
    (start : UInt32) : (n.serve o (.run ram start)).Rests I := by
  let p := n.processor
  let m : Machine (Traced σ) := p.machine ram start n.trace
  obtain ⟨hlast, hlastLink⟩ :=
    h.walkFor ho ram p.settings p.settings.budget (m := m) hn.kept hn.orderly
  let s := (m.course o.traced ram p.settings p.settings.budget).foldl
    (Story.watchStep o ram p.settings) n.story
  let walked := m.walkFor o.traced ram p.settings p.settings.budget
  have hclose (link : Link (Traced σ))
      (hbeside : walked.1.Beside ⟨walked.1.registers, walked.1.walk, link⟩) :
      Gives (closeBatch o.traced) link fun _ after =>
        I (s.upTo after.sink) walked.1.registers.texture walked.1.registers.render after ∧
          after.delivery.batch = none ∧ after.Orderly := by
    obtain ⟨hreported, hreportedLink⟩ := h.beside hlast hlastLink hbeside
    exact (h.close hreported hreportedLink).and (gives_closeBatch_orderly ho hreportedLink)
  obtain ⟨link, ⟨hlink, hnone, horderly⟩, hrun⟩ := ListProcessor.run_closes rfl
    (Machine.walkFor_not_refused ho.traced ram p.settings p.settings.budget m) hclose
  rw [serve, hrun]
  exact ⟨hlink, horderly, hnone⟩

private theorem rests_notify (h : Preserved o I) (hn : n.Rests I) (address length : UInt32) :
    (n.serve o (.notify address length)).Rests I := by
  by_cases hlength : length = 0
  · have hserve : n.serve o (.notify address length) = n := by
      rw [serve, ListProcessor.notify, if_pos hlength, if_pos hlength]
    rw [hserve]
    exact hn
  · have hserve : n.serve o (.notify address length) =
        ⟨{ n.processor with
            delivery.writes := n.processor.delivery.writes ++ [⟨address, length⟩] }, n.trace,
          .changed :: n.story⟩ := by
      rw [serve, ListProcessor.notify, if_neg hlength, if_neg hlength]
    rw [hserve]
    exact ⟨h.notify hn.kept hn.closed ⟨address, length⟩, hn.orderly.congr rfl rfl, hn.closed⟩

private theorem rests_endFrame (h : Preserved o I) (ho : o.Forgiving) (hn : n.Rests I) :
    (n.serve o .endFrame).Rests I := by
  obtain ⟨_, settled, hsettle, hsettled, hnone, ⟨produced, slots, hd⟩, _⟩ :=
    (h.settle hn.kept hn.orderly).and (gives_settle_orderly ho hn.orderly)
  -- The end of the frame is submitted with no batch open.
  have hhush : Keeps (fun link => link.Delivers produced slots ∧ link.delivery.batch = none)
      (submit o.traced .endFrame) := keeps_submit_hush ho ⟨rfl, trivial⟩
  obtain ⟨_, link, hsubmit, hlink, hdelivers, hclosed⟩ :=
    (h.endFrame hsettled hnone).and (hhush settled ⟨hd, hnone⟩)
  have hserve : n.serve o .endFrame =
      ⟨⟨n.processor.settings,
          { n.processor.registers with render := n.processor.registers.render.endFrame },
          link.delivery, link.journal⟩, link.sink, n.story.upTo link.sink⟩ := by
    rw [serve, ListProcessor.endFrame_eq hsettle hsubmit]
  rw [hserve]
  exact ⟨h.render hlink hclosed _, hdelivers.orderly hclosed, hclosed⟩

private theorem rests_serve (h : Preserved o I) (ho : o.Forgiving) (hn : n.Rests I)
    (call : HostCall) :
    (n.serve o call).Rests I := by
  cases call with
  | run ram start => exact rests_run h ho hn ram start
  | notify address length => exact rests_notify h hn address length
  | endFrame => exact rests_endFrame h ho hn

/-- What is preserved holds after all calls if it does before the first one. -/
theorem rests_serveAll (h : Preserved o I) (ho : o.Forgiving) (settings : ListSettings) (sink : σ)
    (hstart : I [] {} (Registers.initial settings).render ⟨{}, {}, sink, []⟩)
    (calls : List HostCall) : ((start settings sink).serveAll o calls).Rests I := by
  have hfirst : (start settings sink).Rests I := by
    have hdelivers : Link.Delivers (⟨{}, {}, sink, []⟩ : Link (Traced σ)) [] 0 :=
      ⟨fun _ hnone => absurd hnone List.not_mem_nil, nofun, rfl, rfl⟩
    exact ⟨hstart, hdelivers.orderly rfl, rfl⟩
  exact List.foldlRecOn (motive := fun n => n.Rests I) calls (serve o) hfirst
    fun _ hn call _ => rests_serve h ho hn call

end Narrated

end DisplayPipeline
