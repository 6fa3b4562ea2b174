import DisplayPipeline.Proofs.DisplayList.Drawings

/-!
# Batches draw what was produced

However batches are closed, filled up or refused, what was submitted for drawing and what waits in the
batch are together what the instructions drew, in order.
-/

namespace DisplayPipeline

variable {σ : Type}

/-- What the submissions draw, in order. -/
def Traced.drawings (t : Traced σ) : List Drawing := t.attempts.flatMap (·.command.drawings)

namespace Link

/-- Whatever was produced was submitted in commands that fit, or waits in a sound batch. -/
structure Delivers (link : Link (Traced σ)) (produced : List Drawing) (slots : Nat) : Prop where
  fits : ∀ a ∈ link.sink.attempts, a.command.WithinLimits
  sound : ∀ b, link.delivery.batch = some b → b.Sound
  drawings : link.sink.drawings ++ link.delivery.batch.elim [] Batch.drawings = produced
  slots : link.journal.tally.triangles + link.journal.tally.droppedTriangles = slots

def HasRoom (link : Link σ) : Prop := ∀ b, link.delivery.batch = some b → b.isFull = false

variable {link after : Link (Traced σ)} {produced : List Drawing} {slots : Nat}

theorem Delivers.congr (h : link.Delivers produced slots)
    (hbatch : after.delivery.batch = link.delivery.batch) (hsink : after.sink = link.sink)
    (htriangles : after.journal.tally.triangles = link.journal.tally.triangles)
    (hdropped : after.journal.tally.droppedTriangles = link.journal.tally.droppedTriangles) :
    after.Delivers produced slots where
  fits := hsink ▸ h.fits
  sound := hbatch ▸ h.sound
  drawings := by
    rw [hbatch, hsink]
    exact h.drawings
  slots := by
    rw [htriangles, hdropped]
    exact h.slots

private theorem Delivers.hush {command : Command} {refusal : Option PoolError} {sink : σ}
    (h : link.Delivers produced slots) (hhush : command.IsHush)
    (hbatch : after.delivery.batch = link.delivery.batch)
    (hsink : after.sink = link.sink.add sink command refusal)
    (htally : after.journal.tally.triangles + after.journal.tally.droppedTriangles =
      link.journal.tally.triangles + link.journal.tally.droppedTriangles) :
    after.Delivers produced slots where
  fits := by
    rw [hsink]
    exact List.forall_mem_append.mpr ⟨h.fits, List.forall_mem_singleton.mpr hhush.2⟩
  sound := hbatch ▸ h.sound
  drawings := by
    rw [hbatch, hsink, Traced.drawings, Traced.add, List.flatMap_append, List.flatMap_singleton,
      hhush.1, List.append_nil]
    exact h.drawings
  slots := htally.trans h.slots

/-- Submitting the batch moves what waits to what was submitted, accepted or not. -/
theorem Delivers.submitBatch {b : Batch} {command : Command} {refusal : Option PoolError} {sink : σ}
    (h : link.Delivers produced slots) (hb : link.delivery.batch = some b)
    (hcommand : b.command? = some command) (hbatch : after.delivery.batch = some b.emptied)
    (hsink : after.sink = link.sink.add sink command refusal)
    (htally : after.journal.tally.triangles + after.journal.tally.droppedTriangles =
      link.journal.tally.triangles + link.journal.tally.droppedTriangles) :
    after.Delivers produced slots := by
  obtain ⟨hdraws, hfits⟩ := (h.sound b hb).command hcommand
  refine ⟨?_, ?_, ?_, htally.trans h.slots⟩
  · rw [hsink]
    exact List.forall_mem_append.mpr ⟨h.fits, List.forall_mem_singleton.mpr hfits⟩
  · intro other hother
    rw [hbatch] at hother
    cases hother
    exact b.sound_emptied
  · have hproduced := h.drawings
    rw [hb] at hproduced
    rw [hbatch, hsink, Traced.drawings, Traced.add, List.flatMap_append, List.flatMap_singleton,
      hdraws]
    exact (List.append_nil _).trans hproduced

theorem Delivers.add {b : Batch} {primitive : Primitive} (h : link.Delivers produced slots)
    (hb : link.delivery.batch = some b) (hshape : b.key.shape = primitive.shape)
    (hcrowded : b.isCrowdedFor primitive = false) (hfull : b.isFull = false) :
    Delivers { link with delivery.batch := link.delivery.batch.map (·.add primitive) }
      (produced ++ primitive.drawings) slots := by
  obtain ⟨hsound, hdraws⟩ := (h.sound b hb).add hshape hcrowded hfull
  have hproduced := h.drawings
  rw [hb] at hproduced
  refine ⟨h.fits, ?_, ?_, h.slots⟩
  · intro other hother
    rw [hb] at hother
    cases hother
    exact hsound
  · rw [hb, ← hproduced, List.append_assoc]
    exact congrArg (link.sink.drawings ++ ·) hdraws

end Link

namespace Batch

theorem isFull_emptied (b : Batch) : b.emptied.isFull = false := rfl

theorem isCrowdedFor_emptied (b : Batch) (primitive : Primitive) :
    b.emptied.isCrowdedFor primitive = false := by
  cases primitive <;> rfl

end Batch

namespace DeliverM

variable {o : Outlet σ} {link : Link (Traced σ)} {produced : List Drawing} {slots : Nat}
  {batch : Option Batch}

theorem keeps_submit_hush (ho : o.Forgiving) {command : Command} (hhush : command.IsHush) :
    Keeps (fun link => link.Delivers produced slots ∧ link.delivery.batch = batch)
      (submit o.traced command) := by
  rintro link ⟨h, hbatch⟩
  apply gives_submit_traced ho
  · exact fun sink => ⟨h.hush hhush rfl rfl rfl, hbatch⟩
  · exact fun sink cause => ⟨h.hush hhush rfl rfl rfl, hbatch⟩

private theorem keeps_update_mild {f : Delivery → Delivery} (hf : ∀ d, (f d).batch = d.batch) :
    Keeps (fun link => link.Delivers produced slots ∧ link.delivery.batch = batch)
      (update (σ := Traced σ) f) :=
  fun link ⟨h, hbatch⟩ => gives_update
    ⟨h.congr (hf link.delivery) rfl rfl rfl, (hf link.delivery).trans hbatch⟩

private theorem gives_drawBatch (ho : o.Forgiving) (h : link.Delivers produced slots) :
    Gives (drawBatch o.traced) link fun _ after =>
      after.Delivers produced slots ∧
        after.delivery.batch = link.delivery.batch.map Batch.emptied := by
  apply gives_look
  cases hb : link.delivery.batch with
  | none => exact gives_pure ⟨h, hb⟩
  | some b =>
    cases hcommand : b.command? with
    | none =>
      simp only [Option.bind_some, hcommand, Option.map_none]
      refine gives_pure ⟨h, ?_⟩
      rw [Option.map_some, ← Batch.eq_emptied_of_command? hcommand]
      exact hb
    | some command =>
      simp only [Option.bind_some, hcommand, Option.map_some]
      apply gives_bind
      apply gives_update
      apply gives_bind
      apply gives_count
      apply gives_bind
      apply gives_submit_traced ho
      · exact fun sink => gives_pure ⟨h.submitBatch hb hcommand rfl rfl rfl, rfl⟩
      · exact fun sink cause => gives_pure ⟨h.submitBatch hb hcommand rfl rfl rfl, rfl⟩

private theorem gives_drawBatchIf (ho : o.Forgiving) {condition : Batch → Bool} {b : Batch}
    (h : link.Delivers produced slots) (hb : link.delivery.batch = some b)
    (hempty : condition b.emptied = false) :
    Gives (drawBatchIf o.traced condition) link fun _ after =>
      after.Delivers produced slots ∧ ∃ left, after.delivery.batch = some left ∧
        (left = b ∨ left = b.emptied) ∧ condition left = false := by
  apply gives_look
  cases hcondition : condition b with
  | true =>
    rw [if_pos (by rw [hb]; exact hcondition)]
    refine (gives_drawBatch ho h).imp fun _ after ⟨hafter, hbatch⟩ => ⟨hafter, b.emptied, ?_, ?_⟩
    · rw [hbatch, hb]
      rfl
    · exact ⟨Or.inr rfl, hempty⟩
  | false =>
    rw [if_neg (by rw [hb]; simp [hcondition])]
    exact gives_pure ⟨h, b, hb, Or.inl rfl, hcondition⟩

theorem gives_makeRoom (ho : o.Forgiving) {b : Batch} (h : link.Delivers produced slots)
    (hb : link.delivery.batch = some b) (hfull : b.isFull = false) (primitive : Primitive) :
    Gives (drawBatchIf o.traced (·.isCrowdedFor primitive)) link fun _ after =>
      after.Delivers produced slots ∧ ∃ left, after.delivery.batch = some left ∧
        left.key = b.key ∧ left.isFull = false ∧ left.isCrowdedFor primitive = false := by
  refine (gives_drawBatchIf ho h hb (Batch.isCrowdedFor_emptied b primitive)).imp ?_
  rintro _ after ⟨hafter, left, hleft, rfl | rfl, hcrowded⟩
  · exact ⟨hafter, left, hleft, rfl, hfull, hcrowded⟩
  · exact ⟨hafter, b.emptied, hleft, rfl, b.isFull_emptied, hcrowded⟩

theorem gives_closeBatch (ho : o.Forgiving) (h : link.Delivers produced slots) :
    Gives (closeBatch o.traced) link fun _ after =>
      after.Delivers produced slots ∧ after.delivery.batch = none := by
  apply gives_look
  cases hb : link.delivery.batch with
  | none =>
    rw [if_neg (by simp)]
    exact gives_pure ⟨h, hb⟩
  | some b =>
    rw [if_pos (by rfl)]
    refine gives_bind ((gives_drawBatch ho h).imp fun _ after ⟨hafter, hbatch⟩ => ?_)
    rw [hb, Option.map_some] at hbatch
    -- An emptied batch can be dropped without loss.
    have hproduced := hafter.drawings
    rw [hbatch] at hproduced
    exact gives_update ⟨⟨hafter.fits, nofun, hproduced, hafter.slots⟩, rfl⟩

theorem gives_settle (ho : o.Forgiving) (h : link.Delivers produced slots) :
    Gives (settle o.traced) link fun _ after =>
      after.Delivers produced slots ∧ after.delivery.batch = none := by
  refine gives_bind ((gives_closeBatch ho h).imp fun _ after hafter => ?_)
  refine keeps_announceWrites ?_ ?_ after hafter
  · exact fun _ _ => keeps_submit_hush ho ⟨rfl, trivial⟩
  · exact fun _ hf => keeps_update_mild fun d => (hf d).1

private theorem isHush_of_textureCommand? {scene : Scene} {unit : UInt8} {tile : TileIndex}
    {command : Command} (h : scene.textureCommand? unit tile = some command) : command.IsHush := by
  rcases scene.kind_of_textureCommand? h with hkind | hkind
  · cases command <;> first | exact ⟨rfl, trivial⟩ | cases hkind
  · cases command <;> first | exact ⟨rfl, trivial⟩ | cases hkind

private theorem keeps_tellRegisters_hush (ho : o.Forgiving) (scene : Scene) (key : BatchKey) :
    Keeps (fun link => link.Delivers produced slots ∧ link.delivery.batch = batch)
      (tellRegisters o.traced scene key) := by
  apply keeps_tellRegisters
  · intro command hkind
    apply keeps_submit_hush ho
    cases command <;> first | exact ⟨rfl, trivial⟩ | cases hkind
  · intro f hf
    apply keeps_update_mild
    intro d
    obtain ⟨_, hd, _⟩ := hf d
    rw [hd]

theorem gives_openBatch (ho : o.Forgiving) (scene : Scene) (key : BatchKey)
    (h : link.Delivers produced slots) (hroom : link.HasRoom) :
    Gives (openBatch o.traced scene key) link fun _ after =>
      after.Delivers produced slots ∧ ∃ b, after.delivery.batch = some b ∧ b.key = key ∧
        b.isFull = false := by
  apply gives_look
  by_cases hkey : link.delivery.batch.map (·.key) = some key
  · rw [if_neg (not_not_intro hkey)]
    obtain ⟨b, hb, hbkey⟩ := Option.map_eq_some_iff.mp hkey
    exact gives_pure ⟨h, b, hb, hbkey, hroom b hb⟩
  · rw [if_pos hkey]
    refine gives_bind ((gives_settle ho h).imp fun _ settled hsettled => ?_)
    have hopen : ∀ last : Link (Traced σ), last.Delivers produced slots ∧
        last.delivery.batch = none →
        Gives (update ({ · with batch := some { key } })) last fun _ after =>
          after.Delivers produced slots ∧ ∃ b, after.delivery.batch = some b ∧ b.key = key ∧
            b.isFull = false := by
      rintro last ⟨hlast, hnone⟩
      have hproduced := hlast.drawings
      rw [hnone] at hproduced
      refine gives_update ⟨⟨hlast.fits, ?_, hproduced, hlast.slots⟩, { key }, rfl, rfl, rfl⟩
      intro b hb
      cases hb
      exact Batch.sound_emptied { key }
    split
    · refine gives_bind ((keeps_tellRegisters_hush ho scene key settled hsettled).imp ?_)
      intro _ told htold
      split
      · refine gives_bind ((keeps_sendTextures key.tile _ ?_ ?_ told htold).imp fun _ => hopen)
        · exact fun _ _ _ hcommand => keeps_submit_hush ho (isHush_of_textureCommand? hcommand)
        · exact fun f hf => keeps_update_mild fun d => (hf d).1
      · exact hopen told htold
    · exact hopen settled hsettled

private theorem gives_draw (ho : o.Forgiving) (scene : Scene) {key : BatchKey}
    {primitive : Primitive}
    (hshape : key.shape = primitive.shape) (h : link.Delivers produced slots)
    (hroom : link.HasRoom) :
    Gives (draw o.traced scene key primitive) link fun _ after =>
      after.Delivers (produced ++ primitive.drawings) (slots + primitive.triangleSlots) ∧
        after.HasRoom := by
  refine gives_bind ((gives_openBatch ho scene key h hroom).imp ?_)
  rintro _ opened ⟨hopened, b, hb, rfl, hfull⟩
  refine gives_bind ((gives_makeRoom ho hopened hb hfull primitive).imp ?_)
  rintro _ spaced ⟨hspaced, left, hleft, hkey, hleftFull, hcrowded⟩
  apply gives_bind
  apply gives_update
  have hadded := hspaced.add hleft (hkey ▸ hshape) hcrowded hleftFull
  -- A batch that is full now is drawn at once, whatever was counted in between.
  have hfinish {counted : Link (Traced σ)} {slots : Nat}
      (hbatch : counted.delivery.batch = some (left.add primitive))
      (hcounted : counted.Delivers (produced ++ primitive.drawings) slots) :
      Gives (drawBatchIf o.traced (·.isFull)) counted fun _ after =>
        after.Delivers (produced ++ primitive.drawings) slots ∧ after.HasRoom := by
    refine (gives_drawBatchIf ho hcounted hbatch (Batch.isFull_emptied _)).imp ?_
    rintro _ after ⟨hafter, last, hlast, _, hlastFull⟩
    refine ⟨hafter, fun other hother => ?_⟩
    rw [hlast] at hother
    cases hother
    exact hlastFull
  have hbatch : spaced.delivery.batch.map (·.add primitive) = some (left.add primitive) := by
    rw [hleft]
    rfl
  cases primitive with
  | triangle p q r =>
    apply gives_bind
    apply gives_count
    refine hfinish hbatch ⟨hadded.fits, hadded.sound, hadded.drawings, ?_⟩
    have hslots := hadded.slots
    simp only [Primitive.triangleSlots] at hslots ⊢
    omega
  | corners topLeft topRight bottomLeft bottomRight => exact hfinish hbatch hadded
  | rect area => exact hfinish hbatch hadded
  | fill area => exact hfinish hbatch hadded

theorem gives_perform (ho : o.Forgiving) (scene : Scene) {request : Request}
    (hsuits : request.Suits) (h : link.Delivers produced slots) (hroom : link.HasRoom) :
    Gives (perform o.traced scene request) link fun _ after =>
      after.Delivers (produced ++ request.drawings) (slots + request.triangleSlots) ∧
        after.HasRoom := by
  have hnone {after : Link (Traced σ)} (hafter : after.delivery.batch = none) : after.HasRoom :=
    fun b hb => absurd (hafter.symm.trans hb) nofun
  cases request with
  | close =>
    refine (gives_closeBatch ho h).imp fun _ after ⟨hafter, hbatch⟩ => ⟨?_, hnone hbatch⟩
    exact (List.append_nil produced).symm ▸ hafter
  | retexture =>
    refine gives_bind ((gives_settle ho h).imp fun _ after ⟨hafter, hbatch⟩ => gives_update ?_)
    refine ⟨?_, hnone hbatch⟩
    exact (List.append_nil produced).symm ▸ hafter.congr rfl rfl rfl rfl
  | drop =>
    rw [perform]
    apply gives_count
    refine ⟨⟨h.fits, h.sound, ?_, congrArg (· + 1) h.slots⟩, hroom⟩
    exact h.drawings.trans (List.append_nil produced).symm
  | draw key primitive => exact gives_draw ho scene hsuits h hroom

private theorem gives_performAll (ho : o.Forgiving) (scene : Scene) {requests : List Request}
    (hsuits : ∀ request ∈ requests, request.Suits) (h : link.Delivers produced slots)
    (hroom : link.HasRoom) :
    Gives (performAll o.traced scene requests) link fun _ after =>
      after.Delivers (produced ++ requests.flatMap Request.drawings)
        (slots + (requests.map Request.triangleSlots).sum) ∧ after.HasRoom := by
  induction requests generalizing link produced slots with
  | nil =>
    refine gives_pure ⟨?_, hroom⟩
    rw [List.flatMap_nil, List.append_nil]
    exact h
  | cons request requests ih =>
    obtain ⟨hfirst, hrest⟩ := List.forall_mem_cons.mp hsuits
    refine gives_bind ((gives_perform ho scene hfirst h hroom).imp ?_)
    rintro _ after ⟨hafter, hafterRoom⟩
    rw [List.flatMap_cons, ← List.append_assoc, List.map_cons, List.sum_cons, ← Nat.add_assoc]
    exact ih hrest hafter hafterRoom

end DeliverM

namespace Machine

variable {o : Outlet σ} {ram : Ram} {settings : ListSettings} {m : Machine (Traced σ)}
  {produced : List Drawing} {slots : Nat}

private theorem delivers_step (ho : o.Forgiving) (ram : Ram) (settings : ListSettings)
    (h : m.link.Delivers produced slots) (hroom : m.link.HasRoom) :
    let step := m.step o.traced ram settings
    step.after.link.Delivers (produced ++ m.visit.drawings ram settings)
        (slots + m.visit.triangleSlots ram) ∧
      step.after.link.HasRoom := by
  intro step
  have hcounted : m.counted.Delivers produced slots := h.congr rfl rfl rfl rfl
  obtain ⟨_, link, hperformed, hlink, hlinkRoom⟩ := DeliverM.gives_performAll ho
    (m.visit.scene ram settings) ((m.visit.scene ram settings).suits_requests
      (m.visit.instruction ram)) hcounted hroom
  rw [Scene.drawings_requests, Scene.triangleSlots_requests] at hlink
  obtain ⟨after, hbeside, _, _, hstep⟩ := step_of_performed hperformed
  have hlast := hbeside.trans (follow_beside after settings.maxDepth m.walk.address
    ((m.visit.scene ram settings).move (Instruction.fetch ram m.walk.address).2
      (m.visit.instruction ram)))
  rw [← hstep] at hlast
  refine ⟨hlink.congr ?_ hlast.sink hlast.triangles hlast.dropped, ?_⟩
  · rw [hlast.delivery]
  · intro b hb
    rw [hlast.delivery] at hb
    exact hlinkRoom b hb

theorem delivers_walkFor (ho : o.Forgiving) (ram : Ram) (settings : ListSettings) (budget : Nat)
    (h : m.link.Delivers produced slots) (hroom : m.link.HasRoom) :
    let visits := (m.course o.traced ram settings budget).map (·.visit)
    (m.walkFor o.traced ram settings budget).1.link.Delivers
      (produced ++ visits.flatMap (·.drawings ram settings))
      (slots + (visits.map (·.triangleSlots ram)).sum) := by
  refine (walkFor_accumulates (R := fun past m _ =>
    m.link.Delivers (produced ++ (past.map (·.visit)).flatMap (·.drawings ram settings))
      (slots + ((past.map (·.visit)).map (·.triangleSlots ram)).sum) ∧ m.link.HasRoom) ?_ budget
    ⟨?_, hroom⟩).1
  · rintro past m ⟨hm, hmRoom⟩
    rw [List.map_append, List.map_singleton, List.flatMap_append, List.flatMap_singleton,
      List.map_append, List.map_singleton, List.sum_append, List.sum_singleton,
      ← List.append_assoc, ← Nat.add_assoc]
    exact delivers_step ho ram settings hm hmRoom
  · rwa [List.map_nil, List.flatMap_nil, List.append_nil]

end Machine

namespace ListProcessor

variable {o : Outlet σ}

/-- Whatever is refused, and however a run ends, it submits for drawing what its instructions drew, in
order and in commands that fit, and it counts every triangle. -/
theorem run_draws (ho : o.Forgiving) (p : ListProcessor) (hclosed : p.delivery.batch = none)
    (ram : Ram) (start : UInt32) (sink : σ) :
    let visits := p.visits o.traced ram start ⟨sink, []⟩
    let result := p.run o.traced ram start ⟨sink, []⟩
    let tally := result.1.journal.tally
    result.2.1.drawings = visits.flatMap (·.drawings ram p.settings) ∧
      (∀ a ∈ result.2.1.attempts, a.command.WithinLimits) ∧
      tally.triangles + tally.droppedTriangles =
        p.journal.tally.triangles + p.journal.tally.droppedTriangles +
          (visits.map (·.triangleSlots ram)).sum ∧
      result.1.delivery.batch = none ∧ ∀ cause, result.2.2 ≠ .aborted (.refused cause) := by
  intro visits result tally
  let m : Machine (Traced σ) := p.machine ram start ⟨sink, []⟩
  have hstart : m.link.Delivers [] (p.journal.tally.triangles + p.journal.tally.droppedTriangles) :=
    { fits := fun _ h => absurd h List.not_mem_nil
      sound := fun b hb => absurd (hclosed.symm.trans hb) nofun
      drawings := congrArg (Option.elim · [] Batch.drawings) hclosed
      slots := rfl }
  have hroom : m.link.HasRoom := fun b hb => absurd (hclosed.symm.trans hb) nofun
  have hlast := Machine.delivers_walkFor ho ram p.settings p.settings.budget hstart hroom
  obtain ⟨link, ⟨hlink, hnone⟩, hrun⟩ := run_closes rfl
    (Machine.walkFor_not_refused ho.traced ram p.settings p.settings.budget m) fun link hbeside =>
      DeliverM.gives_closeBatch ho (hlast.congr (congrArg _ hbeside.delivery) hbeside.sink
        hbeside.triangles hbeside.dropped)
  have hdrawings := hlink.drawings
  rw [hnone] at hdrawings
  have houtcome := run_not_refused ho.traced p ram start ⟨sink, []⟩
  rw [hrun] at houtcome
  simp only [tally, result, hrun]
  exact ⟨(List.append_nil _).symm.trans hdrawings, hlink.fits, hlink.slots, hnone, houtcome⟩

/-- A triangle and two fills. -/
def threeShapesRam : Ram where
  bytes := ⟨([0x05000204, 0, 0xF6028028, 0, 0xF6050028, 0x28000, 0xDF000000, 0].flatMap
    Word.be32).toArray⟩
  logSize := 5
  size_eq := by decide +kernel
  logSize_le := by decide

theorem run_draws_threeShapes :
    let p := ofSettings { budget := 4 }
    (Outlet.refusingOnly 0).Forgiving ∧ p.delivery.batch = none ∧
      (p.run (Outlet.refusingOnly 0).traced threeShapesRam 0 ⟨0, []⟩).2.1.drawings =
        [.fill ⟨0, 0, 10, 10, ⟨0, 0, 0, 0⟩⟩, .fill ⟨10, 0, 20, 10, ⟨0, 0, 0, 0⟩⟩] := by
  have h := run_draws (Outlet.refusingOnly_forgiving 0) (ofSettings { budget := 4 }) rfl
    threeShapesRam 0 0
  exact ⟨Outlet.refusingOnly_forgiving 0, rfl, h.1.trans (by decide +kernel)⟩

end ListProcessor

end DisplayPipeline
