import DisplayPipeline.Proofs.DisplayList.FinalRefusal

/-!
# What refusals do not touch

A refusal makes the delivery forget what the renderer was told, and that leads to other commands that
tell it again. The essence of a delivery is the rest: the open batch, the writes to report, the
counts but that of refusals, and what was submitted to draw or to report a write. Each part of a
delivery moves the essence in one way, whatever was forgotten and whatever is refused, unless a final
refusal ends it.
-/

namespace DisplayPipeline

variable {σ : Type}

/-- Whether a command draws or reports a write. The others tell the renderer what it may know. -/
def Command.isEssential (command : Command) : Bool :=
  command.draws || command.kind == .invalidateRange

def ListTally.served (t : ListTally) : ListTally := { t with refusals := 0 }

/-- What was submitted to draw or to report a write, accepted or not, in order. -/
def Traced.essential (t : Traced σ) : List Command :=
  (t.attempts.map (·.command)).filter (·.isEssential)

/-- What refusals do not touch. -/
structure Essence where
  batch : Option Batch
  writes : List MemoryWrite
  /-- The counts but that of refusals. -/
  tally : ListTally
  /-- What was submitted to draw or to report a write. -/
  commands : List Command
deriving DecidableEq, Repr

namespace Essence

def drawn (e : Essence) : Essence :=
  match e.batch.bind fun batch => batch.command?.map (batch, ·) with
  | none => e
  | some (batch, command) =>
    { e with
      batch := some batch.emptied
      tally.batches := e.tally.batches + 1
      commands := e.commands ++ [command] }

def closed (e : Essence) : Essence :=
  if e.batch.isSome then { e.drawn with batch := none } else e

def announced (e : Essence) : Essence :=
  { e with
    writes := []
    commands := e.commands ++ e.writes.map fun write =>
      .invalidateRange write.address write.length }

def settled (e : Essence) : Essence := e.closed.announced

def opened (e : Essence) (key : BatchKey) : Essence :=
  if e.batch.map (·.key) ≠ some key then { e.settled with batch := some { key } } else e

def drawnIf (e : Essence) (condition : Batch → Bool) : Essence :=
  if e.batch.any condition then e.drawn else e

def added (e : Essence) (primitive : Primitive) : Essence :=
  { e with batch := e.batch.map (·.add primitive) }

def counted (e : Essence) : Primitive → Essence
  | .triangle .. => { e with tally.triangles := e.tally.triangles + 1 }
  | _ => e

def performed (e : Essence) : Request → Essence
  | .close => e.closed
  | .retexture => e.settled
  | .drop => { e with tally.droppedTriangles := e.tally.droppedTriangles + 1 }
  | .draw key primitive =>
    ((((e.opened key).drawnIf (·.isCrowdedFor primitive)).added primitive).counted primitive).drawnIf
      (·.isFull)

end Essence

def Link.essence (link : Link (Traced σ)) : Essence where
  batch := link.delivery.batch
  writes := link.delivery.writes
  tally := link.journal.tally.served
  commands := link.sink.essential

private theorem Traced.essential_add (t : Traced σ) (sink : σ) (command : Command)
    (refusal : Option PoolError) :
    (t.add sink command refusal).essential =
      t.essential ++ if command.isEssential then [command] else [] := by
  rw [add, essential, List.map_append, List.filter_append]
  congr 1
  cases h : command.isEssential <;> simp [h]

namespace DeliverM

variable {α β : Type} {o : Outlet σ} {link : Link (Traced σ)} {e last : Essence}

/-- Unless a final refusal ends the part, it comes to a certain essence. -/
def ComesTo (x : DeliverM (Traced σ) α) (link : Link (Traced σ)) (e : Essence) : Prop :=
  Leaves x link (fun _ after => after.essence = e) fun _ _ => True

section Rules

variable {x : DeliverM (Traced σ) α} {f : α → DeliverM (Traced σ) β}

private theorem comesTo_pure {a : α} (h : link.essence = e) :
    ComesTo (pure a : DeliverM (Traced σ) α) link e := h

private theorem comesTo_bind (hx : ComesTo x link e)
    (hf : ∀ a after, after.essence = e → ComesTo (f a) after last) :
    ComesTo (x >>= f) link last :=
  leaves_bind (hx.imp hf fun _ _ => id)

private theorem comesTo_look {f : Link (Traced σ) → DeliverM (Traced σ) β}
    (h : ComesTo (f link) link e) :
    ComesTo (get >>= f) link e := h

private theorem comesTo_if {condition : Prop} [Decidable condition] {y : DeliverM (Traced σ) α}
    (hx : condition → ComesTo x link e) (hy : ¬ condition → ComesTo y link e) :
    ComesTo (if condition then x else y) link e :=
  leaves_if hx hy

private theorem comesTo_update {f : Delivery → Delivery} (g : Essence → Essence)
    (h : link.essence = e) (hf : ∀ link : Link (Traced σ),
      Link.essence { link with delivery := f link.delivery } = g link.essence) :
    ComesTo (update f) link (g e) :=
  h ▸ hf link

private theorem comesTo_count {f : ListTally → ListTally} (g : Essence → Essence)
    (h : link.essence = e) (hf : ∀ link : Link (Traced σ),
      Link.essence { link with journal.tally := f link.journal.tally } = g link.essence) :
    ComesTo (count f) link (g e) :=
  h ▸ hf link

/-- A submission is noted if it is essential; whether it is refused does not matter. -/
theorem comesTo_submit (o : Outlet σ) (command : Command) (link : Link (Traced σ)) :
    ComesTo (submit o.traced command) link
      { link.essence with
        commands := link.essence.commands ++ if command.isEssential then [command] else [] } := by
  have hadded (sink : σ) (refusal : Option PoolError) := link.sink.essential_add sink command refusal
  refine leaves_submit_traced (fun sink => ?_) (fun sink cause => ?_) fun _ _ => trivial
  · exact congrArg (Essence.mk _ _ _) (hadded sink none)
  · exact congrArg (Essence.mk _ _ _) (hadded sink (some cause))

private theorem comesTo_submit_essential {command : Command} (hcommand : command.isEssential = true)
    (h : link.essence = e) :
    ComesTo (submit o.traced command) link { e with commands := e.commands ++ [command] } := by
  have hsubmit := comesTo_submit o command link
  rwa [if_pos hcommand, h] at hsubmit

private theorem comesTo_submit_other {command : Command} (hcommand : command.isEssential = false)
    (h : link.essence = e) : ComesTo (submit o.traced command) link e := by
  have hsubmit := comesTo_submit o command link
  rwa [if_neg (Bool.eq_false_iff.mp hcommand), List.append_nil, h] at hsubmit

end Rules

section Parts

private theorem isEssential_of_command? {b : Batch} {command : Command}
    (h : b.command? = some command) :
    command.isEssential = true := by
  rw [Command.isEssential, Batch.draws_of_command? h, Bool.true_or]

private theorem isEssential_of_textureCommand? {scene : Scene} {unit : UInt8} {tile : TileIndex}
    {command : Command} (h : scene.textureCommand? unit tile = some command) :
    command.isEssential = false := by
  have hdraws := Command.draws_of_textureUnit? (Scene.textureUnit?_of_textureCommand? h)
  rcases scene.kind_of_textureCommand? h with hkind | hkind <;>
    simp [Command.isEssential, hdraws, hkind]

private theorem comesTo_drawBatch (h : link.essence = e) : ComesTo
    (drawBatch o.traced) link e.drawn := by
  subst h
  apply comesTo_look
  cases hpending : link.delivery.batch.bind fun batch => batch.command?.map (batch, ·) with
  | none =>
    have hdrawn : link.essence.drawn = link.essence := by
      simp only [Essence.drawn, show link.essence.batch = link.delivery.batch from rfl, hpending]
    exact comesTo_pure hdrawn.symm
  | some pending =>
    obtain ⟨batch, command⟩ := pending
    have hdrawn : link.essence.drawn =
        { link.essence with
          batch := some batch.emptied
          tally.batches := link.essence.tally.batches + 1
          commands := link.essence.commands ++ [command] } := by
      simp only [Essence.drawn, show link.essence.batch = link.delivery.batch from rfl, hpending]
    obtain ⟨_, _, hcommand⟩ := Option.bind_eq_some_iff.mp hpending
    obtain ⟨_, hcommand, hsame⟩ := Option.map_eq_some_iff.mp hcommand
    cases hsame
    rw [hdrawn]
    refine comesTo_bind (comesTo_update ({ · with batch := some batch.emptied }) rfl fun _ => rfl) ?_
    intro _ emptied hemptied
    refine comesTo_bind (comesTo_count (fun e => { e with tally.batches := e.tally.batches + 1 })
      hemptied fun _ => rfl) ?_
    intro _ counted hcounted
    refine comesTo_bind (comesTo_submit_essential (isEssential_of_command? hcommand) hcounted) ?_
    exact fun _ _ hafter => comesTo_pure hafter

private theorem comesTo_drawBatchIf (h : link.essence = e) (condition : Batch → Bool) :
    ComesTo (drawBatchIf o.traced condition) link (e.drawnIf condition) := by
  subst h
  apply comesTo_look
  unfold Essence.drawnIf
  change ComesTo _ _ (if link.delivery.batch.any condition then _ else _)
  split
  · exact comesTo_drawBatch rfl
  · exact comesTo_pure rfl

theorem comesTo_closeBatch (h : link.essence = e) : ComesTo
    (closeBatch o.traced) link e.closed := by
  subst h
  apply comesTo_look
  unfold Essence.closed
  change ComesTo _ _ (if link.delivery.batch.isSome then _ else _)
  split
  · refine comesTo_bind (comesTo_drawBatch rfl) fun _ after hafter => ?_
    exact comesTo_update ({ · with batch := none }) hafter fun _ => rfl
  · exact comesTo_pure rfl

private theorem comesTo_announce (h : link.essence = e) (writes : List MemoryWrite) :
    ComesTo (announce o.traced writes) link
      { e with
        commands := e.commands ++ writes.map fun write =>
          .invalidateRange write.address write.length } := by
  induction writes generalizing link e with
  | nil =>
    rw [List.map_nil, List.append_nil]
    exact comesTo_pure h
  | cons write writes ih =>
    rw [List.map_cons, List.append_cons]
    refine comesTo_bind (comesTo_submit_essential rfl h) fun _ after hafter => ?_
    exact ih hafter

private theorem comesTo_announceWrites (h : link.essence = e) :
    ComesTo (announceWrites o.traced) link e.announced := by
  subst h
  apply comesTo_look
  split
  · refine comesTo_bind (comesTo_update ({ · with writes := [] }) rfl fun _ => rfl) ?_
    intro _ after hafter
    refine comesTo_bind (comesTo_announce hafter _) fun _ last hlast => ?_
    exact comesTo_update id hlast fun _ => rfl
  · rename_i hnone
    have hwrites : link.delivery.writes = [] := not_not.mp hnone
    have hsame : link.essence.announced = link.essence := by
      simp [Essence.announced, Link.essence, hwrites]
    exact comesTo_pure hsame.symm

private theorem comesTo_settle (h : link.essence = e) : ComesTo (settle o.traced) link e.settled :=
  comesTo_bind (comesTo_closeBatch h) fun _ _ hafter => comesTo_announceWrites hafter

private theorem comesTo_tell {command : Command} {isKnown : Told → Bool} {remember : Told → Told}
    (hcommand : command.isEssential = false) (h : link.essence = e) :
    ComesTo (tell o.traced command isKnown remember) link e := by
  apply comesTo_look
  refine comesTo_if (fun _ => ?_) fun _ => comesTo_pure h
  refine comesTo_bind (comesTo_submit_other hcommand h) fun accepted after hafter => ?_
  exact comesTo_if (fun _ => comesTo_update id hafter fun _ => rfl) fun _ => comesTo_pure hafter

private theorem comesTo_tellRegisters (scene : Scene) (key : BatchKey) (h : link.essence = e) :
    ComesTo (tellRegisters o.traced scene key) link e :=
  comesTo_bind (comesTo_tell rfl h) fun _ _ hcombiner =>
    comesTo_bind (comesTo_tell rfl hcombiner) fun _ _ hmodes => comesTo_tell rfl hmodes

private theorem comesTo_sendTexture (scene : Scene) (unit : UInt8) (tile : TileIndex)
    (h : link.essence = e) : ComesTo (sendTexture o.traced scene unit tile) link e := by
  have hrest (accepted : Bool) {after : Link (Traced σ)} (hafter : after.essence = e) :
      ComesTo (if accepted = true then do
          update fun d => { d with told.tiles := d.told.tiles.set unit (some tile) }
          pure accepted
        else pure accepted) after e :=
    comesTo_if (fun _ => comesTo_bind (comesTo_update id hafter fun _ => rfl) fun _ _ hlast =>
      comesTo_pure hlast) fun _ => comesTo_pure hafter
  apply comesTo_look
  refine comesTo_if (fun _ => comesTo_pure h) fun _ => ?_
  cases hcommand : scene.textureCommand? unit tile with
  | none => exact comesTo_bind (comesTo_pure h) fun accepted _ => hrest accepted
  | some command =>
    refine comesTo_bind (comesTo_submit_other (isEssential_of_textureCommand? hcommand) h) ?_
    exact fun accepted _ => hrest accepted

private theorem comesTo_sendTextures (scene : Scene) (tile : TileIndex) (mux : UInt64)
    (h : link.essence = e) : ComesTo (sendTextures o.traced scene tile mux) link e := by
  have hrest (accepted : Bool) {after : Link (Traced σ)} (hafter : after.essence = e) :
      ComesTo (do if accepted then update ({ · with texturesStale := false })) after e :=
    comesTo_if (fun _ => comesTo_update id hafter fun _ => rfl) fun _ => comesTo_pure hafter
  refine comesTo_bind (comesTo_sendTexture scene 0 tile h) fun accepted after hafter => ?_
  refine comesTo_if (fun _ => ?_) fun _ =>
    comesTo_bind (comesTo_pure hafter) fun second _ => hrest (accepted && second)
  exact comesTo_bind (comesTo_sendTexture scene 1 tile.next hafter) fun second _ =>
    hrest (accepted && second)

private theorem comesTo_openBatch (scene : Scene) (key : BatchKey) (h : link.essence = e) :
    ComesTo (openBatch o.traced scene key) link (e.opened key) := by
  have hopen {after : Link (Traced σ)} (hafter : after.essence = e.settled) :
      ComesTo (update ({ · with batch := some { key } })) after
        { e.settled with batch := some { key } } :=
    comesTo_update ({ · with batch := some { key } }) hafter fun _ => rfl
  apply comesTo_look
  unfold Essence.opened
  rw [show e.batch = link.delivery.batch from h ▸ rfl]
  split
  · refine comesTo_bind (comesTo_settle h) fun _ settled hsettled => ?_
    refine comesTo_if (fun _ => ?_) fun _ => hopen hsettled
    refine comesTo_bind (comesTo_tellRegisters scene key hsettled) fun _ told htold => ?_
    refine comesTo_if (fun _ => ?_) fun _ => hopen htold
    exact comesTo_bind (comesTo_sendTextures scene key.tile _ htold) fun _ _ => hopen
  · exact comesTo_pure h

private theorem comesTo_draw (scene : Scene) (key : BatchKey) (primitive : Primitive)
    (h : link.essence = e) :
    ComesTo (draw o.traced scene key primitive) link (e.performed (.draw key primitive)) := by
  refine comesTo_bind (comesTo_openBatch scene key h) fun _ opened hopened => ?_
  refine comesTo_bind (comesTo_drawBatchIf hopened _) fun _ spaced hspaced => ?_
  refine comesTo_bind (comesTo_update (·.added primitive) hspaced fun _ => rfl) ?_
  intro _ added hadded
  cases primitive with
  | triangle p q r =>
    refine comesTo_bind (comesTo_count (·.counted (.triangle p q r)) hadded fun _ => rfl) ?_
    exact fun _ _ hcounted => comesTo_drawBatchIf hcounted _
  | corners topLeft topRight bottomLeft bottomRight => exact comesTo_drawBatchIf hadded _
  | rect area => exact comesTo_drawBatchIf hadded _
  | fill area => exact comesTo_drawBatchIf hadded _

private theorem comesTo_perform (scene : Scene) (request : Request) (h : link.essence = e) :
    ComesTo (perform o.traced scene request) link (e.performed request) := by
  cases request with
  | close => exact comesTo_closeBatch h
  | retexture =>
    refine comesTo_bind (comesTo_settle h) fun _ after hafter => ?_
    exact comesTo_update id hafter fun _ => rfl
  | drop =>
    exact comesTo_count
      (f := fun tally => { tally with droppedTriangles := tally.droppedTriangles + 1 })
      (·.performed .drop) h fun _ => rfl
  | draw key primitive => exact comesTo_draw scene key primitive h

/-- What is asked for moves the essence, one request after the other. -/
theorem comesTo_performAll (scene : Scene) (requests : List Request) (h : link.essence = e) :
    ComesTo (performAll o.traced scene requests) link (requests.foldl Essence.performed e) := by
  induction requests generalizing link e with
  | nil => exact comesTo_pure h
  | cons request requests ih =>
    exact comesTo_bind (comesTo_perform scene request h) fun _ _ hafter => ih hafter

end Parts

end DeliverM

end DisplayPipeline
