import DisplayPipeline.Proofs.DisplayList.FinalRefusal

namespace DisplayPipeline

structure Stray where
  code : UInt8
  /-- The address of its instruction. -/
  address : UInt32
deriving DecidableEq, Repr

def ListEvent.stray? : ListEvent → Option Stray
  | unknownOpcode code address => some ⟨code, address⟩
  | _ => none

namespace Journal

/-- What was reported from one journal to the other warned about these unknown opcodes, and so many
were counted. -/
structure Warns (before after : Journal) (warned : List Stray) (count : Nat) : Prop where
  events : ∃ sent, after.events.toList = before.events.toList ++ sent ∧
    sent.filterMap (·.stray?) = warned
  unknown : after.tally.unknownOpcodes = before.tally.unknownOpcodes + count

variable {before after last : Journal} {warned more : List Stray} {count further : Nat}

theorem Warns.trans (h : before.Warns after warned count) (h' : after.Warns last more further) :
    before.Warns last (warned ++ more) (count + further) := by
  obtain ⟨sent, hsent, hwarned⟩ := h.events
  obtain ⟨sent', hsent', hmore⟩ := h'.events
  refine ⟨⟨sent ++ sent', ?_, ?_⟩, ?_⟩
  · rw [hsent', hsent, List.append_assoc]
  · rw [List.filterMap_append, hwarned, hmore]
  · rw [h'.unknown, h.unknown, Nat.add_assoc]

/-- Nothing was said of opcodes. -/
def NoStrays (before after : Journal) : Prop := before.Warns after [] 0

theorem noStrays_of_events (hevents : after.events = before.events)
    (hunknown : after.tally.unknownOpcodes = before.tally.unknownOpcodes) : before.NoStrays after :=
  ⟨⟨[], by rw [hevents, List.append_nil], rfl⟩, hunknown⟩

theorem NoStrays.refl (j : Journal) : j.NoStrays j := noStrays_of_events rfl rfl

theorem NoStrays.trans (h : before.NoStrays after) (h' : after.NoStrays last) :
    before.NoStrays last :=
  Warns.trans h h'

theorem noStrays_of_report (event : ListEvent) (hevent : event.stray? = none)
    (hevents : after.events = before.events.push event)
    (hunknown : after.tally.unknownOpcodes = before.tally.unknownOpcodes) : before.NoStrays after := by
  refine ⟨⟨[event], ?_, ?_⟩, hunknown⟩
  · rw [hevents, Array.toList_push]
  · rw [List.filterMap_cons_none hevent, List.filterMap_nil]

end Journal

namespace DeliverM

variable {σ α β : Type} {o : Outlet σ}

/-- Also if a final refusal ends it, the part says nothing of opcodes. -/
def NoStrays (x : DeliverM σ α) : Prop :=
  ∀ link, Leaves x link (fun _ after => link.journal.NoStrays after.journal)
    fun _ after => link.journal.NoStrays after.journal

section Rules

private theorem noStrays_pure (a : α) : NoStrays (pure a : DeliverM σ α) := fun link =>
  leaves_pure (Journal.NoStrays.refl link.journal)

private theorem noStrays_bind {x : DeliverM σ α} {f : α → DeliverM σ β} (hx : NoStrays x)
    (hf : ∀ a, NoStrays (f a)) : NoStrays (x >>= f) := fun link =>
  leaves_bind ((hx link).imp
    (fun a after hafter =>
      (hf a after).imp (fun _ _ hlast => hafter.trans hlast) fun _ _ hlast => hafter.trans hlast)
    fun _ _ => id)

private theorem noStrays_look {f : Link σ → DeliverM σ β} (h : ∀ link, NoStrays (f link)) :
    NoStrays (get >>= f) := fun link => leaves_look (h link link)

private theorem noStrays_update (f : Delivery → Delivery) : NoStrays
    (update f : DeliverM σ Unit) := fun link =>
  leaves_update (Journal.NoStrays.refl link.journal)

private theorem noStrays_count {f : ListTally → ListTally}
    (h : ∀ tally, (f tally).unknownOpcodes = tally.unknownOpcodes) :
    NoStrays (count f : DeliverM σ Unit) := fun link =>
  leaves_count (Journal.noStrays_of_events rfl (h link.journal.tally))

private theorem noStrays_if {condition : Prop} [Decidable condition] {x y : DeliverM σ α}
    (hx : NoStrays x) (hy : NoStrays y) : NoStrays (if condition then x else y) := fun link =>
  leaves_if (fun _ => hx link) fun _ => hy link

private theorem noStrays_submit (command : Command) : NoStrays (submit o command) := by
  rintro ⟨delivery, journal, sink⟩
  have hrefused (cause : PoolError) : journal.NoStrays (journal.refuse command.kind cause) :=
    Journal.noStrays_of_report (.refused command.kind cause) rfl rfl rfl
  unfold Leaves submit
  dsimp only
  obtain ⟨after, answer⟩ := o.submit command sink
  cases answer with
  | ok _ => exact Journal.NoStrays.refl journal
  | error cause =>
    dsimp only
    cases cause.isFinal <;> exact hrefused cause

end Rules

section Parts

private theorem noStrays_drawBatch : NoStrays (drawBatch o) := by
  refine noStrays_look fun link => ?_
  split
  · exact noStrays_pure _
  · refine noStrays_bind (noStrays_update _) fun _ => ?_
    refine noStrays_bind (noStrays_count fun _ => rfl) fun _ => ?_
    exact noStrays_bind (noStrays_submit _) fun _ => noStrays_pure _

theorem noStrays_closeBatch : NoStrays (closeBatch o) :=
  noStrays_look fun _ =>
    noStrays_if (noStrays_bind noStrays_drawBatch fun _ => noStrays_update _) (noStrays_pure _)

private theorem noStrays_announce (writes : List MemoryWrite) : NoStrays (announce o writes) := by
  induction writes with
  | nil => exact noStrays_pure _
  | cons write writes ih => exact noStrays_bind (noStrays_submit _) fun _ => ih

private theorem noStrays_settle : NoStrays (settle o) := by
  refine noStrays_bind noStrays_closeBatch fun _ => noStrays_look fun link => ?_
  refine noStrays_if ?_ (noStrays_pure _)
  refine noStrays_bind (noStrays_update _) fun _ => ?_
  exact noStrays_bind (noStrays_announce _) fun _ => noStrays_update _

private theorem noStrays_tell (command : Command) (isKnown : Told → Bool) (remember : Told → Told) :
    NoStrays (tell o command isKnown remember) := by
  refine noStrays_look fun link => noStrays_if ?_ (noStrays_pure _)
  exact noStrays_bind (noStrays_submit _) fun _ => noStrays_if (noStrays_update _) (noStrays_pure _)

private theorem noStrays_tellRegisters (scene : Scene) (key : BatchKey) :
    NoStrays (tellRegisters o scene key) :=
  noStrays_bind (noStrays_tell _ _ _) fun _ =>
    noStrays_bind (noStrays_tell _ _ _) fun _ => noStrays_tell _ _ _

private theorem noStrays_sendTexture (scene : Scene) (unit : UInt8) (tile : TileIndex) :
    NoStrays (sendTexture o scene unit tile) := by
  have hrest (accepted : Bool) : NoStrays (if accepted = true then do
        update fun d => { d with told.tiles := d.told.tiles.set unit (some tile) }
        pure accepted
      else pure accepted : DeliverM σ Bool) :=
    noStrays_if (noStrays_bind (noStrays_update _) fun _ => noStrays_pure _) (noStrays_pure _)
  refine noStrays_look fun link => noStrays_if (noStrays_pure _) ?_
  cases scene.textureCommand? unit tile with
  | none => exact noStrays_bind (noStrays_pure true) hrest
  | some command => exact noStrays_bind (noStrays_submit command) hrest

private theorem noStrays_sendTextures (scene : Scene) (tile : TileIndex) (mux : UInt64) :
    NoStrays (sendTextures o scene tile mux) := by
  refine noStrays_bind (noStrays_sendTexture scene 0 tile) fun first => ?_
  have hrest (second : Bool) : NoStrays (do
      if first && second then
        update ({ · with texturesStale := false }) : DeliverM σ Unit) :=
    noStrays_if (noStrays_update _) (noStrays_pure _)
  refine noStrays_if (noStrays_bind (noStrays_sendTexture scene 1 tile.next) hrest) ?_
  exact noStrays_bind (noStrays_pure true) hrest

private theorem noStrays_openBatch (scene : Scene) (key : BatchKey) : NoStrays
    (openBatch o scene key) := by
  refine noStrays_look fun link => ?_
  refine noStrays_if (noStrays_bind noStrays_settle fun _ => ?_) (noStrays_pure _)
  refine noStrays_if (noStrays_bind (noStrays_tellRegisters scene key) fun _ => ?_) (noStrays_update _)
  exact noStrays_if (noStrays_bind (noStrays_sendTextures scene _ _) fun _ => noStrays_update _)
    (noStrays_update _)

private theorem noStrays_drawBatchIf (condition : Batch → Bool) : NoStrays
    (drawBatchIf o condition) :=
  noStrays_look fun _ => noStrays_if noStrays_drawBatch (noStrays_pure _)

private theorem noStrays_draw (scene : Scene) (key : BatchKey) (primitive : Primitive) :
    NoStrays (draw o scene key primitive) := by
  refine noStrays_bind (noStrays_openBatch scene key) fun _ => ?_
  refine noStrays_bind (noStrays_drawBatchIf _) fun _ => noStrays_bind (noStrays_update _) fun _ => ?_
  cases primitive with
  | triangle p q r => exact noStrays_bind (noStrays_count fun _ => rfl) fun _ => noStrays_drawBatchIf _
  | corners topLeft topRight bottomLeft bottomRight => exact noStrays_drawBatchIf _
  | rect area => exact noStrays_drawBatchIf _
  | fill area => exact noStrays_drawBatchIf _

private theorem noStrays_perform (scene : Scene) (request : Request) : NoStrays
    (perform o scene request) := by
  cases request with
  | close => exact noStrays_closeBatch
  | retexture => exact noStrays_bind noStrays_settle fun _ => noStrays_update _
  | drop =>
    have hcount (tally : ListTally) :
        { tally with droppedTriangles := tally.droppedTriangles + 1 }.unknownOpcodes =
          tally.unknownOpcodes := rfl
    exact noStrays_count hcount
  | draw key primitive => exact noStrays_draw scene key primitive

theorem noStrays_performAll (scene : Scene) (requests : List Request) :
    NoStrays (performAll o scene requests) := by
  induction requests with
  | nil => exact noStrays_pure _
  | cons request requests ih => exact noStrays_bind (noStrays_perform scene request) fun _ => ih

end Parts

end DeliverM

end DisplayPipeline
