import DisplayPipeline.DisplayList.Delivery
import DisplayPipeline.Proofs.Checked.Requests

namespace DisplayPipeline.Checked

/-! ## Combiner stages -/

def colorInput (input : Nat → Combiner.ColorInput) (selector : Nat) :
    Checked Combiner.ColorInput := do
  if selector ≤ 5 then
    let _ ← place 6 selector
  return input selector

private theorem colorInput_eq (input : Nat → Combiner.ColorInput) (selector : Nat) :
    colorInput input selector = .ok (input selector) := by
  unfold colorInput
  split
  · rw [place_eq (by omega)]
    rfl
  · rfl

def stages (mux : UInt64) : Checked Combiner.Stages := do
  let high := fieldNat (mux >>> 32).toUInt32
  let low := fieldNat mux.toUInt32
  let a := colorInput Combiner.colorA
  let b := colorInput Combiner.colorB
  let c := colorInput Combiner.colorC
  let d := colorInput Combiner.colorD
  let abd (selector : Nat) := Combiner.alphaABD selector
  return {
    color :=
      { first := ⟨← a (← high 20 4), ← b (← low 28 4), ← c (← high 15 5), ← d (← low 15 3)⟩
        second := ⟨← a (← high 5 4), ← b (← low 24 4), ← c (← high 0 5), ← d (← low 6 3)⟩ }
    alpha :=
      { first :=
          ⟨abd (← high 12 3), abd (← low 12 3), Combiner.alphaC (← high 9 3), abd (← low 9 3)⟩
        second :=
          ⟨abd (← low 21 3), abd (← low 3 3), Combiner.alphaC (← low 18 3), abd (← low 0 3)⟩ } }

private theorem stages_eq (mux : UInt64) : stages mux = .ok (.ofMux mux) := by
  simp (disch := decide) only [stages, fieldNat_eq, colorInput_eq, ok_bind]
  rfl

def combinerFor (scene : Scene) (key : BatchKey) : Checked (UInt64 × Combiner.Flags) := do
  if !key.copied then
    let _ ← cycleType scene.registers.render.modes
  return scene.combinerFor key

private theorem combinerFor_eq (scene : Scene) (key : BatchKey) :
    combinerFor scene key = .ok (scene.combinerFor key) := by
  rw [combinerFor, cycleType_eq]
  split <;> rfl

/-! ## Checked operations within a delivery -/

/-- A part of a delivery with checked operations in it. -/
abbrev Delivering (σ : Type) : Type → Type := ExceptT PoolError (StateT (Link σ) Checked)

variable {σ α β : Type}

/-- A part of a delivery in which nothing can go wrong. -/
def lift (x : DeliverM σ α) : Delivering σ α := fun link =>
  match x link with
  | .ok a link => .ok (.ok a, link)
  | .error cause link => .ok (.error cause, link)

/-- A computation that only looks at the registers. -/
def check (x : Checked α) : Delivering σ α := fun link => do return (.ok (← x), link)

theorem run_lift_of_ok {x : DeliverM σ α} {link next : Link σ} {a : α} (h : x link = .ok a next) :
    (lift x).run.run link = .ok (.ok a, next) := by
  change lift x link = _
  rw [lift, h]

theorem run_lift_of_error {x : DeliverM σ α} {link next : Link σ} {cause : PoolError}
    (h : x link = .error cause next) : (lift x).run.run link = .ok (.error cause, next) := by
  change lift x link = _
  rw [lift, h]

theorem lift_pure (a : α) : lift (pure a : DeliverM σ α) = pure a := rfl

private theorem lift_bind (x : DeliverM σ α) (f : α → DeliverM σ β) :
    lift (x >>= f) = lift x >>= fun a => lift (f a) := by
  funext link
  cases h : x link with
  | ok a next =>
    simp only [lift, bind, EStateM.bind, ExceptT.bind, ExceptT.mk, ExceptT.bindCont, StateT.bind,
      Except.bind, h]
  | error cause next =>
    simp only [lift, bind, EStateM.bind, ExceptT.bind, ExceptT.mk, ExceptT.bindCont, StateT.bind,
      Except.bind, h]
    rfl

private theorem lift_ite (c : Prop) [Decidable c] (x y : DeliverM σ α) :
    lift (if c then x else y) = if c then lift x else lift y := by
  split <;> rfl

@[simp] theorem check_ok_bind (a : α) (f : α → Delivering σ β) : check (.ok a) >>= f = f a := rfl

/-! ## Batches -/

section Batches

variable (o : Outlet σ) (scene : Scene)

def sendTexture (unit : UInt8) (tile : TileIndex) : Delivering σ Bool := do
  let link ← lift get
  let _ ← check (place 2 unit.toNat)
  if !link.delivery.texturesStale && link.delivery.told.tiles.get unit == some tile then return true
  else
    let command? ← check (textureCommand scene unit tile)
    let accepted ←
      match command? with
      | none => pure true
      | some command => lift (DeliverM.submit o command)
    if accepted then
      lift (DeliverM.update fun d => { d with told.tiles := d.told.tiles.set unit (some tile) })
    return accepted

def sendTextures (tile : TileIndex) (mux : UInt64) : Delivering σ Unit := do
  let first ← sendTexture o scene 0 tile
  let stages ← check (stages (Combiner.Key.ofMux mux .none).mux)
  let second ←
    if stages.readsSecondTexel then do
      let next ← check (place 8 ((tile.val + 1) &&& 7))
      sendTexture o scene 1 next
    else pure true
  if first && second then
    lift (DeliverM.update ({ · with texturesStale := false }))

def openBatch (key : BatchKey) : Delivering σ Unit := do
  let link ← lift get
  if link.delivery.batch.map (·.key) ≠ some key then
    lift (DeliverM.settle o)
    if key.shape ≠ .fills then
      let combiner ← check (combinerFor scene key)
      lift (DeliverM.tellRegisters o scene key)
      if key.textured then
        sendTextures o scene key.tile combiner.1
    lift (DeliverM.update ({ · with batch := some { key } }))

def draw (key : BatchKey) (primitive : Primitive) : Delivering σ Unit := do
  openBatch o scene key
  lift (DeliverM.drawBatchIf o (·.isCrowdedFor primitive))
  lift (DeliverM.update fun d => { d with batch := d.batch.map (·.add primitive) })
  match primitive with
  | .triangle .. => lift (DeliverM.count fun tally => { tally with triangles := tally.triangles + 1 })
  | _ => pure ()
  lift (DeliverM.drawBatchIf o (·.isFull))

def perform : Request → Delivering σ Unit
  | .draw key primitive => draw o scene key primitive
  | request => lift (DeliverM.perform o scene request)

def performAll : List Request → Delivering σ Unit
  | [] => pure ()
  | request :: requests => do
    perform o scene request
    performAll requests

variable {scene : Scene} (h : scene.registers.Bounded)

include h

private theorem sendTexture_eq {unit : UInt8} (hunit : unit.toNat < 2) (tile : TileIndex) :
    sendTexture o scene unit tile = lift (DeliverM.sendTexture o scene unit tile) := by
  simp only [sendTexture, DeliverM.sendTexture, lift_bind, lift_ite, place_eq hunit, check_ok_bind,
    textureCommand_eq h]
  cases scene.textureCommand? unit tile <;> simp only [lift_bind, lift_ite, lift_pure]

private theorem sendTextures_eq (tile : TileIndex) (mux : UInt64) :
    sendTextures o scene tile mux = lift (DeliverM.sendTextures o scene tile mux) := by
  have hnext : place 8 ((tile.val + 1) &&& 7) = .ok tile.next := by
    rw [Nat.and_two_pow_sub_one_eq_mod _ 3, place_eq (Nat.mod_lt _ (by decide))]
    rfl
  simp only [sendTextures, DeliverM.sendTextures, lift_bind, lift_ite, lift_pure,
    sendTexture_eq o h (by decide : (0 : UInt8).toNat < 2),
    sendTexture_eq o h (by decide : (1 : UInt8).toNat < 2), stages_eq, hnext, check_ok_bind]
  rfl

private theorem openBatch_eq (key : BatchKey) :
    openBatch o scene key = lift (DeliverM.openBatch o scene key) := by
  simp only [openBatch, DeliverM.openBatch, lift_bind, lift_ite, lift_pure, combinerFor_eq,
    check_ok_bind, sendTextures_eq o h]

private theorem draw_eq (key : BatchKey) (primitive : Primitive) :
    draw o scene key primitive = lift (DeliverM.draw o scene key primitive) := by
  simp only [draw, DeliverM.draw, lift_bind, openBatch_eq o h]
  cases primitive <;> rfl

private theorem perform_eq (request : Request) :
    perform o scene request = lift (DeliverM.perform o scene request) := by
  cases request with
  | draw key primitive => exact draw_eq o h key primitive
  | _ => rfl

/-- What an instruction asks for is delivered without a fault. -/
theorem performAll_eq (requests : List Request) :
    performAll o scene requests = lift (DeliverM.performAll o scene requests) := by
  induction requests with
  | nil => rfl
  | cons request requests ih =>
    rw [performAll, DeliverM.performAll, lift_bind, ih, perform_eq o h]

end Batches

end DisplayPipeline.Checked
