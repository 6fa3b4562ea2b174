import DisplayPipeline.Proofs.DisplayList.TextureFreshness

namespace DisplayPipeline

open Timeline

namespace DeliverM

/-- Commands that are for no texture unit and draw nothing. -/
def IsPlain (command : Command) : Prop := command.textureUnit? = none ∧ command.draws = false

theorem pending?_draws {d : Delivery} {command : Command} (h : pending? d = some command) :
    command.textureUnit? = none ∧ d.batch.isSome := by
  obtain ⟨batch, hbatch, hcommand⟩ := Option.bind_eq_some_iff.mp h
  refine ⟨?_, by rw [hbatch]; rfl⟩
  unfold Batch.command? at hcommand
  split at hcommand
  · cases hcommand
    rfl
  · split at hcommand
    · cases hcommand
      rfl
    · split at hcommand
      · cases hcommand
        rfl
      · cases hcommand

private theorem isPlain_of_registers {command : Command}
    (h : command.kind = .setCombine ∨ command.kind = .setOtherModes ∨ command.kind = .setColors) :
    IsPlain command := by
  cases command <;> first | exact ⟨rfl, rfl⟩ | simp [Command.kind] at h

def settling (d : Delivery) : List Command :=
  (pending? d).toList ++ d.writes.map fun write => .invalidateRange write.address write.length

private theorem get_set (p : PerUnit (Option TileIndex)) (unit other : UInt8) (a : Option TileIndex)
    (hunit : unit = 0 ∨ unit = 1) (hother : other = 0 ∨ other = 1) :
    (p.set unit a).get other = if other = unit then a else p.get other := by
  rcases hunit with rfl | rfl <;> rcases hother with rfl | rfl <;> rfl

private theorem supplied_keeps (d : Delivery) (unit : UInt8) (tile : TileIndex) :
    (supplied d unit tile).texturesStale = d.texturesStale ∧
      (supplied d unit tile).writes = d.writes ∧ (supplied d unit tile).batch = d.batch := by
  unfold supplied
  split <;> exact ⟨rfl, rfl, rfl⟩

private theorem get_supplied (d : Delivery) (unit other : UInt8) (tile : TileIndex)
    (hunit : unit = 0 ∨ unit = 1) (hother : other = 0 ∨ other = 1) :
    (supplied d unit tile).told.tiles.get other =
      if other = unit then some tile else d.told.tiles.get other := by
  unfold supplied
  by_cases hsupplied : isSupplied d unit tile = true
  · rw [if_pos hsupplied]
    simp only [isSupplied, Bool.and_eq_true, beq_iff_eq] at hsupplied
    by_cases hsame : other = unit
    · rw [if_pos hsame, hsame, hsupplied.2]
    · rw [if_neg hsame]
  · rw [if_neg hsupplied]
    exact get_set d.told.tiles unit other (some tile) hunit hother

private theorem supply_congr {d after : Delivery} (scene : Scene) (unit : UInt8) (tile : TileIndex)
    (hstale : after.texturesStale = d.texturesStale)
    (htold : after.told.tiles.get unit = d.told.tiles.get unit) :
    supply scene after unit tile = supply scene d unit tile := by
  rw [supply, supply, isSupplied, isSupplied, hstale, htold]

section Opening

variable {d : Delivery} {scene : Scene} {key : BatchKey}

private theorem says_sendTextures_opening (d : Delivery) (o : Opening)
    (htextured : o.isTextured = true) :
    ∃ after : Delivery,
      Says (sendTextures .recording o.scene o.key.tile (o.scene.combinerFor o.key).1) d () after
        (suppliesFor o d) ∧
        after.writes = d.writes ∧ after.texturesStale = false ∧
        ∀ unit, unit = 0 ∨ unit = 1 → after.told.tiles.get unit =
          if o.reads unit then some (o.tileOf unit) else d.told.tiles.get unit := by
  have hsays := says_sendTextures o.scene o.key.tile (o.scene.combinerFor o.key).1 d
  have hlike : supply o.scene (supplied d 0 o.key.tile) 1 o.key.tile.next =
      supply o.scene d 1 o.key.tile.next := by
    apply supply_congr _ _ _ (supplied_keeps d 0 o.key.tile).1
    rw [get_supplied d 0 1 o.key.tile (Or.inl rfl) (Or.inr rfl), if_neg (by decide)]
  have hzero : o.reads 0 = true := by simp [Opening.reads, htextured]
  by_cases hsecond :
      (Combiner.Key.ofMux (o.scene.combinerFor o.key).1 .none).stages.readsSecondTexel = true
  · have hone : o.reads 1 = true := by simp [Opening.reads, htextured, hsecond]
    rw [if_pos hsecond, if_pos hsecond, hlike] at hsays
    refine ⟨{ supplied (supplied d 0 o.key.tile) 1 o.key.tile.next with texturesStale := false },
      ?_, ?_, rfl, ?_⟩
    · rw [suppliesFor, supplyFor, supplyFor, if_pos hzero, if_pos hone]
      exact hsays
    · exact (supplied_keeps _ 1 _).2.1.trans (supplied_keeps d 0 _).2.1
    · intro unit hunit
      change (supplied (supplied d 0 o.key.tile) 1 o.key.tile.next).told.tiles.get unit = _
      rw [get_supplied _ 1 unit _ (Or.inr rfl) hunit, get_supplied d 0 unit _ (Or.inl rfl) hunit]
      rcases hunit with rfl | rfl
      · rw [if_pos hzero]
        rfl
      · rw [if_pos hone]
        rfl
  · have hone : o.reads 1 = false := by simp [Opening.reads, hsecond]
    rw [if_neg hsecond, if_neg hsecond] at hsays
    refine ⟨{ supplied d 0 o.key.tile with texturesStale := false }, ?_, ?_, rfl, ?_⟩
    · rw [suppliesFor, supplyFor, supplyFor, if_pos hzero, hone, if_neg Bool.false_ne_true]
      exact hsays
    · exact (supplied_keeps d 0 _).2.1
    · intro unit hunit
      change (supplied d 0 o.key.tile).told.tiles.get unit = _
      rw [get_supplied d 0 unit _ (Or.inl rfl) hunit]
      rcases hunit with rfl | rfl
      · rw [if_pos hzero]
        rfl
      · rw [hone]
        rfl

private theorem suppliesFor_of_untextured {o : Opening} (d : Delivery) (h : o.isTextured = false) :
    suppliesFor o d = [] := by
  simp [suppliesFor, supplyFor, Opening.reads, h]

private theorem says_prepare (d : Delivery) (o : Opening) :
    ∃ (after : Delivery) (plain : List Command),
      Says (do
        if o.key.shape ≠ .fills then
          tellRegisters .recording o.scene o.key
          if o.key.textured then
            sendTextures .recording o.scene o.key.tile (o.scene.combinerFor o.key).1
        update ({ · with batch := some { key := o.key } })) d () after (plain ++ suppliesFor o d) ∧
        (∀ command ∈ plain, IsPlain command) ∧ after.batch = some { key := o.key } ∧
        after.writes = d.writes ∧ after.texturesStale = (d.texturesStale && !o.isTextured) ∧
        ∀ unit, unit = 0 ∨ unit = 1 → after.told.tiles.get unit =
          if o.reads unit then some (o.tileOf unit) else d.told.tiles.get unit := by
  have hreads (h : o.isTextured = false) (unit : UInt8) : o.reads unit = false := by
    simp [Opening.reads, h]
  by_cases hfills : o.key.shape = .fills
  · have htextured : o.isTextured = false := by simp [Opening.isTextured, hfills]
    refine ⟨{ d with batch := some { key := o.key } }, [], ?_, ?_, rfl, rfl, ?_, ?_⟩
    · rw [suppliesFor_of_untextured _ htextured, if_neg (fun h => h hfills)]
      exact says_update _ d
    · intro command hcommand
      cases hcommand
    · rw [htextured, Bool.not_false, Bool.and_true]
    · intro unit _
      rw [hreads htextured, if_neg Bool.false_ne_true]
  obtain ⟨told, plain, hregisters, htiles, hkinds⟩ := says_tellRegisters o.scene o.key d
  have hplain : ∀ command ∈ plain, IsPlain command :=
    fun command hcommand => isPlain_of_registers (hkinds command hcommand)
  cases hkey : o.key.textured with
  | false =>
    have htextured : o.isTextured = false := by simp [Opening.isTextured, hkey]
    refine ⟨{ d with told, batch := some { key := o.key } }, plain, ?_, hplain, rfl, rfl, ?_, ?_⟩
    · rw [suppliesFor_of_untextured _ htextured, if_pos hfills, if_neg Bool.false_ne_true]
      exact says_bind hregisters (says_update _ _)
    · rw [htextured, Bool.not_false, Bool.and_true]
    · intro unit _
      rw [hreads htextured, if_neg Bool.false_ne_true, htiles]
  | true =>
    have htextured : o.isTextured = true := by simp [Opening.isTextured, hkey, hfills]
    obtain ⟨after, htextures, hwrites, hstale, htold⟩ :=
      says_sendTextures_opening { d with told } o htextured
    have hsupplies : suppliesFor o { d with told } = suppliesFor o d := by
      have hone (unit : UInt8) : supplyFor o { d with told } unit = supplyFor o d unit := by
        have hlike : supply o.scene { d with told } unit (o.tileOf unit) =
            supply o.scene d unit (o.tileOf unit) := supply_congr _ _ _ rfl (by rw [htiles])
        rw [supplyFor, supplyFor, hlike]
      rw [suppliesFor, suppliesFor, hone, hone]
    refine ⟨{ after with batch := some { key := o.key } }, plain, ?_, hplain, rfl, hwrites, ?_, ?_⟩
    · rw [if_pos hfills, if_pos rfl, ← hsupplies]
      refine says_bind hregisters ?_
      rw [← List.append_nil (suppliesFor o _)]
      exact says_bind htextures (says_update _ after)
    · rw [htextured, Bool.not_true, Bool.and_false]
      exact hstale
    · intro unit hunit
      rw [← htiles]
      exact htold unit hunit

/-- Unless the batch is open already, it is empty afterwards, and the renderer knows all that it
depends on. -/
theorem says_openBatch (o : Opening) (hkey : d.batch.map (·.key) ≠ some o.key) :
    ∃ (after : Delivery) (plain : List Command),
      Says (openBatch .recording o.scene o.key) d () after
        (settling d ++ (plain ++ suppliesFor o (settled d))) ∧
        (∀ command ∈ plain, IsPlain command) ∧ after.batch = some { key := o.key } ∧
        after.writes = [] ∧ after.texturesStale = (outdated d && !o.isTextured) ∧
        ∀ unit, unit = 0 ∨ unit = 1 → after.told.tiles.get unit =
          if o.reads unit then some (o.tileOf unit) else d.told.tiles.get unit := by
  obtain ⟨after, plain, hsays, hplain, hbatch, hwrites, hstale, htold⟩ := says_prepare (settled d) o
  refine ⟨after, plain, ?_, hplain, hbatch, hwrites, hstale, htold⟩
  apply says_look
  intro link hlink
  rw [hlink, if_pos hkey]
  exact says_bind (says_settle d) hsays

end Opening

/-- The same batch is open, and textures are known just as well. -/
structure TextureStateKept (d after : Delivery) : Prop where
  key : after.batch.map (·.key) = d.batch.map (·.key)
  told : after.told = d.told
  stale : after.texturesStale = d.texturesStale
  writes : after.writes = d.writes

private theorem TextureStateKept.refl (d : Delivery) : TextureStateKept d d := ⟨rfl, rfl, rfl, rfl⟩

private theorem TextureStateKept.trans {d after last : Delivery} (h : TextureStateKept d after)
    (h' : TextureStateKept after last) : TextureStateKept d last :=
  ⟨h'.key.trans h.key, h'.told.trans h.told, h'.stale.trans h.stale, h'.writes.trans h.writes⟩

private theorem textureStateKept_drawn (d : Delivery) : TextureStateKept d (drawn d) := by
  unfold drawn
  split
  · refine ⟨?_, rfl, rfl, rfl⟩
    rw [Option.map_map]
    rfl
  · exact TextureStateKept.refl d

private theorem says_drawBatchIf_keepsTextures (condition : Batch → Bool) (d : Delivery) :
    ∃ (after : Delivery) (commands : List Command),
      Says (drawBatchIf .recording condition) d () after commands ∧ TextureStateKept d after ∧
        ∀ command ∈ commands, command.textureUnit? = none := by
  refine ⟨_, _, says_drawBatchIf condition d, ?_, ?_⟩
  · split
    · exact textureStateKept_drawn d
    · exact TextureStateKept.refl d
  · intro command hcommand
    split at hcommand
    · exact (pending?_draws (Option.mem_toList.mp hcommand)).1
    · cases hcommand

/-- Adding a primitive to the open batch submits nothing but draws of it. -/
theorem says_addPrimitive (primitive : Primitive) (d : Delivery) :
    ∃ (after : Delivery) (commands : List Command),
      Says (do
        drawBatchIf .recording (·.isCrowdedFor primitive)
        update fun d => { d with batch := d.batch.map (·.add primitive) }
        match primitive with
        | .triangle .. => count fun tally => { tally with triangles := tally.triangles + 1 }
        | _ => pure ()
        drawBatchIf .recording (·.isFull)) d () after commands ∧ TextureStateKept d after ∧
        ∀ command ∈ commands, command.textureUnit? = none := by
  obtain ⟨first, xs, hfirst, hfirstKept, hxs⟩ :=
    says_drawBatchIf_keepsTextures (·.isCrowdedFor primitive) d
  have hadded : TextureStateKept first { first with batch := first.batch.map (·.add primitive) } := by
    refine ⟨?_, rfl, rfl, rfl⟩
    rw [Option.map_map]
    cases primitive <;> rfl
  obtain ⟨last, ys, hlast, hlastKept, hys⟩ := says_drawBatchIf_keepsTextures (·.isFull)
    { first with batch := first.batch.map (·.add primitive) }
  refine ⟨last, xs ++ ys, ?_, (hfirstKept.trans hadded).trans hlastKept, ?_⟩
  · refine says_bind hfirst (says_then (says_update _ first) ?_ (List.nil_append _).symm)
    cases primitive with
    | triangle a b c => exact says_then (says_count _ _) hlast (List.nil_append _).symm
    | corners a b c d => exact hlast
    | rect rect => exact hlast
    | fill fill => exact hlast
  · intro command hcommand
    rcases List.mem_append.mp hcommand with h | h
    · exact hxs command h
    · exact hys command h

end DeliverM

end DisplayPipeline
