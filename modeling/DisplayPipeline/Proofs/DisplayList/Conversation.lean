import DisplayPipeline.Proofs.DisplayList.Dialogue
import DisplayPipeline.Proofs.DisplayList.LegalCommands
import DisplayPipeline.Proofs.DisplayList.Batching

namespace DisplayPipeline

namespace Delivery

def Sound (d : Delivery) : Prop := ∀ b, d.batch = some b → b.Sound

/-- The batch is sound and has room, as it is between requests. -/
def Ready (d : Delivery) : Prop := ∀ b, d.batch = some b → b.Sound ∧ b.isFull = false

private theorem sound_of_some {d : Delivery} {b : Batch} (hb : d.batch = some b) (h : b.Sound) :
    d.Sound := by
  intro other hother
  cases hb.symm.trans hother
  exact h

theorem Ready.sound {d : Delivery} (h : d.Ready) : d.Sound := fun b hb => (h b hb).1

theorem Ready.congr {d after : Delivery} (h : d.Ready) (hbatch : after.batch = d.batch) :
    after.Ready := fun b hb => h b (hbatch.symm.trans hb)

theorem ready_of_none {d : Delivery} (h : d.batch = none) : d.Ready :=
  fun _ hb => nomatch h.symm.trans hb

private theorem ready_of_emptied {d after : Delivery}
    (h : after.batch = d.batch.map Batch.emptied) :
    after.Ready := by
  intro b hb
  rw [h] at hb
  obtain ⟨other, -, rfl⟩ := Option.map_eq_some_iff.mp hb
  exact ⟨other.sound_emptied, other.isFull_emptied⟩

end Delivery

namespace DeliverM

variable {α β : Type}

/-- What is left of a part: its answer or the final refusal, and the delivery. -/
abbrev Outcome (α : Type) := Except PoolError α × Delivery × Journal

abbrev Part (α : Type) := (σ : Type) → Outlet σ → DeliverM σ α

def split {σ : Type} : EStateM.Result PoolError (Link σ) α → Outcome α × σ
  | .ok a link => ((.ok a, link.delivery, link.journal), link.sink)
  | .error cause link => ((.error cause, link.delivery, link.journal), link.sink)

/-- An answer is as told; a final refusal is one of those allowed and leaves room in the batch. -/
def Outcome.As (A : PoolError → Prop) (Q : α → Delivery → Prop) : Outcome α → Prop
  | (.ok a, d, _) => Q a d
  | (.error cause, d, _) => A cause ∧ d.Ready

/-- From a delivery the part is a dialogue of well-formed commands. Its answer and the delivery after
it are as told, whatever refusals are allowed. -/
def Talks (x : Part α) (d : Delivery) (Q : α → Delivery → Prop) : Prop :=
  ∀ j, Exchange.Speaks Command.WellFormed (fun σ o sink => split (x σ o ⟨d, j, sink⟩))
    fun A => Outcome.As A Q

section Rules

variable {d : Delivery} {Q R : α → Delivery → Prop} {x : Part α}

private theorem Talks.imp (h : Talks x d Q) (hQR : ∀ a after, Q a after → R a after) :
    Talks x d R :=
  fun j => (h j).imp fun A e he => by
    obtain ⟨cause | a, after, k⟩ := e
    · exact he
    · exact hQR a after he

private theorem talks_pure {a : α} (h : Q a d) : Talks (fun _ _ => pure a) d Q :=
  fun j => Exchange.speaks_done (a := (.ok a, d, j)) (fun _ => h) fun _ _ _ => rfl

private def goOn (f : (σ : Type) → Outlet σ → α → DeliverM σ β) : Outcome α → Exchange (Outcome β)
  | (.ok a, d, j) => fun σ o sink => split (f σ o a ⟨d, j, sink⟩)
  | (.error cause, d, j) => fun _ _ sink => ((.error cause, d, j), sink)

private theorem talks_bind {f : (σ : Type) → Outlet σ → α → DeliverM σ β} {R : β → Delivery → Prop}
    (h : Talks x d fun a after => Talks (fun σ o => f σ o a) after R) :
    Talks (fun σ o => x σ o >>= f σ o) d R := by
  refine fun j => (h j).bind (y := goOn f) ?_ ?_
  · rintro ⟨cause | a, after, k⟩ ⟨A, he⟩
    · exact Exchange.speaks_done (a := (.error cause, after, k)) (fun B he => he) fun _ _ _ => rfl
    · exact (he k).imp fun B e hR _ => hR
  · intro σ o sink
    change split (EStateM.bind _ _ _) = _
    rw [EStateM.bind]
    cases x σ o ⟨d, j, sink⟩ <;> rfl

private theorem talks_look {f : (σ : Type) → Outlet σ → Link σ → DeliverM σ α} {g : Part α}
    (hf : ∀ σ o (link : Link σ), link.delivery = d → f σ o link = g σ o) (h : Talks g d Q) :
    Talks (fun σ o => get >>= f σ o) d Q := by
  intro j
  have hsame : (fun σ o sink => split ((get >>= f σ o : DeliverM σ α) ⟨d, j, sink⟩)) =
      (fun σ o sink => split (g σ o ⟨d, j, sink⟩) : Exchange (Outcome α)) := by
    funext σ o sink
    exact congrArg split (congrFun (hf σ o ⟨d, j, sink⟩ rfl) _)
  rw [hsame]
  exact h j

private theorem talks_update {f : Delivery → Delivery} {Q : Unit → Delivery → Prop}
    (h : Q () (f d)) :
    Talks (fun _ _ => update f) d Q :=
  fun j => Exchange.speaks_done (a := (.ok (), f d, j)) (fun _ => h) fun _ _ _ => rfl

private theorem talks_count {f : ListTally → ListTally} {Q : Unit → Delivery → Prop} (h : Q () d) :
    Talks (fun _ _ => count f) d Q :=
  fun j => Exchange.speaks_done (a := (.ok (), d, { j with tally := f j.tally })) (fun _ => h)
    fun _ _ _ => rfl

/-- A well-formed command is submitted between requests, or with an emptied batch. -/
theorem talks_submit {command : Command} {Q : Bool → Delivery → Prop}
    (hcommand : command.WellFormed) (hready : d.Ready) (haccepted : Q true d)
    (hrefused : Q false d.forget) :
    Talks (fun _ o => submit o command) d Q := by
  intro j
  refine ⟨.ask command fun answer => (refusal? answer).elim (.done (.ok true, d, j)) fun cause =>
    .done (if cause.isFinal then .error cause else .ok false, d.forget, j.refuse command.kind cause),
    fun A => ⟨hcommand, ?_⟩, fun σ o sink => ?_⟩
  · rintro (cause | _) hallowed
    · dsimp only [refusal?, Option.elim]
      split
      · exact ⟨hallowed cause rfl, hready.congr rfl⟩
      · exact hrefused
    · exact haccepted
  · cases hanswer : o.submit command sink with
    | mk next answer =>
      cases answer with
      | ok _ =>
        simp only [submit, Dialogue.hold, hanswer]
        rfl
      | error cause =>
        simp only [submit, Dialogue.hold, hanswer, refusal?, Option.elim]
        split <;> rfl

end Rules

section Parts

variable {d : Delivery}

private theorem talks_drawBatch (hd : d.Sound) :
    Talks (fun _ o => drawBatch o) d fun _ after => after.batch = d.batch.map Batch.emptied := by
  cases hb : d.batch with
  | none =>
    refine talks_look (g := fun _ _ => pure ()) (fun σ o link hlink => ?_) (talks_pure hb)
    rw [hlink, hb]
    rfl
  | some b =>
    cases hcommand : b.command? with
    | none =>
      refine talks_look (g := fun _ _ => pure ()) (fun σ o link hlink => ?_) (talks_pure ?_)
      · rw [hlink, hb, Option.bind_some, hcommand]
        rfl
      · rw [hb, Option.map_some, ← Batch.eq_emptied_of_command? hcommand]
    | some command =>
      refine talks_look (g := fun _ o => do
          update ({ · with batch := some b.emptied })
          count fun tally => { tally with batches := tally.batches + 1 }
          let _ ← submit o command) (fun σ o link hlink => ?_) ?_
      · rw [hlink, hb, Option.bind_some, hcommand]
        rfl
      · have hready : ({ d with batch := some b.emptied } : Delivery).Ready :=
          Delivery.ready_of_emptied (by rw [hb]; rfl)
        refine talks_bind (talks_update (talks_bind (talks_count (talks_bind ?_))))
        exact talks_submit ((hd b hb).wellFormed hcommand) hready (talks_pure rfl) (talks_pure rfl)

private theorem talks_drawBatchIf (hd : d.Sound) (condition : Batch → Bool) :
    Talks (fun _ o => drawBatchIf o condition) d fun _ after =>
      (after.batch = d.batch ∧ d.batch.any condition = false) ∨
        after.batch = d.batch.map Batch.emptied := by
  cases hcondition : d.batch.any condition with
  | true =>
    refine talks_look (fun σ o link hlink => if_pos (by rw [hlink, hcondition])) ?_
    exact (talks_drawBatch hd).imp fun _ after hafter => Or.inr hafter
  | false =>
    refine talks_look (fun σ o link hlink => if_neg (by simp [hlink, hcondition])) ?_
    exact talks_pure (Or.inl ⟨rfl, rfl⟩)

theorem talks_closeBatch (hd : d.Sound) :
    Talks (fun _ o => closeBatch o) d fun _ after => after.batch = none := by
  cases hb : d.batch with
  | none =>
    exact talks_look (fun σ o link hlink => if_neg (by simp [hlink, hb])) (talks_pure hb)
  | some b =>
    refine talks_look (fun σ o link hlink => if_pos (by rw [hlink, hb]; rfl)) ?_
    exact talks_bind ((talks_drawBatch hd).imp fun _ _ _ => talks_update rfl)

private theorem talks_announce (hd : d.Ready) (writes : List MemoryWrite) :
    Talks (fun _ o => announce o writes) d fun _ after => after.batch = d.batch := by
  induction writes generalizing d with
  | nil => exact talks_pure rfl
  | cons write writes ih =>
    exact talks_bind (talks_submit (Command.wellFormed_invalidateRange _ _) hd (ih hd)
      (ih (hd.congr rfl)))

private theorem talks_announceWrites (hd : d.Ready) :
    Talks (fun _ o => announceWrites o) d fun _ after => after.batch = d.batch := by
  by_cases hwrites : d.writes = []
  · exact talks_look (fun σ o link hlink => if_neg (by simp [hlink, hwrites])) (talks_pure rfl)
  · refine talks_look (g := fun _ o => do
        update ({ · with writes := [] })
        announce o d.writes
        update ({ · with texturesStale := true })) (fun σ o link hlink => ?_) ?_
    · rw [hlink, if_pos hwrites]
    · have hcleared : ({ d with writes := [] } : Delivery).Ready := hd.congr rfl
      refine talks_bind (talks_update (talks_bind ?_))
      exact (talks_announce hcleared d.writes).imp fun _ after hafter => talks_update hafter

theorem talks_settle (hd : d.Sound) :
    Talks (fun _ o => settle o) d fun _ after => after.batch = none := by
  refine talks_bind ((talks_closeBatch hd).imp fun _ closed hclosed => ?_)
  refine (talks_announceWrites (Delivery.ready_of_none hclosed)).imp fun _ after hafter => ?_
  exact hafter.trans hclosed

private theorem talks_tell (hd : d.Ready) {command : Command} (hcommand : command.WellFormed)
    (isKnown : Told → Bool) (remember : Told → Told) :
    Talks (fun _ o => tell o command isKnown remember) d fun _ after => after.batch = d.batch := by
  cases hknown : isKnown d.told with
  | true =>
    exact talks_look (fun σ o link hlink => if_neg (by simp [hlink, hknown])) (talks_pure rfl)
  | false =>
    refine talks_look (fun σ o link hlink => if_pos (by simp [hlink, hknown])) (talks_bind ?_)
    apply talks_submit hcommand hd
    · simp only [if_true]
      exact talks_update rfl
    · exact talks_pure rfl

private theorem talks_tellRegisters (hd : d.Ready) (scene : Scene) (key : BatchKey) :
    Talks (fun _ o => tellRegisters o scene key) d fun _ after => after.batch = d.batch := by
  have hcombine := Command.wellFormed_setCombine (scene.known_combinerFor key)
    (scene.combinerFor key).1
  refine talks_bind ((talks_tell hd hcombine _ _).imp fun _ first hfirst => ?_)
  refine talks_bind ((talks_tell (hd.congr hfirst) (Command.wellFormed_setOtherModes _ _) _ _).imp
    fun _ second hsecond => ?_)
  have hbatch : second.batch = d.batch := hsecond.trans hfirst
  refine (talks_tell (hd.congr hbatch) (Command.wellFormed_setColors _) _ _).imp ?_
  exact fun _ after hafter => hafter.trans hbatch

private theorem talks_sendTexture (hd : d.Ready) (scene : Scene) {unit : UInt8} (hunit : unit ≤ 1)
    (tile : TileIndex) :
    Talks (fun _ o => sendTexture o scene unit tile) d fun _ after => after.batch = d.batch := by
  by_cases hsupplied : (!d.texturesStale && d.told.tiles.get unit == some tile) = true
  · exact talks_look (fun σ o link hlink => if_pos (by rw [hlink, hsupplied])) (talks_pure rfl)
  · refine talks_look (fun σ o link hlink => if_neg (by rwa [hlink])) ?_
    have hrest (accepted : Bool) {after : Delivery} (hafter : after.batch = d.batch) :
        Talks (fun _ _ => do
          if accepted then
            update fun d => { d with told.tiles := d.told.tiles.set unit (some tile) }
          return accepted) after fun _ last => last.batch = d.batch := by
      cases accepted with
      | true => exact talks_bind (talks_update (talks_pure hafter))
      | false => exact talks_pure hafter
    cases hcommand : scene.textureCommand? unit tile with
    | none => exact talks_bind (talks_pure (hrest true rfl))
    | some command =>
      exact talks_bind (talks_submit (scene.wellFormed_textureCommand? hunit hcommand) hd
        (hrest true rfl) (hrest false rfl))

private theorem talks_sendTextures (hd : d.Ready) (scene : Scene) (tile : TileIndex)
    (mux : UInt64) :
    Talks (fun _ o => sendTextures o scene tile mux) d fun _ after => after.batch = d.batch := by
  have hrest (accepted : Bool) {after : Delivery} (hafter : after.batch = d.batch) :
      Talks (fun _ _ => do
        if accepted then update ({ · with texturesStale := false })) after
        fun _ last => last.batch = d.batch := by
    cases accepted with
    | true =>
      simp only [if_true]
      exact talks_update hafter
    | false => exact talks_pure hafter
  refine talks_bind ((talks_sendTexture hd scene (by decide) tile).imp fun first after hafter => ?_)
  by_cases hreads : (Combiner.Key.ofMux mux .none).stages.readsSecondTexel = true
  · simp only [if_pos hreads]
    refine talks_bind ((talks_sendTexture (hd.congr hafter) scene (by decide) tile.next).imp ?_)
    exact fun second last hlast => hrest (first && second) (hlast.trans hafter)
  · simp only [if_neg hreads]
    exact talks_bind (talks_pure (hrest (first && true) hafter))

private theorem talks_openBatch (hd : d.Ready) (scene : Scene) (key : BatchKey) :
    Talks (fun _ o => openBatch o scene key) d fun _ after =>
      ∃ b, after.batch = some b ∧ b.Sound ∧ b.isFull = false ∧ b.key = key := by
  by_cases hkey : d.batch.map (·.key) = some key
  · refine talks_look (fun σ o link hlink => if_neg (by rw [hlink]; exact not_not_intro hkey)) ?_
    obtain ⟨b, hb, hbkey⟩ := Option.map_eq_some_iff.mp hkey
    obtain ⟨hsound, hroom⟩ := hd b hb
    exact talks_pure ⟨b, hb, hsound, hroom, hbkey⟩
  · refine talks_look (fun σ o link hlink => if_pos (by rwa [hlink])) ?_
    refine talks_bind ((talks_settle hd.sound).imp fun _ settled hsettled => ?_)
    have hready : settled.Ready := Delivery.ready_of_none hsettled
    have hopen (last : Delivery) :
        Talks (fun _ _ => update ({ · with batch := some { key } })) last fun _ after =>
          ∃ b, after.batch = some b ∧ b.Sound ∧ b.isFull = false ∧ b.key = key :=
      talks_update ⟨{ key }, rfl, Batch.sound_emptied { key }, rfl, rfl⟩
    by_cases hfills : key.shape ≠ .fills
    · simp only [if_pos hfills]
      refine talks_bind ((talks_tellRegisters hready scene key).imp fun _ told htold => ?_)
      by_cases htextured : key.textured = true
      · simp only [if_pos htextured]
        exact talks_bind ((talks_sendTextures (hready.congr htold) scene key.tile _).imp
          fun _ last _ => hopen last)
      · simp only [if_neg htextured]
        exact hopen told
    · simp only [if_neg hfills]
      exact hopen settled

/-- A primitive is only ever added to a batch with room for it. -/
theorem talks_draw (hd : d.Ready) (scene : Scene) {key : BatchKey} {primitive : Primitive}
    (hshape : key.shape = primitive.shape) :
    Talks (fun _ o => draw o scene key primitive) d fun _ after => after.Ready := by
  refine talks_bind ((talks_openBatch hd scene key).imp ?_)
  rintro _ opened ⟨b, hb, hsound, hroom, hkey⟩
  -- Once a batch is submitted there is room for any primitive.
  have hspaced : Talks (fun _ o => drawBatchIf o (·.isCrowdedFor primitive)) opened fun _ spaced =>
      ∃ left, spaced.batch = some left ∧ left.Sound ∧ left.key = key ∧
        left.isCrowdedFor primitive = false ∧ left.isFull = false := by
    refine (talks_drawBatchIf (Delivery.sound_of_some hb hsound) (·.isCrowdedFor primitive)).imp ?_
    rintro _ spaced (⟨hbatch, hcrowded⟩ | hbatch)
    · rw [hb] at hbatch hcrowded
      exact ⟨b, hbatch, hsound, hkey, hcrowded, hroom⟩
    · rw [hb] at hbatch
      exact ⟨b.emptied, hbatch, b.sound_emptied, hkey, b.isCrowdedFor_emptied primitive,
        b.isFull_emptied⟩
  refine talks_bind (hspaced.imp ?_)
  rintro _ spaced ⟨left, hleft, hsoundLeft, hkeyLeft, hcrowded, hroomLeft⟩
  obtain ⟨hadded, -⟩ := hsoundLeft.add (hkeyLeft ▸ hshape) hcrowded hroomLeft
  refine talks_bind (talks_update ?_)
  have hlast {added : Delivery} (hbatch : added.batch = some (left.add primitive)) :
      Talks (fun _ o => drawBatchIf o (·.isFull)) added fun _ after => after.Ready := by
    refine (talks_drawBatchIf (Delivery.sound_of_some hbatch hadded) (·.isFull)).imp ?_
    rintro _ after (⟨hsame, hfull⟩ | hemptied)
    · intro other hother
      rw [hbatch] at hsame hfull
      cases hsame.symm.trans hother
      exact ⟨hadded, hfull⟩
    · exact Delivery.ready_of_emptied hemptied
  have hbatch : spaced.batch.map (·.add primitive) = some (left.add primitive) := by
    rw [hleft]
    rfl
  cases primitive with
  | triangle p q r => exact talks_bind (talks_count (hlast hbatch))
  | corners topLeft topRight bottomLeft bottomRight => exact talks_bind (talks_pure (hlast hbatch))
  | rect area => exact talks_bind (talks_pure (hlast hbatch))
  | fill area => exact talks_bind (talks_pure (hlast hbatch))

private theorem talks_perform (hd : d.Ready) (scene : Scene) {request : Request}
    (h : request.Suits) :
    Talks (fun _ o => perform o scene request) d fun _ after => after.Ready := by
  cases request with
  | close =>
    exact (talks_closeBatch hd.sound).imp fun _ _ hafter => Delivery.ready_of_none hafter
  | retexture =>
    refine talks_bind ((talks_settle hd.sound).imp fun _ settled hsettled => ?_)
    exact talks_update (Delivery.ready_of_none hsettled)
  | drop =>
    exact talks_count (f := fun tally =>
      { tally with droppedTriangles := tally.droppedTriangles + 1 }) hd
  | draw key primitive => exact talks_draw hd scene h

theorem talks_performAll (hd : d.Ready) (scene : Scene) {requests : List Request}
    (h : ∀ request ∈ requests, request.Suits) :
    Talks (fun _ o => performAll o scene requests) d fun _ after => after.Ready := by
  induction requests generalizing d with
  | nil => exact talks_pure hd
  | cons request requests ih =>
    obtain ⟨hfirst, hrest⟩ := List.forall_mem_cons.mp h
    exact talks_bind ((talks_perform hd scene hfirst).imp fun _ after hafter => ih hafter hrest)

end Parts

end DeliverM

end DisplayPipeline
