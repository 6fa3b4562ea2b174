import DisplayPipeline.Proofs.DisplayList.Acceptance
import DisplayPipeline.Proofs.DisplayList.Timeline
import DisplayPipeline.Proofs.DisplayList.ToldRegisters

namespace DisplayPipeline

variable {σ : Type}

namespace Opening

/-- The batch that the first texture unit was given something for. The textured batches since the last
change are told, the latest first. -/
def supplier? : List Opening → Option Opening
  | [] => none
  | [o] => some o
  | o :: r :: earlier => if r.key.tile = o.key.tile then supplier? (r :: earlier) else some o

variable {o : Opening} {textured : List Opening}

private theorem supplier?_of_same {r : Opening} {earlier : List Opening}
    (h : r.key.tile = o.key.tile) :
    supplier? (o :: r :: earlier) = supplier? (r :: earlier) :=
  if_pos h

private theorem supplier?_of_new (h : ∀ r, textured.head? = some r → r.key.tile ≠ o.key.tile) :
    supplier? (o :: textured) = some o := by
  cases textured with
  | nil => rfl
  | cons r earlier => exact if_neg (h r rfl)

theorem exists_supplier (h : textured.head? = some o) :
    ∃ supplier ∈ textured, supplier? textured = some supplier ∧ supplier.key.tile = o.key.tile := by
  induction textured generalizing o with
  | nil => cases h
  | cons first textured ih =>
    obtain rfl : first = o := Option.some.inj h
    by_cases hsame : ∃ r, textured.head? = some r ∧ r.key.tile = first.key.tile
    · obtain ⟨r, hr, htile⟩ := hsame
      obtain ⟨supplier, hmem, hsupplier, hsupplierTile⟩ := ih hr
      refine ⟨supplier, List.mem_cons_of_mem _ hmem, ?_, hsupplierTile.trans htile⟩
      cases textured with
      | nil => cases hr
      | cons r' earlier =>
        obtain rfl : r' = r := Option.some.inj hr
        rw [supplier?_of_same htile, hsupplier]
    · refine ⟨first, List.mem_cons_self, supplier?_of_new fun r hr htile => ?_, rfl⟩
      exact hsame ⟨r, hr, htile⟩

end Opening

def lastGiven? (unit : UInt8) (attempts : List Attempt) : Option Command :=
  latest? (·.textureUnit? == some unit) attempts

theorem lastGiven?_append_of_ne {unit : UInt8} {a : Attempt}
    (h : a.command.textureUnit? ≠ some unit)
    (attempts : List Attempt) : lastGiven? unit (attempts ++ [a]) = lastGiven? unit attempts := by
  rw [lastGiven?, latest?_append, beq_false_of_ne h, Bool.and_false, if_neg Bool.false_ne_true,
    lastGiven?]

private theorem lastGiven?_append_of_accepted {unit : UInt8} {a : Attempt}
    (hrefusal : a.refusal = none)
    (h : a.command.textureUnit? = some unit) (attempts : List Attempt) :
    lastGiven? unit (attempts ++ [a]) = some a.command := by
  rw [lastGiven?, latest?_append, hrefusal, h]
  simp

namespace Link

/-- The first texture unit was given what the supplier of these batches asked for. -/
def GivenFor (link : Link (Traced σ)) (textured : List Opening) : Prop :=
  ∀ supplier, Opening.supplier? textured = some supplier →
    ∀ command, supplier.scene.textureCommand? 0 supplier.key.tile = some command →
      lastGiven? 0 link.sink.attempts = some command

/-- What is known of the first texture unit, if these textured batches were opened since the last
change. -/
structure Supplied (link : Link (Traced σ)) (textured : List Opening) : Prop where
  outdated : DeliverM.outdated link.delivery = textured.isEmpty
  told : ∀ o, textured.head? = some o → link.delivery.told.tiles.get 0 = some o.key.tile
  given : link.GivenFor textured

/-- As long as nothing is refused. -/
def Stocked (link : Link (Traced σ)) (textured : List Opening) : Prop :=
  link.CleanSince 0 → link.Supplied textured

variable {link after : Link (Traced σ)} {textured : List Opening} {a : Attempt}

private theorem cleanSince_of_append (hsink : after.sink.attempts = link.sink.attempts ++ [a])
    (h : after.CleanSince 0) : link.CleanSince 0 ∧ a.refusal = none :=
  cleanSince_append hsink (Nat.zero_le _) h

private theorem not_cleanSince_of_refused (hsink : after.sink.attempts = link.sink.attempts ++ [a])
    {cause : PoolError} (hrefused : a.refusal = some cause) : ¬ after.CleanSince 0 :=
  fun h => Option.some_ne_none cause (hrefused.symm.trans (cleanSince_of_append hsink h).2)

private theorem GivenFor.append (h : link.GivenFor textured)
    (hsink : after.sink.attempts = link.sink.attempts ++ [a])
    (hunit : a.command.textureUnit? ≠ some 0) : after.GivenFor textured := by
  intro supplier hsupplier command hcommand
  rw [hsink, lastGiven?_append_of_ne hunit]
  exact h supplier hsupplier command hcommand

private theorem Supplied.congr (h : link.Supplied textured)
    (hstale : after.delivery.texturesStale = link.delivery.texturesStale)
    (hwrites : after.delivery.writes = link.delivery.writes)
    (htiles : after.delivery.told.tiles = link.delivery.told.tiles)
    (hsink : after.sink = link.sink) : after.Supplied textured := by
  obtain ⟨houtdated, htold, hgiven⟩ := h
  refine ⟨?_, ?_, ?_⟩
  · rw [DeliverM.outdated, hstale, hwrites]
    exact houtdated
  · rw [htiles]
    exact htold
  · rw [GivenFor, hsink]
    exact hgiven

theorem Stocked.congr (h : link.Stocked textured)
    (hstale : after.delivery.texturesStale = link.delivery.texturesStale)
    (hwrites : after.delivery.writes = link.delivery.writes)
    (htiles : after.delivery.told.tiles = link.delivery.told.tiles)
    (hsink : after.sink = link.sink) : after.Stocked textured := by
  intro hclean
  rw [CleanSince, hsink] at hclean
  exact (h hclean).congr hstale hwrites htiles hsink

def tellTile (link : Link σ) (unit : UInt8) (tile : TileIndex) : Link σ :=
  { link with delivery.told.tiles := link.delivery.told.tiles.set unit (some tile) }

theorem stocked_nil (h : DeliverM.outdated link.delivery = true) : link.Stocked [] := by
  refine fun _ => ⟨h, fun o ho => ?_, fun supplier hsupplier => ?_⟩
  · cases ho
  · cases hsupplier

/-- A batch for the same tile, while nothing is outdated, needs nothing new. -/
theorem Supplied.givenFor_same {o : Opening} (h : link.Supplied textured)
    (hcurrent : DeliverM.outdated link.delivery = false)
    (htold : link.delivery.told.tiles.get 0 = some o.key.tile) : link.GivenFor (o :: textured) := by
  cases textured with
  | nil => exact absurd (h.outdated.symm.trans hcurrent) (by simp)
  | cons r earlier =>
    have htile : r.key.tile = o.key.tile := Option.some.inj ((h.told r rfl).symm.trans htold)
    have hgiven := h.given
    rw [GivenFor, Opening.supplier?_of_same htile]
    exact hgiven

/-- Otherwise the batch is its own supplier. -/
theorem Supplied.supplier?_new {o : Opening} (h : link.Supplied textured)
    (hneeded : ¬ (DeliverM.outdated link.delivery = false ∧
      link.delivery.told.tiles.get 0 = some o.key.tile)) :
    Opening.supplier? (o :: textured) = some o := by
  apply Opening.supplier?_of_new
  intro r hr htile
  apply hneeded
  refine ⟨?_, (h.told r hr).trans (congrArg some htile)⟩
  rw [h.outdated]
  cases textured with
  | nil => cases hr
  | cons r earlier => rfl

end Link

namespace DeliverM

variable {o : Outlet σ} {textured : List Opening} {writes : List MemoryWrite}

theorem keeps_submit_stocked (ho : o.Forgiving) {command : Command}
    (hunit : command.textureUnit? ≠ some 0) :
    Keeps (fun link => link.Stocked textured) (submit o.traced command) := by
  intro link h
  apply gives_submit_traced ho
  · intro sink hclean
    obtain ⟨houtdated, htold, hgiven⟩ :=
      h (Link.cleanSince_of_append (a := ⟨command, none⟩) rfl hclean).1
    exact ⟨houtdated, htold, hgiven.append (a := ⟨command, none⟩) rfl hunit⟩
  · intro sink cause hclean
    exact absurd hclean (Link.not_cleanSince_of_refused (a := ⟨command, some cause⟩) rfl rfl)

theorem keeps_update_batch_stocked {f : Delivery → Delivery} (hf : OfBatch f) :
    Keeps (fun link => link.Stocked textured) (update (σ := Traced σ) f) := by
  intro link h
  obtain ⟨_, hd⟩ := hf link.delivery
  apply gives_update
  rw [hd]
  exact h.congr rfl rfl rfl rfl

theorem keeps_count_stocked (f : ListTally → ListTally) :
    Keeps (fun link => link.Stocked textured) (count (σ := Traced σ) f) :=
  fun _ h => gives_count (h.congr rfl rfl rfl rfl)

theorem keeps_drawBatch_stocked (ho : o.Forgiving) :
    Keeps (fun link => link.Stocked textured) (drawBatch o.traced) := by
  refine keeps_drawBatch (fun b command hcommand => keeps_submit_stocked ho ?_)
    (fun _ hf => keeps_update_batch_stocked hf) keeps_count_stocked
  rcases Batch.command?_cases hcommand with ⟨rfl, _⟩ | ⟨rfl, _⟩ | ⟨rfl, _⟩ <;>
    simp [Command.textureUnit?]

theorem keeps_closeBatch_stocked (ho : o.Forgiving) :
    Keeps (fun link => link.Stocked textured) (closeBatch o.traced) :=
  keeps_closeBatch (keeps_drawBatch_stocked ho) fun _ hf => keeps_update_batch_stocked hf

private theorem gives_announceWrites_stocked (ho : o.Forgiving) {link : Link (Traced σ)}
    (h : link.Stocked textured) :
    Gives (announceWrites o.traced) link fun _ after =>
      after.Stocked textured ∧ after.delivery.writes = [] := by
  apply gives_look
  by_cases hwrites : link.delivery.writes = []
  · rw [if_neg (not_not_intro hwrites)]
    exact gives_pure ⟨h, hwrites⟩
  · rw [if_pos hwrites]
    -- With writes to announce, no textured batch was opened since the last change.
    have hnone : link.CleanSince 0 → textured = [] := by
      intro hclean
      have houtdated := (h hclean).outdated
      rw [outdated, List.isEmpty_eq_false_iff.mpr hwrites, Bool.not_false, Bool.or_true] at houtdated
      exact List.isEmpty_iff.mp houtdated.symm
    have hsubmit (command : Command) : Keeps (fun link : Link (Traced σ) =>
        (link.CleanSince 0 → textured = []) ∧ link.delivery.writes = []) (submit o.traced command) := by
      rintro link ⟨hnone, hempty⟩
      apply gives_submit_traced ho
      · exact fun sink => ⟨fun hclean =>
          hnone (Link.cleanSince_of_append (a := ⟨command, none⟩) rfl hclean).1, hempty⟩
      · exact fun sink cause => ⟨fun hclean =>
          hnone (Link.cleanSince_of_append (a := ⟨command, some cause⟩) rfl hclean).1, hempty⟩
    refine gives_bind (gives_update (gives_bind ?_))
    obtain ⟨_, announced, hannounced, hnone, hempty⟩ := keeps_announce link.delivery.writes
      (fun _ _ => hsubmit _) { link with delivery.writes := [] } ⟨hnone, rfl⟩
    refine ⟨(), announced, hannounced, ?_⟩
    refine gives_update ⟨fun hclean => ?_, hempty⟩
    obtain rfl := hnone hclean
    exact Link.stocked_nil rfl hclean

theorem gives_settle_stocked (ho : o.Forgiving) {link : Link (Traced σ)}
    (h : link.Stocked textured) :
    Gives (settle o.traced) link fun _ after =>
      after.Stocked textured ∧ after.delivery.writes = [] :=
  gives_bind ((keeps_closeBatch_stocked ho link h).imp fun _ _ hclosed =>
    gives_announceWrites_stocked ho hclosed)

private theorem keeps_tellRegisters_writes (ho : o.Forgiving) (scene : Scene) (key : BatchKey) :
    Keeps (fun link : Link σ => link.delivery.writes = writes) (tellRegisters o scene key) := by
  apply keeps_tellRegisters
  · exact fun _ _ _ h => gives_submit ho (fun _ _ => h) fun _ _ _ => h
  · intro f hf link h
    obtain ⟨_, hd, _⟩ := hf link.delivery
    apply gives_update
    rw [hd]
    exact h

private theorem keeps_tellRegisters_stocked (ho : o.Forgiving) (scene : Scene) (key : BatchKey) :
    Keeps (fun link => link.Stocked textured) (tellRegisters o.traced scene key) := by
  apply keeps_tellRegisters
  · intro command hkind
    apply keeps_submit_stocked ho
    have hunit : command.textureUnit? = none := by
      cases command <;> first | rfl | cases hkind
    rw [hunit]
    exact (Option.some_ne_none 0).symm
  · intro f hf link h
    obtain ⟨told, hd, htiles⟩ := hf link.delivery
    apply gives_update
    rw [hd]
    exact h.congr rfl rfl htiles rfl

/-- What comes of a texture unit, with a case for each answer. -/
theorem gives_sendTexture (ho : o.Forgiving) {scene : Scene} {unit : UInt8} {tile : TileIndex}
    {link : Link (Traced σ)} {Q : Bool → Link (Traced σ) → Prop}
    (hsupplied : isSupplied link.delivery unit tile = true → Q true link)
    (hnothing : isSupplied link.delivery unit tile = false →
      scene.textureCommand? unit tile = none → Q true (link.tellTile unit tile))
    (haccepted : isSupplied link.delivery unit tile = false → ∀ command,
      scene.textureCommand? unit tile = some command →
      ∀ sink, Q true (Link.tellTile { link with sink := link.sink.add sink command none } unit tile))
    (hrefused : ∀ command sink cause,
      Q false (refused link command cause (link.sink.add sink command (some cause)))) :
    Gives (sendTexture o.traced scene unit tile) link Q := by
  apply gives_look
  by_cases hneeded : isSupplied link.delivery unit tile = true
  · have hknown := hneeded
    unfold isSupplied at hknown
    rw [if_pos hknown]
    exact gives_pure (hsupplied hneeded)
  · have hunknown := hneeded
    unfold isSupplied at hunknown
    rw [if_neg hunknown]
    rw [Bool.not_eq_true] at hneeded
    cases hcommand : scene.textureCommand? unit tile with
    | none =>
      refine gives_bind (gives_pure (gives_bind (gives_update (gives_pure ?_))))
      exact hnothing hneeded hcommand
    | some command =>
      refine gives_bind (gives_submit_traced ho (fun sink => ?_) fun sink cause => ?_)
      · refine gives_bind (gives_update (gives_pure ?_))
        exact haccepted hneeded command hcommand sink
      · exact gives_pure (hrefused command sink cause)

private theorem gives_sendTexture_accepted (ho : o.Forgiving) (scene : Scene) (unit : UInt8)
    (tile : TileIndex) (link : Link (Traced σ)) :
    Gives (sendTexture o.traced scene unit tile) link fun accepted after =>
      after.CleanSince 0 → accepted = true :=
  gives_sendTexture ho (fun _ _ => rfl) (fun _ _ _ => rfl) (fun _ _ _ _ _ => rfl)
    fun command _ cause hclean =>
      absurd hclean (Link.not_cleanSince_of_refused (a := ⟨command, some cause⟩) rfl rfl)

private theorem gives_sendTexture_clean (ho : o.Forgiving) (scene : Scene) (unit : UInt8)
    (tile : TileIndex) (link : Link (Traced σ)) :
    Gives (sendTexture o.traced scene unit tile) link fun _ after =>
      after.CleanSince 0 → link.CleanSince 0 :=
  gives_sendTexture ho (fun _ => id) (fun _ _ => id)
    (fun _ command _ _ hclean => (Link.cleanSince_of_append (a := ⟨command, none⟩) rfl hclean).1)
    fun command _ cause hclean =>
      (Link.cleanSince_of_append (a := ⟨command, some cause⟩) rfl hclean).1

private theorem gives_sendTexture_given (ho : o.Forgiving) {link : Link (Traced σ)}
    (opening : Opening) (h : link.Stocked textured) (hwrites : link.delivery.writes = []) :
    Gives (sendTexture o.traced opening.scene 0 opening.key.tile) link fun _ after =>
      after.delivery.writes = [] ∧ (after.CleanSince 0 →
        after.delivery.told.tiles.get 0 = some opening.key.tile ∧
          after.GivenFor (opening :: textured)) := by
  have houtdated : outdated link.delivery = link.delivery.texturesStale := by
    rw [outdated, hwrites]
    exact Bool.or_false _
  -- If the unit needs something new, the batch is its own supplier.
  have hnew (hneeded : isSupplied link.delivery 0 opening.key.tile = false)
      (hclean : link.CleanSince 0) : Opening.supplier? (opening :: textured) = some opening := by
    apply (h hclean).supplier?_new
    rw [houtdated]
    simpa [isSupplied] using hneeded
  apply gives_sendTexture ho
  · intro hsupplied
    simp only [isSupplied, Bool.and_eq_true, Bool.not_eq_true', beq_iff_eq] at hsupplied
    refine ⟨hwrites, fun hclean => ⟨hsupplied.2, ?_⟩⟩
    exact (h hclean).givenFor_same (houtdated.trans hsupplied.1) hsupplied.2
  · intro hneeded hnothing
    refine ⟨hwrites, fun hclean => ⟨rfl, ?_⟩⟩
    intro supplier hsupplier command hcommand
    obtain rfl : opening = supplier := Option.some.inj ((hnew hneeded hclean).symm.trans hsupplier)
    cases hnothing.symm.trans hcommand
  · intro hneeded command hcommand sink
    refine ⟨hwrites, fun hclean => ⟨rfl, ?_⟩⟩
    intro supplier hsupplier other hother
    have hbefore : link.CleanSince 0 :=
      (Link.cleanSince_of_append (a := ⟨command, none⟩) rfl hclean).1
    obtain rfl : opening = supplier := Option.some.inj ((hnew hneeded hbefore).symm.trans hsupplier)
    obtain rfl : command = other := Option.some.inj (hcommand.symm.trans hother)
    exact lastGiven?_append_of_accepted (a := ⟨command, none⟩) rfl
      (Scene.textureUnit?_of_textureCommand? hcommand) _
  · intro command sink cause
    refine ⟨hwrites, fun hclean => ?_⟩
    exact absurd hclean (Link.not_cleanSince_of_refused (a := ⟨command, some cause⟩) rfl rfl)

private theorem keeps_sendTexture_given (ho : o.Forgiving) (scene : Scene)
    (tile first : TileIndex) :
    Keeps (fun link : Link (Traced σ) => link.delivery.writes = [] ∧ (link.CleanSince 0 →
        link.delivery.told.tiles.get 0 = some first ∧ link.GivenFor textured))
      (sendTexture o.traced scene 1 tile) := by
  apply keeps_sendTexture
  · rintro command hcommand link ⟨hwrites, h⟩
    have hunit : command.textureUnit? ≠ some 0 := by
      rw [Scene.textureUnit?_of_textureCommand? hcommand]
      decide
    apply gives_submit_traced ho
    · intro sink
      refine ⟨hwrites, fun hclean => ?_⟩
      obtain ⟨htold, hgiven⟩ := h (Link.cleanSince_of_append (a := ⟨command, none⟩) rfl hclean).1
      exact ⟨htold, hgiven.append (a := ⟨command, none⟩) rfl hunit⟩
    · intro sink cause
      refine ⟨hwrites, fun hclean => ?_⟩
      exact absurd hclean (Link.not_cleanSince_of_refused (a := ⟨command, some cause⟩) rfl rfl)
  · rintro link ⟨hwrites, h⟩
    exact gives_update ⟨hwrites, h⟩

private theorem gives_sendTextures_stocked (ho : o.Forgiving) {link : Link (Traced σ)}
    (opening : Opening)
    (h : link.Stocked textured) (hwrites : link.delivery.writes = []) (mux : UInt64) :
    Gives (sendTextures o.traced opening.scene opening.key.tile mux) link fun _ after =>
      after.Stocked (opening :: textured) := by
  refine gives_bind (((gives_sendTexture_given ho opening h hwrites).and
    (gives_sendTexture_accepted ho opening.scene 0 opening.key.tile link)).imp ?_)
  rintro first sent ⟨hsent, hfirst⟩
  -- Textures are known to be up to date once both units are.
  have hfinish {second : Bool} {last : Link (Traced σ)} (hempty : last.delivery.writes = [])
      (hgiven : last.CleanSince 0 → last.delivery.told.tiles.get 0 = some opening.key.tile ∧
        last.GivenFor (opening :: textured))
      (hboth : last.CleanSince 0 → first = true ∧ second = true) :
      Gives (if (first && second) = true then update ({ · with texturesStale := false })
        else pure ()) last fun _ after => after.Stocked (opening :: textured) := by
    split
    · refine gives_update fun hclean => ?_
      obtain ⟨htold, hfor⟩ := hgiven hclean
      refine ⟨?_, fun o ho => ?_, hfor⟩
      · rw [outdated, hempty]
        rfl
      · cases ho
        exact htold
    · rename_i hnot
      refine gives_pure fun hclean => absurd ?_ hnot
      obtain ⟨hfirst, hsecond⟩ := hboth hclean
      rw [hfirst, hsecond]
      rfl
  by_cases hreads : (Combiner.Key.ofMux mux .none).stages.readsSecondTexel = true
  · rw [if_pos hreads]
    refine gives_bind (((keeps_sendTexture_given ho opening.scene opening.key.tile.next
      opening.key.tile sent hsent).and ((gives_sendTexture_accepted ho opening.scene 1
      opening.key.tile.next sent).and (gives_sendTexture_clean ho opening.scene 1
      opening.key.tile.next sent))).imp ?_)
    rintro second last ⟨⟨hempty, hgiven⟩, hsecond, hbefore⟩
    exact hfinish hempty hgiven fun hclean => ⟨hfirst (hbefore hclean), hsecond hclean⟩
  · rw [if_neg hreads]
    exact gives_bind (gives_pure (hfinish hsent.1 hsent.2 fun hclean => ⟨hfirst hclean, rfl⟩))

theorem gives_openBatch_stocked (ho : o.Forgiving) {link : Link (Traced σ)} (opening : Opening)
    (hkey : link.delivery.batch.map (·.key) ≠ some opening.key) (h : link.Stocked textured) :
    Gives (openBatch o.traced opening.scene opening.key) link fun _ after =>
      after.Stocked (if opening.isTextured then opening :: textured else textured) := by
  apply gives_look
  rw [if_pos hkey]
  refine gives_bind ((gives_settle_stocked ho h).imp fun _ settled hsettled => ?_)
  have hopen {last : Link (Traced σ)} {textured : List Opening} (hlast : last.Stocked textured) :
      Gives (update ({ · with batch := some { key := opening.key } })) last fun _ after =>
        after.Stocked textured :=
    gives_update (hlast.congr rfl rfl rfl rfl)
  by_cases hshape : opening.key.shape ≠ .fills
  · rw [if_pos hshape]
    refine gives_bind (((keeps_tellRegisters_stocked ho opening.scene opening.key settled
      hsettled.1).and (keeps_tellRegisters_writes ho.traced opening.scene opening.key settled
      hsettled.2)).imp fun _ told htold => ?_)
    cases htextured : opening.key.textured with
    | true =>
      rw [if_pos rfl, if_pos (by simp [Opening.isTextured, hshape, htextured])]
      exact gives_bind ((gives_sendTextures_stocked ho opening htold.1 htold.2 _).imp
        fun _ _ => hopen)
    | false =>
      rw [if_neg Bool.false_ne_true, if_neg (by simp [Opening.isTextured, htextured])]
      exact hopen htold.1
  · rw [if_neg hshape, if_neg (by simp [Opening.isTextured, Decidable.not_not.mp hshape])]
    exact hopen hsettled.1

end DeliverM

end DisplayPipeline
