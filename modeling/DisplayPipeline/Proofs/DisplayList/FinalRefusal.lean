import DisplayPipeline.Proofs.DisplayList.Retelling

namespace DisplayPipeline

variable {σ : Type}

namespace DeliverM

variable {α β : Type}

/-- What the part leaves, with its answer or with the final refusal that ended it. -/
def Leaves (x : DeliverM σ α) (link : Link σ) (Q : α → Link σ → Prop)
    (E : PoolError → Link σ → Prop) : Prop :=
  match x link with
  | .ok a after => Q a after
  | .error cause after => E cause after

section Rules

variable {x : DeliverM σ α} {f : α → DeliverM σ β} {link : Link σ} {E : PoolError → Link σ → Prop}

theorem Leaves.of_ok {Q : α → Link σ → Prop} (h : Leaves x link Q E) {a : α} {after : Link σ}
    (hx : x link = .ok a after) : Q a after := by
  rw [Leaves, hx] at h
  exact h

theorem Leaves.of_error {Q : α → Link σ → Prop} (h : Leaves x link Q E) {cause : PoolError}
    {after : Link σ} (hx : x link = .error cause after) : E cause after := by
  rw [Leaves, hx] at h
  exact h

theorem Leaves.imp {Q R : α → Link σ → Prop} {F : PoolError → Link σ → Prop} (h : Leaves x link Q E)
    (hQR : ∀ a after, Q a after → R a after) (hEF : ∀ cause after, E cause after → F cause after) :
    Leaves x link R F := by
  unfold Leaves
  cases hx : x link with
  | ok a after => exact hQR a after (h.of_ok hx)
  | error cause after => exact hEF cause after (h.of_error hx)

theorem leaves_pure {a : α} {Q : α → Link σ → Prop} (h : Q a link) : Leaves (pure a) link Q E := h

theorem leaves_bind {Q : β → Link σ → Prop}
    (h : Leaves x link (fun a after => Leaves (f a) after Q E) E) : Leaves (x >>= f) link Q E := by
  unfold Leaves
  change match EStateM.bind x f link with
    | .ok a after => Q a after
    | .error cause after => E cause after
  rw [EStateM.bind]
  cases hx : x link with
  | ok a after => exact h.of_ok hx
  | error cause after => exact h.of_error hx

theorem leaves_look {f : Link σ → DeliverM σ β} {Q : β → Link σ → Prop}
    (h : Leaves (f link) link Q E) : Leaves (get >>= f) link Q E := h

theorem leaves_update {f : Delivery → Delivery} {Q : Unit → Link σ → Prop}
    (h : Q () { link with delivery := f link.delivery }) : Leaves (update f) link Q E := h

theorem leaves_count {f : ListTally → ListTally} {Q : Unit → Link σ → Prop}
    (h : Q () { link with journal.tally := f link.journal.tally }) : Leaves (count f) link Q E := h

theorem leaves_if {condition : Prop} [Decidable condition] {y : DeliverM σ α}
    {Q : α → Link σ → Prop} (hx : condition → Leaves x link Q E)
    (hy : ¬ condition → Leaves y link Q E) : Leaves (if condition then x else y) link Q E := by
  split
  · exact hx ‹_›
  · exact hy ‹_›

/-- A submission is accepted, refused, or refused for good. -/
theorem leaves_submit_traced {o : Outlet σ} {link : Link (Traced σ)} {command : Command}
    {Q : Bool → Link (Traced σ) → Prop} {E : PoolError → Link (Traced σ) → Prop}
    (haccepted : ∀ sink, Q true { link with sink := link.sink.add sink command none })
    (hrefused : ∀ sink cause,
      Q false (refused link command cause (link.sink.add sink command (some cause))))
    (hfinal : ∀ sink cause,
      E cause (refused link command cause (link.sink.add sink command (some cause)))) :
    Leaves (submit o.traced command) link Q E := by
  cases hanswer : o.submit command link.sink.sink with
  | mk sink answer =>
    cases answer with
    | ok _ =>
      have hsubmit : submit o.traced command link =
          .ok true { link with sink := link.sink.add sink command none } := by
        simp only [submit, Outlet.traced, hanswer]
        rfl
      rw [Leaves, hsubmit]
      exact haccepted sink
    | error cause =>
      have hsubmit : submit o.traced command link =
          if cause.isFinal then
            .error cause (refused link command cause (link.sink.add sink command (some cause)))
          else .ok false (refused link command cause (link.sink.add sink command (some cause))) := by
        simp only [submit, Outlet.traced, hanswer]
        rfl
      rw [Leaves, hsubmit]
      cases cause.isFinal with
      | true => exact hfinal sink cause
      | false => exact hrefused sink cause

end Rules

section Parts

def LeavesClosed (x : DeliverM (Traced σ) α) (first link : Link (Traced σ))
    (kinds : List CommandKind) : Prop :=
  Leaves x link (fun _ after => first.Retelling after kinds ∧ after.delivery.batch = none)
    fun cause after => first.Abandoned cause after ∧ after.delivery.batch = none

variable {o : Outlet σ} {first link : Link (Traced σ)} {kinds : List CommandKind}

private theorem command?_forget (d : Delivery) (kind : CommandKind) :
    d.forget.told.command? kind = none := Told.command?_forgotten kind

theorem leaves_submit_plain (h : first.Retelling link kinds) (hclosed : link.delivery.batch = none)
    {command : Command} (hdraws : command.draws = false) :
    LeavesClosed (submit o.traced command) first link (command.kind :: kinds) := by
  have hforgotten (sink : σ) (cause : PoolError) :
      first.Retelling (refused link command cause (link.sink.add sink command (some cause)))
        (command.kind :: kinds) := by
    refine h.submit (a := ⟨command, some cause⟩) rfl hdraws hclosed fun kind hknown => ?_
    exact absurd (command?_forget link.delivery kind) hknown
  refine leaves_submit_traced (fun sink => ⟨?_, hclosed⟩) (fun sink cause => ?_) fun sink cause => ?_
  · exact h.submit (a := ⟨command, none⟩) rfl hdraws hclosed fun _ hknown => hknown
  · exact ⟨hforgotten sink cause, hclosed⟩
  · refine ⟨⟨rfl, rfl, ⟨command, List.getLast?_concat .., ?_⟩, (hforgotten sink cause).few⟩, hclosed⟩
    rw [hdraws, if_neg Bool.false_ne_true]
    exact hclosed

private theorem leaves_drawBatch (h : first.Retelling link kinds) :
    Leaves (drawBatch o.traced) link
      (fun _ after => first.Retelling after kinds ∧
        after.delivery.batch.map (·.key) = link.delivery.batch.map (·.key))
      first.Abandoned := by
  apply leaves_look
  split
  · exact leaves_pure ⟨h, rfl⟩
  · rename_i b command hpending
    obtain ⟨other, hb, hcommand⟩ := Option.bind_eq_some_iff.mp hpending
    obtain ⟨_, hcommand, hsame⟩ := Option.map_eq_some_iff.mp hcommand
    cases hsame
    have hkey : some b.emptied.key = link.delivery.batch.map (·.key) := by
      rw [hb]
      rfl
    have hforgotten (tally : ListTally) (sink : σ) (cause : PoolError) :
        first.Retelling (refused ⟨{ link.delivery with batch := some b.emptied },
          { link.journal with tally }, link.sink⟩ command cause
          (link.sink.add sink command (some cause))) kinds := by
      refine h.draw (a := ⟨command, some cause⟩) hb hcommand rfl rfl fun kind hknown => ?_
      exact absurd (command?_forget _ kind) hknown
    refine leaves_bind (leaves_update (leaves_bind (leaves_count (leaves_bind ?_))))
    refine leaves_submit_traced (fun sink => leaves_pure ⟨?_, hkey⟩)
      (fun sink cause => leaves_pure ⟨hforgotten _ sink cause, hkey⟩) fun sink cause => ?_
    · exact h.draw (a := ⟨command, none⟩) hb hcommand rfl rfl fun _ hknown => hknown
    · refine ⟨rfl, rfl, ⟨command, List.getLast?_concat .., ?_⟩, (hforgotten _ sink cause).few⟩
      rw [Batch.draws_of_command? hcommand, if_pos rfl]
      exact ⟨b.key, rfl⟩

private theorem leaves_drawBatchIf (h : first.Retelling link kinds) (condition : Batch → Bool) :
    Leaves (drawBatchIf o.traced condition) link
      (fun _ after => first.Retelling after kinds ∧
        after.delivery.batch.map (·.key) = link.delivery.batch.map (·.key))
      first.Abandoned := by
  apply leaves_look
  split
  · exact leaves_drawBatch h
  · exact leaves_pure ⟨h, rfl⟩

theorem leaves_closeBatch (h : first.Retelling link kinds) :
    Leaves (closeBatch o.traced) link
      (fun _ after => first.Retelling after kinds ∧ after.delivery.batch = none) first.Abandoned := by
  apply leaves_look
  split
  · refine leaves_bind ((leaves_drawBatch h).imp (fun _ after hafter => ?_) fun _ _ => id)
    exact leaves_update ⟨hafter.1.close rfl rfl rfl, rfl⟩
  · rename_i hclosed
    refine leaves_pure ⟨h, ?_⟩
    simpa using hclosed

private theorem leaves_closeBatch_emptied {E : PoolError → Link (Traced σ) → Prop}
    (h : first.Retelling link kinds) (hempty : ∀ b, link.delivery.batch = some b → b = b.emptied) :
    Leaves (closeBatch o.traced) link
      (fun _ after => first.Retelling after kinds ∧ after.delivery.batch = none) E := by
  have hpending : (link.delivery.batch.bind fun b => b.command?.map (b, ·)) = none := by
    cases hbatch : link.delivery.batch with
    | none => rfl
    | some b =>
      rw [hempty b hbatch]
      rfl
  apply leaves_look
  split
  · apply leaves_bind
    apply leaves_look
    rw [hpending]
    exact leaves_pure (leaves_update ⟨h.close rfl rfl rfl, rfl⟩)
  · rename_i hclosed
    refine leaves_pure ⟨h, ?_⟩
    simpa using hclosed

private theorem leaves_announce (h : first.Retelling link []) (hclosed : link.delivery.batch = none)
    (writes : List MemoryWrite) :
    LeavesClosed (announce o.traced writes) first link [] := by
  induction writes generalizing link with
  | nil => exact leaves_pure ⟨h, hclosed⟩
  | cons write writes ih =>
    refine leaves_bind ((leaves_submit_plain h hclosed rfl).imp ?_ fun _ _ => id)
    exact fun _ after hafter => ih hafter.1.few hafter.2

private theorem leaves_announceWrites (h : first.Retelling link [])
    (hclosed : link.delivery.batch = none) :
    LeavesClosed (announceWrites o.traced) first link [] := by
  apply leaves_look
  split
  · have horder : first.Retelling
        { link with delivery := { link.delivery with writes := [] } } [] := h.congr rfl rfl rfl
    refine leaves_bind (leaves_update (leaves_bind ?_))
    refine (leaves_announce horder hclosed _).imp ?_ fun _ _ => id
    exact fun _ after hafter => leaves_update ⟨hafter.1.congr rfl rfl rfl, hafter.2⟩
  · exact leaves_pure ⟨h, hclosed⟩

private theorem leaves_settle (h : first.Retelling link []) :
    Leaves (settle o.traced) link
      (fun _ after => first.Retelling after [] ∧ after.delivery.batch = none) first.Abandoned := by
  refine leaves_bind ((leaves_closeBatch h).imp (fun _ after hafter => ?_) fun _ _ => id)
  exact (leaves_announceWrites hafter.1 hafter.2).imp (fun _ _ => id) fun _ _ => And.left

theorem leaves_settle_emptied (h : first.Retelling link [])
    (hempty : ∀ b, link.delivery.batch = some b → b = b.emptied) :
    LeavesClosed (settle o.traced) first link [] := by
  refine leaves_bind ((leaves_closeBatch_emptied h hempty).imp ?_ fun _ _ => id)
  exact fun _ after hafter => leaves_announceWrites hafter.1 hafter.2

private theorem leaves_tell (h : first.Retelling link kinds) (hclosed : link.delivery.batch = none)
    {command : Command} {isKnown : Told → Bool} {remember : Told → Told}
    (hdraws : command.draws = false)
    (hknown : ∀ told, isKnown told = true → told.command? command.kind ≠ none)
    (hothers : ∀ told kind, kind ≠ command.kind →
      (remember told).command? kind = told.command? kind) :
    LeavesClosed (tell o.traced command isKnown remember) first link (command.kind :: kinds) := by
  apply leaves_look
  split
  · refine leaves_bind ((leaves_submit_plain h hclosed hdraws).imp ?_ fun _ _ => id)
    rintro accepted after ⟨hafter, hstill⟩
    split
    · exact leaves_update ⟨hafter.remember rfl rfl fun kind => hothers _ kind, hstill⟩
    · exact leaves_pure ⟨hafter, hstill⟩
  · rename_i hunasked
    exact leaves_pure ⟨h.recall (hknown _ (by simpa using hunasked)), hclosed⟩

private theorem leaves_tellRegisters (h : first.Retelling link [])
    (hclosed : link.delivery.batch = none) (scene : Scene) (key : BatchKey) :
    LeavesClosed (tellRegisters o.traced scene key) first link
      [.setColors, .setOtherModes, .setCombine] := by
  have hsome {γ : Type} [BEq γ] [LawfulBEq γ] {x : Option γ} {v : γ} (g : γ → Command)
      (h : (x == some v) = true) : x.map g ≠ none := by
    rw [beq_iff_eq.mp h]
    exact nofun
  refine leaves_bind ((leaves_tell h hclosed rfl (fun _ => hsome _) ?_).imp ?_ fun _ _ => id)
  · intro told kind hne
    cases kind <;> first | rfl | exact absurd rfl hne
  rintro _ combined ⟨hcombined, hclosed⟩
  refine leaves_bind ((leaves_tell hcombined hclosed rfl (fun _ => hsome _) ?_).imp ?_ fun _ _ => id)
  · intro told kind hne
    cases kind <;> first | rfl | exact absurd rfl hne
  rintro _ moded ⟨hmoded, hclosed⟩
  refine leaves_tell hmoded hclosed rfl (fun _ => hsome _) ?_
  intro told kind hne
  cases kind <;> first | rfl | exact absurd rfl hne

private theorem leaves_sendTexture (h : first.Retelling link kinds)
    (hclosed : link.delivery.batch = none) (scene : Scene) (unit : UInt8) (tile : TileIndex) :
    LeavesClosed (sendTexture o.traced scene unit tile) first link kinds := by
  have hrest (accepted : Bool) {after : Link (Traced σ)} (hafter : first.Retelling after kinds)
      (hstill : after.delivery.batch = none) : LeavesClosed (if accepted = true then do
          update fun d => { d with told.tiles := d.told.tiles.set unit (some tile) }
          pure accepted
        else pure accepted) first after kinds := by
    refine leaves_if (fun _ => ?_) fun _ => leaves_pure ⟨hafter, hstill⟩
    refine leaves_bind (leaves_update (leaves_pure ⟨hafter.congr rfl rfl ?_, hstill⟩))
    funext kind
    cases kind <;> rfl
  apply leaves_look
  refine leaves_if (fun _ => leaves_pure ⟨h, hclosed⟩) fun _ => ?_
  cases hcommand : scene.textureCommand? unit tile with
  | none => exact leaves_bind (leaves_pure (hrest true h hclosed))
  | some command =>
    have hdraws := Command.draws_of_textureUnit? (Scene.textureUnit?_of_textureCommand? hcommand)
    refine leaves_bind ((leaves_submit_plain h hclosed hdraws).imp ?_ fun _ _ => id)
    rintro accepted after ⟨hafter, hstill⟩
    exact hrest accepted (hafter.mono (List.subset_cons_self _ _)) hstill

private theorem leaves_sendTextures (h : first.Retelling link kinds)
    (hclosed : link.delivery.batch = none) (scene : Scene) (tile : TileIndex) (mux : UInt64) :
    LeavesClosed (sendTextures o.traced scene tile mux) first link kinds := by
  have hrest (accepted : Bool) {after : Link (Traced σ)} (hafter : first.Retelling after kinds)
      (hstill : after.delivery.batch = none) : LeavesClosed (do
        if accepted then update ({ · with texturesStale := false })) first after kinds := by
    exact leaves_if (fun _ => leaves_update ⟨hafter.congr rfl rfl rfl, hstill⟩)
      fun _ => leaves_pure ⟨hafter, hstill⟩
  refine leaves_bind ((leaves_sendTexture h hclosed scene 0 tile).imp ?_ fun _ _ => id)
  rintro accepted after ⟨hafter, hstill⟩
  refine leaves_if (fun _ => ?_) fun _ =>
    leaves_bind (leaves_pure (hrest (accepted && true) hafter hstill))
  refine leaves_bind ((leaves_sendTexture hafter hstill scene 1 tile.next).imp ?_ fun _ _ => id)
  exact fun second last hlast => hrest (accepted && second) hlast.1 hlast.2

private theorem leaves_openBatch (h : first.Retelling link []) (scene : Scene) (key : BatchKey) :
    Leaves (openBatch o.traced scene key) link
      (fun _ after => first.Retelling after [] ∧ after.delivery.batch.map (·.key) = some key)
      first.Abandoned := by
  have hopen {kinds : List CommandKind} {after : Link (Traced σ)}
      (hafter : first.Retelling after kinds) (hkinds : key.shape ≠ .fills →
        ∀ kind : CommandKind, kind.tellsRegisters = true → kind ∈ kinds) :
      Leaves (update ({ · with batch := some { key } })) after
        (fun _ last => first.Retelling last [] ∧ last.delivery.batch.map (·.key) = some key)
        first.Abandoned := by
    have hopened : first.Retelling
        { after with delivery := { after.delivery with batch := some { key } } } kinds :=
      hafter.open hkinds rfl rfl rfl
    exact leaves_update ⟨hopened.few, rfl⟩
  have hall : ∀ kind : CommandKind, kind.tellsRegisters = true →
      kind ∈ [CommandKind.setColors, .setOtherModes, .setCombine] := by
    intro kind hkind
    cases kind <;> cases hkind <;> simp
  apply leaves_look
  refine leaves_if (fun _ => ?_) fun hkey => leaves_pure ⟨h, not_not.mp hkey⟩
  refine leaves_bind ((leaves_settle h).imp ?_ fun _ _ => id)
  rintro _ settled ⟨hsettled, hclosed⟩
  refine leaves_if (fun _ => ?_) fun hfills => hopen hsettled fun hshape => absurd hshape hfills
  refine leaves_bind ((leaves_tellRegisters hsettled hclosed scene key).imp ?_ fun _ _ => And.left)
  rintro _ told ⟨htold, hstill⟩
  refine leaves_if (fun _ => ?_) fun _ => hopen htold fun _ => hall
  refine leaves_bind ((leaves_sendTextures htold hstill scene key.tile _).imp ?_ fun _ _ => And.left)
  exact fun _ last hlast => hopen hlast.1 fun _ => hall

private theorem leaves_draw (h : first.Retelling link []) (scene : Scene) {key : BatchKey}
    {primitive : Primitive} (hshape : key.shape = primitive.shape) :
    Leaves (draw o.traced scene key primitive) link (fun _ after => first.Retelling after [])
      first.Abandoned := by
  refine leaves_bind ((leaves_openBatch h scene key).imp ?_ fun _ _ => id)
  rintro _ opened ⟨hopened, hkey⟩
  refine leaves_bind ((leaves_drawBatchIf hopened _).imp ?_ fun _ _ => id)
  rintro _ spaced ⟨hspaced, hsame⟩
  have hsuits (b : Batch) (hb : spaced.delivery.batch = some b) :
      b.key.shape = primitive.shape := by
    rw [hkey, hb, Option.map_some, Option.some.injEq] at hsame
    rw [hsame, hshape]
  have hlast {added : Link (Traced σ)} (hadded : first.Retelling added []) :
      Leaves (drawBatchIf o.traced (·.isFull)) added (fun _ after => first.Retelling after [])
        first.Abandoned :=
    (leaves_drawBatchIf hadded _).imp (fun _ _ => And.left) fun _ _ => id
  have hadded : first.Retelling { spaced with
      delivery := { spaced.delivery with batch := spaced.delivery.batch.map (·.add primitive) } }
      [] := hspaced.add hsuits rfl rfl rfl
  refine leaves_bind (leaves_update ?_)
  cases primitive with
  | triangle p q r => exact leaves_bind (leaves_count (hlast (hadded.congr rfl rfl rfl)))
  | corners topLeft topRight bottomLeft bottomRight => exact hlast hadded
  | rect area => exact hlast hadded
  | fill area => exact hlast hadded

private theorem leaves_perform (h : first.Retelling link []) (scene : Scene) {request : Request}
    (hsuits : request.Suits) :
    Leaves (perform o.traced scene request) link (fun _ after => first.Retelling after [])
      first.Abandoned := by
  cases request with
  | close => exact (leaves_closeBatch h).imp (fun _ _ => And.left) fun _ _ => id
  | retexture =>
    refine leaves_bind ((leaves_settle h).imp ?_ fun _ _ => id)
    exact fun _ settled hsettled => leaves_update (hsettled.1.congr rfl rfl rfl)
  | drop =>
    exact leaves_count (f := fun tally =>
      { tally with droppedTriangles := tally.droppedTriangles + 1 }) (h.congr rfl rfl rfl)
  | draw key primitive => exact leaves_draw h scene hsuits

theorem leaves_performAll (h : first.Retelling link []) (scene : Scene) {requests : List Request}
    (hsuits : ∀ request ∈ requests, request.Suits) :
    Leaves (performAll o.traced scene requests) link (fun _ after => first.Retelling after [])
      first.Abandoned := by
  induction requests generalizing link with
  | nil => exact leaves_pure h
  | cons request requests ih =>
    obtain ⟨hfirst, hrest⟩ := List.forall_mem_cons.mp hsuits
    refine leaves_bind ((leaves_perform h scene hfirst).imp ?_ fun _ _ => id)
    exact fun _ after hafter => ih hafter hrest

end Parts

end DeliverM

end DisplayPipeline
