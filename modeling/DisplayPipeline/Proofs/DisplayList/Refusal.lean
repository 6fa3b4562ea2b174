import DisplayPipeline.DisplayList.Processor

namespace DisplayPipeline

variable {σ : Type}

namespace Outlet

/-- No refusal is final. -/
def Forgiving (o : Outlet σ) : Prop :=
  ∀ command sink cause, (o.submit command sink).2 = .error cause → cause.isFinal = false

def accepting : Outlet Unit where
  submit _ _ := ((), .ok ())

theorem accepting_forgiving : accepting.Forgiving := nofun

def refusingOnly (n : Nat) : Outlet Nat where
  submit _ count := (count + 1, if count = n then .error (.timeout 0) else .ok ())

theorem refusingOnly_forgiving (n : Nat) : (refusingOnly n).Forgiving := by
  intro command count cause h
  simp only [refusingOnly] at h
  split at h
  · cases h
    rfl
  · cases h

end Outlet

/-- A sink, with what was submitted to it in order. -/
structure Traced (σ : Type) where
  sink : σ
  attempts : List Attempt := []

def refusal? : Except PoolError Unit → Option PoolError
  | .ok () => none
  | .error cause => some cause

def Traced.add (t : Traced σ) (sink : σ) (command : Command) (refusal : Option PoolError) :
    Traced σ :=
  ⟨sink, t.attempts ++ [⟨command, refusal⟩]⟩

def Outlet.traced (o : Outlet σ) : Outlet (Traced σ) where
  submit command t :=
    let (sink, answer) := o.submit command t.sink
    (t.add sink command (refusal? answer), answer)

theorem Outlet.Forgiving.traced {o : Outlet σ} (ho : o.Forgiving) : o.traced.Forgiving :=
  fun command t => ho command t.sink

theorem split_concat {α : Type} {xs earlier later : List α} {x a : α}
    (h : xs ++ [x] = earlier ++ a :: later) :
    xs = earlier ∧ x = a ∧ later = [] ∨
      ∃ rest, later = rest ++ [x] ∧ xs = earlier ++ a :: rest := by
  rcases List.eq_nil_or_concat later with rfl | ⟨rest, last, rfl⟩
  · obtain ⟨hfirst, hlast⟩ := List.append_inj' h rfl
    exact Or.inl ⟨hfirst, List.singleton_inj.mp hlast, rfl⟩
  · rw [List.concat_eq_append, ← List.cons_append, ← List.append_assoc] at h
    obtain ⟨hfirst, hlast⟩ := List.append_inj' h rfl
    rw [List.singleton_inj.mp hlast]
    exact Or.inr ⟨rest, List.concat_eq_append, hfirst⟩

/-- A batch is drawn by the command for what it holds. -/
theorem Batch.command?_cases {b : Batch} {command : Command} (h : b.command? = some command) :
    command = .drawTriangles b.vertices ∧ b.vertices ≠ [] ∨
      command = .drawRects b.rects ∧ b.rects ≠ [] ∨
      command = .fillRects b.fills ∧ b.fills ≠ [] := by
  unfold command? at h
  split at h
  · rename_i hsome
    exact Or.inl ⟨(Option.some.inj h).symm, hsome⟩
  · split at h
    · rename_i hsome
      exact Or.inr (Or.inl ⟨(Option.some.inj h).symm, hsome⟩)
    · split at h
      · rename_i hsome
        exact Or.inr (Or.inr ⟨(Option.some.inj h).symm, hsome⟩)
      · cases h

/-- Commands that tell the renderer of registers. -/
def CommandKind.tellsRegisters : CommandKind → Bool
  | .setCombine | .setOtherModes | .setColors => true
  | _ => false

theorem Scene.kind_of_textureCommand? (scene : Scene) {unit : UInt8} {tile : TileIndex}
    {command : Command} (h : scene.textureCommand? unit tile = some command) :
    command.kind = .loadTexture ∨ command.kind = .captureColorBuffer := by
  obtain ⟨format, _, h⟩ := Option.bind_eq_some_iff.mp h
  obtain ⟨load, _, h⟩ := Option.bind_eq_some_iff.mp h
  split at h
  · cases h
    exact Or.inr rfl
  · obtain ⟨source, _, h⟩ := Option.bind_eq_some_iff.mp h
    cases h
    exact Or.inl rfl

def Scene.LoadsWithin (scene : Scene) (made : Command → Prop) : Prop :=
  ∀ unit tile command, scene.textureCommand? unit tile = some command → made command

namespace DeliverM

variable {α β : Type}

/-- From a link the part succeeds, and the answer and the link after it are as told. -/
def Gives (x : DeliverM σ α) (link : Link σ) (Q : α → Link σ → Prop) : Prop :=
  ∃ a after, x link = .ok a after ∧ Q a after

/-- The part succeeds and keeps a property of the link. -/
def Keeps (I : Link σ → Prop) (x : DeliverM σ α) : Prop :=
  ∀ link, I link → Gives x link fun _ => I

section Rules

variable {x : DeliverM σ α} {f : α → DeliverM σ β} {link : Link σ} {I : Link σ → Prop}

theorem Gives.imp {Q R : α → Link σ → Prop} (h : Gives x link Q)
    (hQR : ∀ a after, Q a after → R a after) : Gives x link R := by
  obtain ⟨a, after, hx, hQ⟩ := h
  exact ⟨a, after, hx, hQR a after hQ⟩

theorem Gives.imp_run {Q R : α → Link σ → Prop} (h : Gives x link Q)
    (hQR : ∀ a after, x link = .ok a after → Q a after → R a after) : Gives x link R := by
  obtain ⟨a, after, hx, hQ⟩ := h
  exact ⟨a, after, hx, hQR a after hx hQ⟩

theorem Gives.and {Q R : α → Link σ → Prop} (hQ : Gives x link Q) (hR : Gives x link R) :
    Gives x link fun a after => Q a after ∧ R a after := by
  obtain ⟨a, after, hx, hQ⟩ := hQ
  obtain ⟨b, last, hx', hR⟩ := hR
  cases hx.symm.trans hx'
  exact ⟨a, after, hx, hQ, hR⟩

theorem gives_pure {a : α} {Q : α → Link σ → Prop} (h : Q a link) : Gives (pure a) link Q :=
  ⟨a, link, rfl, h⟩

theorem gives_bind {Q : β → Link σ → Prop}
    (h : Gives x link fun a after => Gives (f a) after Q) : Gives (x >>= f) link Q := by
  obtain ⟨a, after, hx, b, last, hf, hQ⟩ := h
  refine ⟨b, last, ?_, hQ⟩
  change EStateM.bind x f link = _
  rw [EStateM.bind, hx]
  exact hf

theorem gives_look {f : Link σ → DeliverM σ β} {Q : β → Link σ → Prop}
    (h : Gives (f link) link Q) : Gives (get >>= f) link Q := h

theorem gives_update {f : Delivery → Delivery} {Q : Unit → Link σ → Prop}
    (h : Q () { link with delivery := f link.delivery }) : Gives (update f) link Q :=
  ⟨(), _, rfl, h⟩

theorem gives_count {f : ListTally → ListTally} {Q : Unit → Link σ → Prop}
    (h : Q () { link with journal.tally := f link.journal.tally }) : Gives (count f) link Q :=
  ⟨(), _, rfl, h⟩

def refused (link : Link σ) (command : Command) (cause : PoolError) (sink : σ) : Link σ :=
  ⟨link.delivery.forget, link.journal.refuse command.kind cause, sink⟩

theorem gives_submit {o : Outlet σ} (ho : o.Forgiving) {command : Command}
    {Q : Bool → Link σ → Prop} (haccepted : ∀ sink, o.submit command link.sink = (sink, .ok ()) →
      Q true { link with sink })
    (hrefused : ∀ sink cause, o.submit command link.sink = (sink, .error cause) →
      Q false (refused link command cause sink)) :
    Gives (submit o command) link Q := by
  cases hanswer : o.submit command link.sink with
  | mk sink answer =>
    cases answer with
    | ok _ =>
      refine ⟨true, { link with sink }, ?_, haccepted sink hanswer⟩
      rw [submit]
      simp only [hanswer]
    | error cause =>
      have hcause : cause.isFinal = false := ho command link.sink cause (by rw [hanswer])
      refine ⟨false, refused link command cause sink, ?_, hrefused sink cause hanswer⟩
      rw [submit]
      simp only [hanswer, hcause]
      rfl

theorem keeps_submit_batch {o : Outlet σ} (ho : o.Forgiving) (command : Command)
    (batch : Option Batch) : Keeps (fun link => link.delivery.batch = batch) (submit o command) :=
  fun _ h => gives_submit ho (fun _ _ => h) fun _ _ _ => h

theorem Keeps.and {J : Link σ → Prop} (hI : Keeps I x) (hJ : Keeps J x) :
    Keeps (fun link => I link ∧ J link) x :=
  fun link h => (hI link h.1).and (hJ link h.2)

theorem keeps_pure (a : α) : Keeps I (pure a) := fun _ h => gives_pure h

theorem keeps_bind (hx : Keeps I x) (hf : ∀ a, Keeps I (f a)) : Keeps I (x >>= f) :=
  fun link h => gives_bind ((hx link h).imp fun a after hafter => hf a after hafter)

private theorem keeps_look {f : Link σ → DeliverM σ β} (h : ∀ link, Keeps I (f link)) :
    Keeps I (get >>= f) :=
  fun link hlink => gives_look (h link link hlink)

theorem keeps_if {condition : Prop} [Decidable condition] {y : DeliverM σ α}
    (hx : Keeps I x) (hy : Keeps I y) : Keeps I (if condition then x else y) := by
  split
  · exact hx
  · exact hy

end Rules

section Traces

variable {o : Outlet σ} {link : Link (Traced σ)}

theorem gives_submit_traced (ho : o.Forgiving) {command : Command}
    {Q : Bool → Link (Traced σ) → Prop}
    (haccepted : ∀ sink, Q true { link with sink := link.sink.add sink command none })
    (hrefused : ∀ sink cause,
      Q false (refused link command cause (link.sink.add sink command (some cause)))) :
    Gives (submit o.traced command) link Q := by
  apply gives_submit ho.traced
  · intro t ht
    cases hanswer : o.submit command link.sink.sink with
    | mk sink answer =>
      simp only [Outlet.traced, hanswer, Prod.mk.injEq] at ht
      obtain ⟨rfl, rfl⟩ := ht
      exact haccepted sink
  · intro t cause ht
    cases hanswer : o.submit command link.sink.sink with
    | mk sink answer =>
      simp only [Outlet.traced, hanswer, Prod.mk.injEq] at ht
      obtain ⟨rfl, rfl⟩ := ht
      exact hrefused sink cause

end Traces

section Parts

variable {o : Outlet σ} {I : Link σ → Prop} {scene : Scene}

def OfBatch (f : Delivery → Delivery) : Prop := ∀ d, ∃ batch, f d = { d with batch }

def OfRegisters (f : Delivery → Delivery) : Prop :=
  ∀ d, ∃ told : Told, f d = { d with told } ∧ told.tiles = d.told.tiles

def Mild (f : Delivery → Delivery) : Prop :=
  ∀ d, (f d).batch = d.batch ∧ (f d).told.combiner = d.told.combiner ∧
    (f d).told.modes = d.told.modes ∧ (f d).told.colors = d.told.colors

theorem keeps_drawBatch
    (hsubmit : ∀ b command, Batch.command? b = some command → Keeps I (submit o command))
    (hupdate : ∀ f, OfBatch f → Keeps I (update f)) (hcount : ∀ f, Keeps I (count f)) :
    Keeps I (drawBatch o) := by
  apply keeps_look
  intro link
  split
  · exact keeps_pure ()
  · rename_i b command hpending
    obtain ⟨_, _, hcommand⟩ := Option.bind_eq_some_iff.mp hpending
    obtain ⟨_, hcommand, hsame⟩ := Option.map_eq_some_iff.mp hcommand
    cases hsame
    exact keeps_bind (hupdate _ fun _ => ⟨_, rfl⟩) fun _ => keeps_bind (hcount _) fun _ =>
      keeps_bind (hsubmit b command hcommand) fun _ => keeps_pure ()

private theorem keeps_drawBatchIf {condition : Batch → Bool} (hdraw : Keeps I (drawBatch o)) :
    Keeps I (drawBatchIf o condition) := by
  apply keeps_look
  intro link
  exact keeps_if hdraw (keeps_pure ())

theorem gives_draw_keeps {key : BatchKey} {link : Link σ} (primitive : Primitive)
    (hopen : Gives (openBatch o scene key) link fun _ => I) (hdraw : Keeps I (drawBatch o))
    (hupdate : ∀ f, OfBatch f → Keeps I (update f)) (hcount : ∀ f, Keeps I (count f)) :
    Gives (draw o scene key primitive) link fun _ => I := by
  refine gives_bind (hopen.imp fun _ => ?_)
  refine keeps_bind (keeps_drawBatchIf hdraw) fun _ => keeps_bind (hupdate _ fun _ => ⟨_, rfl⟩) ?_
  intro _
  cases primitive with
  | triangle a b c => exact keeps_bind (hcount _) fun _ => keeps_drawBatchIf hdraw
  | corners a b c d => exact keeps_drawBatchIf hdraw
  | rect rect => exact keeps_drawBatchIf hdraw
  | fill fill => exact keeps_drawBatchIf hdraw

theorem keeps_closeBatch (hdraw : Keeps I (drawBatch o))
    (hupdate : ∀ f, OfBatch f → Keeps I (update f)) : Keeps I (closeBatch o) := by
  apply keeps_look
  intro link
  exact keeps_if (keeps_bind hdraw fun _ => hupdate _ fun _ => ⟨_, rfl⟩) (keeps_pure ())

theorem keeps_announce (writes : List MemoryWrite)
    (hsubmit : ∀ address length, Keeps I (submit o (.invalidateRange address length))) :
    Keeps I (announce o writes) := by
  induction writes with
  | nil => exact keeps_pure ()
  | cons write writes ih => exact keeps_bind (hsubmit write.address write.length) fun _ => ih

theorem keeps_announceWrites
    (hsubmit : ∀ address length, Keeps I (submit o (.invalidateRange address length)))
    (hupdate : ∀ f, Mild f → Keeps I (update f)) : Keeps I (announceWrites o) := by
  apply keeps_look
  intro link
  apply keeps_if
  · refine keeps_bind (hupdate _ ?_) fun _ => keeps_bind (keeps_announce _ hsubmit) fun _ =>
      hupdate _ ?_
    · exact fun _ => ⟨rfl, rfl, rfl, rfl⟩
    · exact fun _ => ⟨rfl, rfl, rfl, rfl⟩
  · exact keeps_pure ()

private theorem keeps_tell {command : Command} {isKnown : Told → Bool} {remember : Told → Told}
    (hsubmit : Keeps I (submit o command))
    (hupdate : Keeps I (update fun d => { d with told := remember d.told })) :
    Keeps I (tell o command isKnown remember) := by
  apply keeps_look
  intro link
  apply keeps_if
  · apply keeps_bind hsubmit
    intro accepted
    exact keeps_if hupdate (keeps_pure ())
  · exact keeps_pure ()

theorem keeps_tellRegisters (key : BatchKey)
    (hsubmit : ∀ command : Command, command.kind.tellsRegisters = true →
      Keeps I (submit o command))
    (hupdate : ∀ f, OfRegisters f → Keeps I (update f)) :
    Keeps I (tellRegisters o scene key) :=
  keeps_bind (keeps_tell (hsubmit _ rfl) (hupdate _ fun _ => ⟨_, rfl, rfl⟩)) fun _ =>
    keeps_bind (keeps_tell (hsubmit _ rfl) (hupdate _ fun _ => ⟨_, rfl, rfl⟩)) fun _ =>
      keeps_tell (hsubmit _ rfl) (hupdate _ fun _ => ⟨_, rfl, rfl⟩)

theorem keeps_sendTexture (unit : UInt8) (tile : TileIndex)
    (hsubmit : ∀ command, scene.textureCommand? unit tile = some command →
      Keeps I (submit o command))
    (hupdate : Keeps I
      (update fun d => { d with told.tiles := d.told.tiles.set unit (some tile) })) :
    Keeps I (sendTexture o scene unit tile) := by
  apply keeps_look
  intro link
  apply keeps_if
  · exact keeps_pure true
  · have hrest (accepted : Bool) : Keeps I (if accepted = true then do
          update fun d => { d with told.tiles := d.told.tiles.set unit (some tile) }
          pure accepted
        else pure accepted) :=
      keeps_if (keeps_bind hupdate fun _ => keeps_pure accepted) (keeps_pure accepted)
    cases hcommand : scene.textureCommand? unit tile with
    | none => exact keeps_bind (keeps_pure true) hrest
    | some command => exact keeps_bind (hsubmit command hcommand) hrest

theorem keeps_sendTextures_of (tile : TileIndex) (mux : UInt64)
    (hsubmit : ∀ unit tile command, scene.textureCommand? unit tile = some command →
      Keeps I (submit o command))
    (htold : ∀ unit tile, Keeps I
      (update fun d => { d with told.tiles := d.told.tiles.set unit (some tile) }))
    (hfresh : Keeps I (update ({ · with texturesStale := false }))) :
    Keeps I (sendTextures o scene tile mux) := by
  apply keeps_bind (keeps_sendTexture 0 tile (hsubmit 0 tile) (htold 0 tile))
  intro first
  by_cases hreads : (Combiner.Key.ofMux mux .none).stages.readsSecondTexel = true
  · rw [if_pos hreads]
    exact keeps_bind (keeps_sendTexture 1 tile.next (hsubmit 1 tile.next) (htold 1 tile.next))
      fun _ => keeps_if hfresh (keeps_pure ())
  · rw [if_neg hreads]
    exact keeps_bind (keeps_pure true) fun _ => keeps_if hfresh (keeps_pure ())

theorem keeps_sendTextures (tile : TileIndex) (mux : UInt64)
    (hsubmit : ∀ unit tile command, scene.textureCommand? unit tile = some command →
      Keeps I (submit o command))
    (hupdate : ∀ f, Mild f → Keeps I (update f)) :
    Keeps I (sendTextures o scene tile mux) :=
  keeps_sendTextures_of tile mux hsubmit (fun _ _ => hupdate _ fun _ => ⟨rfl, rfl, rfl, rfl⟩)
    (hupdate _ fun _ => ⟨rfl, rfl, rfl, rfl⟩)

end Parts

section Anything

variable {o : Outlet σ} {made : Command → Prop} {I : Link σ → Prop} {scene : Scene}

/-- A property that no change or count breaks, nor the submission of a command that may be made. All
commands but texture loads may be. -/
structure Lasting (o : Outlet σ) (made : Command → Prop) (I : Link σ → Prop) : Prop where
  plain : ∀ command, command.kind ≠ .loadTexture → made command
  submit : ∀ command, made command → Keeps I (submit o command)
  update : ∀ f, Keeps I (update f)
  count : ∀ f, Keeps I (count f)

private theorem Lasting.drawBatch (h : Lasting o made I) : Keeps I (drawBatch o) := by
  refine keeps_drawBatch (fun b command hcommand => h.submit _ (h.plain _ ?_))
    (fun f _ => h.update f) h.count
  rcases Batch.command?_cases hcommand with ⟨rfl, _⟩ | ⟨rfl, _⟩ | ⟨rfl, _⟩ <;> exact nofun

theorem Lasting.closeBatch (h : Lasting o made I) : Keeps I (closeBatch o) :=
  keeps_closeBatch h.drawBatch fun f _ => h.update f

theorem Lasting.settle (h : Lasting o made I) : Keeps I (settle o) :=
  keeps_bind h.closeBatch fun _ =>
    keeps_announceWrites (fun _ _ => h.submit _ (h.plain _ nofun)) fun f _ => h.update f

private theorem Lasting.tellRegisters (h : Lasting o made I) (key : BatchKey) :
    Keeps I (tellRegisters o scene key) := by
  refine keeps_tellRegisters key (fun command hkind => h.submit _ (h.plain _ ?_))
    fun f _ => h.update f
  intro hload
  rw [hload] at hkind
  cases hkind

private theorem Lasting.openBatch (h : Lasting o made I) (hscene : scene.LoadsWithin made)
    (key : BatchKey) : Keeps I (openBatch o scene key) := by
  apply keeps_look
  intro link
  apply keeps_if
  · apply keeps_bind h.settle
    intro _
    apply keeps_if
    · apply keeps_bind (h.tellRegisters key)
      intro _
      apply keeps_if
      · exact keeps_bind (keeps_sendTextures _ _
          (fun unit tile command hcommand => h.submit _ (hscene unit tile command hcommand))
          fun f _ => h.update f) fun _ => h.update _
      · exact h.update _
    · exact h.update _
  · exact keeps_pure ()

private theorem Lasting.perform (h : Lasting o made I) (hscene : scene.LoadsWithin made)
    (request : Request) : Keeps I (perform o scene request) := by
  cases request with
  | close => exact h.closeBatch
  | retexture => exact keeps_bind h.settle fun _ => h.update _
  | drop => exact h.count fun tally => { tally with droppedTriangles := tally.droppedTriangles + 1 }
  | draw key primitive =>
    intro link hlink
    exact gives_draw_keeps primitive (h.openBatch hscene key link hlink) h.drawBatch
      (fun f _ => h.update f) h.count

theorem Lasting.performAll (h : Lasting o made I) (hscene : scene.LoadsWithin made)
    (requests : List Request) : Keeps I (performAll o scene requests) := by
  induction requests with
  | nil => exact keeps_pure ()
  | cons request requests ih =>
    exact keeps_bind (h.perform hscene request) fun _ => ih

theorem lasting_true (ho : o.Forgiving) : Lasting o (fun _ => True) fun _ => True where
  plain _ _ := trivial
  submit _ _ _ _ := gives_submit ho (fun _ _ => trivial) fun _ _ _ => trivial
  update _ _ _ := gives_update trivial
  count _ _ _ := gives_count trivial

/-- Through a forgiving outlet everything that is asked for is performed. -/
theorem gives_performAll_true (ho : o.Forgiving) (scene : Scene) (requests : List Request)
    (link : Link σ) : Gives (performAll o scene requests) link fun _ _ => True :=
  (lasting_true ho).performAll (fun _ _ _ _ => trivial) requests link trivial

end Anything

end DeliverM

end DisplayPipeline
