import DisplayPipeline.DisplayList.Processor

namespace DisplayPipeline

def Recording.hear (r : Recording) (commands : List Command) : Recording :=
  { r with attempts := r.attempts ++ (commands.map fun command => ⟨command, none⟩).toArray }

namespace Recording

private theorem hear_nil (r : Recording) : r.hear [] = r := by
  simp [hear]

theorem hear_append (r : Recording) (xs ys : List Command) :
    r.hear (xs ++ ys) = (r.hear xs).hear ys := by
  simp only [hear, List.map_append, Array.append_assoc, ← List.toArray_appendList]
  simp

end Recording

namespace DeliverM

/-- In a delivery `d`, the part `x` gives `a`, leaves the delivery `after` and submits the commands. -/
def Says {α : Type} (x : DeliverM Recording α) (d : Delivery) (a : α) (after : Delivery)
    (commands : List Command) : Prop :=
  ∀ (j : Journal) (r : Recording), r.fates = [] →
    ∃ k : Journal, x ⟨d, j, r⟩ = .ok a ⟨after, k, r.hear commands⟩

section Says

variable {α β : Type} {d after last : Delivery} {a : α} {b : β} {xs ys : List Command}

theorem says_pure (a : α) (d : Delivery) : Says (pure a) d a d [] := by
  intro j r _
  exact ⟨j, by rw [Recording.hear_nil]; rfl⟩

theorem says_bind {x : DeliverM Recording α} {f : α → DeliverM Recording β}
    (hx : Says x d a after xs) (hf : Says (f a) after b last ys) :
    Says (x >>= f) d b last (xs ++ ys) := by
  intro j r hr
  obtain ⟨k, hk⟩ := hx j r hr
  obtain ⟨l, hl⟩ := hf k (r.hear xs) hr
  refine ⟨l, ?_⟩
  rw [Recording.hear_append, ← hl]
  change EStateM.bind x f _ = _
  rw [EStateM.bind, hk]

theorem says_look {f : Link Recording → DeliverM Recording β}
    (hf : ∀ link : Link Recording, link.delivery = d → Says (f link) d b last ys) :
    Says (get >>= f) d b last ys := by
  intro j r hr
  obtain ⟨k, hk⟩ := hf ⟨d, j, r⟩ rfl j r hr
  exact ⟨k, hk⟩

theorem says_update (f : Delivery → Delivery) (d : Delivery) : Says (update f) d () (f d) [] := by
  intro j r _
  exact ⟨j, by rw [Recording.hear_nil]; rfl⟩

theorem says_count (f : ListTally → ListTally) (d : Delivery) : Says (count f) d () d [] := by
  intro j r _
  exact ⟨_, by rw [Recording.hear_nil]; rfl⟩

theorem says_submit (command : Command) (d : Delivery) :
    Says (submit .recording command) d true d [command] := by
  intro j r hr
  refine ⟨j, ?_⟩
  obtain ⟨attempts, fates⟩ := r
  obtain rfl : fates = [] := hr
  simp [submit, Outlet.recording, Recording.submit, Recording.hear]

end Says

theorem says_then {β : Type} {d after last : Delivery} {b : β} {xs ys commands : List Command}
    {x : DeliverM Recording Unit} {y : DeliverM Recording β} (hx : Says x d () after xs)
    (hy : Says y after b last ys) (hcommands : commands = xs ++ ys) :
    Says (do x; y) d b last commands := by
  rw [hcommands]
  exact says_bind hx hy

def pending? (d : Delivery) : Option Command := d.batch.bind (·.command?)

def drawn (d : Delivery) : Delivery :=
  if (pending? d).isSome then { d with batch := d.batch.map (·.emptied) } else d

private theorem says_drawBatch (d : Delivery) :
    Says (drawBatch .recording) d () (drawn d) (pending? d).toList := by
  apply says_look
  intro link hlink
  rw [hlink]
  cases hbatch : d.batch with
  | none =>
    have hpending : pending? d = none := by simp [pending?, hbatch]
    rw [drawn, hpending]
    exact says_pure () d
  | some batch =>
    cases hcommand : batch.command? with
    | none =>
      have hpending : pending? d = none := by simp [pending?, hbatch, hcommand]
      rw [drawn, hpending]
      simp only [Option.bind_some, hcommand, Option.map_none]
      exact says_pure () d
    | some command =>
      have hpending : pending? d = some command := by simp [pending?, hbatch, hcommand]
      rw [drawn, hpending, hbatch]
      simp only [Option.bind_some, hcommand, Option.map_some, Option.isSome_some, if_true]
      refine says_then (says_update _ d) (says_then (says_count _ _) ?_ rfl) rfl
      exact says_bind (says_submit command _) (says_pure () _)

theorem says_closeBatch (d : Delivery) :
    Says (closeBatch .recording) d () { d with batch := none } (pending? d).toList := by
  apply says_look
  intro link hlink
  rw [hlink]
  cases hbatch : d.batch with
  | none =>
    have hpending : pending? d = none := by simp [pending?, hbatch]
    have hsame : { d with batch := none } = d := by rw [← hbatch]
    rw [hpending, hsame]
    exact says_pure () d
  | some batch =>
    have hafter : ({ drawn d with batch := none } : Delivery) = { d with batch := none } := by
      unfold drawn
      split <;> rfl
    rw [Option.isSome_some, if_pos rfl, ← hafter]
    exact says_then (says_drawBatch d) (says_update _ _) (List.append_nil _).symm

private theorem says_announce (writes : List MemoryWrite) (d : Delivery) :
    Says (announce .recording writes) d () d
      (writes.map fun write => .invalidateRange write.address write.length) := by
  induction writes with
  | nil => exact says_pure () d
  | cons write writes ih => exact says_bind (says_submit _ d) ih

/-- Whether textures may differ from what the renderer was told, reported writes included. -/
def outdated (d : Delivery) : Bool := d.texturesStale || !d.writes.isEmpty

def announced (d : Delivery) : Delivery := { d with writes := [], texturesStale := outdated d }

private theorem says_announceWrites (d : Delivery) :
    Says (announceWrites .recording) d () (announced d)
      (d.writes.map fun write => .invalidateRange write.address write.length) := by
  apply says_look
  intro link hlink
  rw [hlink]
  cases hwrites : d.writes with
  | nil =>
    have hsame : announced d = d := by
      cases d
      simp only at hwrites
      simp [announced, outdated, hwrites]
    rw [hsame]
    exact says_pure () d
  | cons write writes =>
    have hafter : announced d = { d with writes := [], texturesStale := true } := by
      simp [announced, outdated, hwrites]
    rw [if_pos (List.cons_ne_nil _ _), hafter]
    refine says_then (says_update _ d) ?_ (List.nil_append _).symm
    exact says_then (says_announce _ _) (says_update _ _) (List.append_nil _).symm

def settled (d : Delivery) : Delivery := { announced d with batch := none }

theorem says_settle (d : Delivery) :
    Says (settle .recording) d () (settled d)
      ((pending? d).toList ++
        d.writes.map fun write => .invalidateRange write.address write.length) :=
  says_then (says_closeBatch d) (says_announceWrites _) rfl

private theorem says_tell (command : Command) (isKnown : Told → Bool) (remember : Told → Told)
    (d : Delivery) :
    Says (tell .recording command isKnown remember) d ()
      { d with told := if isKnown d.told then d.told else remember d.told }
      (if isKnown d.told then [] else [command]) := by
  apply says_look
  intro link hlink
  rw [hlink]
  cases hknown : isKnown d.told with
  | true => exact says_pure () d
  | false =>
    refine says_bind (says_submit command d) ?_
    rw [if_pos rfl, if_neg Bool.false_ne_true]
    exact says_update _ d

theorem says_tellRegisters (scene : Scene) (key : BatchKey) (d : Delivery) :
    ∃ (told : Told) (commands : List Command),
      Says (tellRegisters .recording scene key) d () { d with told } commands ∧
        told.tiles = d.told.tiles ∧
        ∀ command ∈ commands, command.kind = .setCombine ∨ command.kind = .setOtherModes ∨
          command.kind = .setColors := by
  refine ⟨_, _, says_then (says_tell _ _ _ d) (says_then (says_tell _ _ _ _) (says_tell _ _ _ _) rfl)
    rfl, ?_, ?_⟩
  · split <;> split <;> split <;> rfl
  · have hone {known : Bool} {command only : Command}
        (h : command ∈ if known then [] else [only]) : command = only := by
      cases known with
      | true => cases h
      | false => exact List.mem_singleton.mp h
    intro command hcommand
    rcases List.mem_append.mp hcommand with hfirst | hrest
    · exact Or.inl (hone hfirst ▸ rfl)
    · rcases List.mem_append.mp hrest with hsecond | hthird
      · exact Or.inr (Or.inl (hone hsecond ▸ rfl))
      · exact Or.inr (Or.inr (hone hthird ▸ rfl))

def isSupplied (d : Delivery) (unit : UInt8) (tile : TileIndex) : Bool :=
  !d.texturesStale && d.told.tiles.get unit == some tile

/-- What a texture unit is given to sample a tile. -/
def supply (scene : Scene) (d : Delivery) (unit : UInt8) (tile : TileIndex) : List Command :=
  if isSupplied d unit tile then [] else (scene.textureCommand? unit tile).toList

def supplied (d : Delivery) (unit : UInt8) (tile : TileIndex) : Delivery :=
  if isSupplied d unit tile then d
  else { d with told.tiles := d.told.tiles.set unit (some tile) }

private theorem says_sendTexture (scene : Scene) (unit : UInt8) (tile : TileIndex) (d : Delivery) :
    Says (sendTexture .recording scene unit tile) d true (supplied d unit tile)
      (supply scene d unit tile) := by
  apply says_look
  intro link hlink
  rw [hlink, supplied, supply]
  by_cases hsupplied : isSupplied d unit tile = true
  · rw [if_pos hsupplied, if_pos hsupplied]
    unfold isSupplied at hsupplied
    rw [if_pos hsupplied]
    exact says_pure true d
  · rw [if_neg hsupplied, if_neg hsupplied]
    unfold isSupplied at hsupplied
    rw [if_neg hsupplied]
    have hrest : Says (do
        if true = true then
          update fun d => { d with told.tiles := d.told.tiles.set unit (some tile) }
        return true) d true { d with told.tiles := d.told.tiles.set unit (some tile) } [] :=
      says_then (says_update _ d) (says_pure true _) rfl
    cases hcommand : scene.textureCommand? unit tile with
    | none => exact says_bind (says_pure true d) hrest
    | some command => exact says_bind (says_submit command d) hrest

theorem says_sendTextures (scene : Scene) (tile : TileIndex) (mux : UInt64) (d : Delivery) :
    Says (sendTextures .recording scene tile mux) d ()
      { (if (Combiner.Key.ofMux mux .none).stages.readsSecondTexel then
          supplied (supplied d 0 tile) 1 tile.next
        else supplied d 0 tile) with texturesStale := false }
      (supply scene d 0 tile ++
        if (Combiner.Key.ofMux mux .none).stages.readsSecondTexel then
          supply scene (supplied d 0 tile) 1 tile.next
        else []) := by
  have hlast (after : Delivery) : Says (do
      if (true && true) = true then update ({ · with texturesStale := false })) after ()
      { after with texturesStale := false } [] := by
    rw [Bool.and_self, if_pos rfl]
    exact says_update _ after
  refine says_bind (says_sendTexture scene 0 tile d) ?_
  by_cases hreads : (Combiner.Key.ofMux mux .none).stages.readsSecondTexel = true
  · rw [if_pos hreads, if_pos hreads, if_pos hreads, ← List.append_nil (supply _ _ _ _)]
    exact says_bind (says_sendTexture scene 1 tile.next _) (hlast _)
  · rw [if_neg hreads, if_neg hreads, if_neg hreads]
    exact says_bind (says_pure true _) (hlast _)

theorem says_drawBatchIf (condition : Batch → Bool) (d : Delivery) :
    Says (drawBatchIf .recording condition) d ()
      (if d.batch.any condition then drawn d else d)
      (if d.batch.any condition then (pending? d).toList else []) := by
  apply says_look
  intro link hlink
  rw [hlink]
  by_cases hcondition : d.batch.any condition = true
  · rw [if_pos hcondition, if_pos hcondition, if_pos hcondition]
    exact says_drawBatch d
  · rw [if_neg hcondition, if_neg hcondition, if_neg hcondition]
    exact says_pure () d

end DeliverM

end DisplayPipeline
