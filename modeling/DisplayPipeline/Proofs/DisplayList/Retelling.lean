import DisplayPipeline.Proofs.DisplayList.Story
import DisplayPipeline.Proofs.DisplayList.ToldRegisters

namespace DisplayPipeline

variable {σ : Type}

/-- Commands that draw with the registers that the renderer was told of. -/
def CommandKind.readsRegisters : CommandKind → Bool
  | .drawTriangles | .drawRects => true
  | _ => false

private theorem Command.readsRegisters_of_not_draws {command : Command}
    (h : command.draws = false) :
    command.kind.readsRegisters = false := by
  cases command <;> first | rfl | cases h

section Attempts

variable {attempts : List Attempt} {a : Attempt} {kind : CommandKind}

def Mentions (attempts : List Attempt) (kind : CommandKind) : Prop :=
  ∃ a ∈ attempts, a.command.kind = kind

def TellsAll (attempts : List Attempt) : Prop :=
  ∀ kind, kind.tellsRegisters = true → Mentions attempts kind

/-- The renderer is told of all registers before it draws with them. -/
def ToldBeforeRead (attempts : List Attempt) : Prop :=
  ∀ earlier a later, attempts = earlier ++ a :: later → a.command.kind.readsRegisters = true →
    TellsAll earlier

/-- The renderer draws with registers before it is told of any. -/
def ReadsAtOnce (attempts : List Attempt) : Prop :=
  (attempts.head?.any (·.command.kind.readsRegisters)) = true
deriving Decidable

private theorem Mentions.append (h : Mentions attempts kind) (a : Attempt) :
    Mentions (attempts ++ [a]) kind := by
  obtain ⟨b, hb, hkind⟩ := h
  exact ⟨b, List.mem_append_left _ hb, hkind⟩

private theorem mentions_append_self (attempts : List Attempt) (a : Attempt) :
    Mentions (attempts ++ [a]) a.command.kind :=
  ⟨a, List.mem_append_right _ (.head _), rfl⟩

private theorem TellsAll.append (h : TellsAll attempts) (a : Attempt) : TellsAll
    (attempts ++ [a]) :=
  fun kind hkind => (h kind hkind).append a

private theorem ReadsAtOnce.append (h : ReadsAtOnce attempts) (a : Attempt) :
    ReadsAtOnce (attempts ++ [a]) := by
  cases attempts with
  | nil => cases h
  | cons b later => exact h

private theorem toldBeforeRead_nil : ToldBeforeRead [] := by
  intro earlier a later hsplit
  simp at hsplit

private theorem ToldBeforeRead.append (h : ToldBeforeRead attempts)
    (ha : a.command.kind.readsRegisters = true → TellsAll attempts) :
    ToldBeforeRead (attempts ++ [a]) := by
  intro earlier b later hsplit hreads
  rcases split_concat hsplit with ⟨rfl, rfl, -⟩ | ⟨rest, -, rfl⟩
  · exact ha hreads
  · exact h earlier b rest rfl hreads

theorem ReadsAtOnce.not_toldBeforeRead (h : ReadsAtOnce attempts) : ¬ ToldBeforeRead attempts := by
  cases attempts with
  | nil => cases h
  | cons a later =>
    intro htold
    obtain ⟨b, hb, -⟩ := htold [] a later rfl h .setCombine rfl
    cases hb

end Attempts

structure Batch.OneSort (b : Batch) : Prop where
  fills : b.fills ≠ [] → b.key.shape = .fills
  others : b.key.shape = .fills → b.vertices = [] ∧ b.rects = []

namespace Batch

variable {b : Batch}

theorem oneSort_emptied (b : Batch) :
    b.emptied.OneSort := ⟨fun h => absurd rfl h, fun _ => ⟨rfl, rfl⟩⟩

private theorem key_add (b : Batch) (primitive : Primitive) : (b.add primitive).key = b.key := by
  cases primitive <;> rfl

private theorem OneSort.add (h : b.OneSort) {primitive : Primitive}
    (hshape : b.key.shape = primitive.shape) :
    (b.add primitive).OneSort := by
  cases primitive with
  | fill area => exact ⟨fun _ => hshape, h.others⟩
  | triangle | corners | rect =>
    refine ⟨h.fills, fun hfills => ?_⟩
    rw [key_add, hshape] at hfills
    cases hfills

private theorem OneSort.reads_iff (h : b.OneSort) {command : Command}
    (hcommand : b.command? = some command) :
    command.kind.readsRegisters = true ↔ b.key.shape ≠ .fills := by
  rcases command?_cases hcommand with ⟨rfl, hsome⟩ | ⟨rfl, hsome⟩ | ⟨rfl, hsome⟩
  · exact iff_of_true rfl fun hfills => hsome (h.others hfills).1
  · exact iff_of_true rfl fun hfills => hsome (h.others hfills).2
  · exact iff_of_false nofun (not_not_intro (h.fills hsome))

end Batch

namespace Link

def since (first link : Link (Traced σ)) : List Attempt :=
  link.sink.attempts.drop first.sink.attempts.length

/-- Since an earlier moment the renderer was told of registers before it drew with them, and was told
of all that is remembered. The batch that was open may still be untouched; else the renderer was told
of what the open batch depends on. -/
structure InTime (first link : Link (Traced σ)) (kinds : List CommandKind) : Prop where
  told : ToldBeforeRead (first.since link)
  remembered : ∀ kind, link.delivery.told.command? kind ≠ none → Mentions (first.since link) kind
  batch : first.delivery.batch ≠ none ∧ first.since link = [] ∨
    ∀ b, link.delivery.batch = some b → b.key.shape ≠ .fills → TellsAll (first.since link)
  mentioned : ∀ kind ∈ kinds, Mentions (first.since link) kind

/-- If nothing was known at an earlier moment, the renderer was told all since then in time, or the
batch that was open was drawn first. -/
structure Retelling (first link : Link (Traced σ)) (kinds : List CommandKind) : Prop where
  begun : first.sink.attempts.length ≤ link.sink.attempts.length
  sorted : ∀ b, link.delivery.batch = some b → b.OneSort
  retold : first.delivery.told = {} →
    first.delivery.batch ≠ none ∧ ReadsAtOnce (first.since link) ∨ first.InTime link kinds

structure Abandoned (first : Link (Traced σ)) (cause : PoolError) (link : Link (Traced σ)) :
    Prop where
  told : link.delivery.told = {}
  stale : link.delivery.texturesStale = true
  blamed : ∃ command, link.sink.attempts.getLast? = some ⟨command, some cause⟩ ∧
    (if command.draws = true then ∃ key, link.delivery.batch = some { key }
      else link.delivery.batch = none)
  retelling : first.Retelling link []

section Changes

variable {first link after : Link (Traced σ)} {kinds : List CommandKind} {a : Attempt}

theorem retelling_self (link : Link (Traced σ))
    (hsorted : ∀ b, link.delivery.batch = some b → b.OneSort) : link.Retelling link [] := by
  have hsince : link.since link = [] := List.drop_length
  refine ⟨Nat.le_refl _, hsorted, fun hnothing => Or.inr ⟨?_, ?_, ?_, nofun⟩⟩
  · rw [hsince]
    exact toldBeforeRead_nil
  · intro kind hknown
    rw [hnothing, Told.command?_forgotten] at hknown
    exact absurd rfl hknown
  · rw [hsince]
    cases hbatch : link.delivery.batch with
    | none => exact Or.inr nofun
    | some b => exact Or.inl ⟨nofun, rfl⟩

private theorem since_append (hsink : after.sink.attempts = link.sink.attempts ++ [a])
    (hbegun : first.sink.attempts.length ≤ link.sink.attempts.length) :
    first.since after = first.since link ++ [a] := by
  rw [since, hsink, List.drop_append_of_le_length hbegun]
  rfl

/-- A change of the delivery: what is known was known or mentioned before, and a batch that depends
on registers was open before, or all registers were mentioned. -/
theorem Retelling.change (h : first.Retelling link kinds) (hsink : after.sink = link.sink)
    (hsorted : ∀ b, after.delivery.batch = some b → b.OneSort)
    (htold : ∀ kind, after.delivery.told.command? kind ≠ none →
      link.delivery.told.command? kind ≠ none ∨ kind ∈ kinds)
    (hbatch : ∀ b, after.delivery.batch = some b → b.key.shape ≠ .fills →
      (∃ old, link.delivery.batch = some old ∧ old.key.shape ≠ .fills) ∨
        ∀ kind : CommandKind, kind.tellsRegisters = true → kind ∈ kinds) :
    first.Retelling after kinds := by
  have hsince : first.since after = first.since link := by rw [since, hsink, since]
  refine ⟨hsink ▸ h.begun, hsorted, fun hnothing => ?_⟩
  rw [hsince]
  refine (h.retold hnothing).imp_right fun hin => ⟨?_, fun kind hknown => ?_, ?_, ?_⟩
  · rw [hsince]
    exact hin.told
  · rw [hsince]
    exact (htold kind hknown).elim (hin.remembered kind) (hin.mentioned kind)
  · rw [hsince]
    refine hin.batch.imp_right fun hall b hb hshape => ?_
    rcases hbatch b hb hshape with ⟨old, hold, holdShape⟩ | hmentioned
    · exact hall old hold holdShape
    · exact fun kind hkind => hin.mentioned kind (hmentioned kind hkind)
  · rw [hsince]
    exact hin.mentioned

theorem Retelling.congr (h : first.Retelling link kinds) (hsink : after.sink = link.sink)
    (hbatch : after.delivery.batch = link.delivery.batch)
    (htold : after.delivery.told.command? = link.delivery.told.command?) :
    first.Retelling after kinds := by
  refine h.change hsink (hbatch ▸ h.sorted) (fun kind hknown => Or.inl ?_) fun b hb hshape => ?_
  · rwa [htold] at hknown
  · exact Or.inl ⟨b, hbatch ▸ hb, hshape⟩

theorem Retelling.remember {kind : CommandKind} (h : first.Retelling link (kind :: kinds))
    (hsink : after.sink = link.sink) (hbatch : after.delivery.batch = link.delivery.batch)
    (hothers : ∀ other, other ≠ kind →
      after.delivery.told.command? other = link.delivery.told.command? other) :
    first.Retelling after (kind :: kinds) := by
  refine h.change hsink (hbatch ▸ h.sorted) (fun other hknown => ?_) fun b hb hshape => ?_
  · by_cases hsame : other = kind
    · exact Or.inr (hsame ▸ .head _)
    · rw [hothers other hsame] at hknown
      exact Or.inl hknown
  · exact Or.inl ⟨b, hbatch ▸ hb, hshape⟩

theorem Retelling.close (h : first.Retelling link kinds) (hsink : after.sink = link.sink)
    (hclosed : after.delivery.batch = none) (htold : after.delivery.told = link.delivery.told) :
    first.Retelling after kinds := by
  have hnone (b : Batch) : after.delivery.batch ≠ some b := by
    rw [hclosed]
    exact nofun
  refine h.change hsink (fun b hb => absurd hb (hnone b)) (fun kind hknown => Or.inl ?_)
    fun b hb => absurd hb (hnone b)
  rwa [htold] at hknown

theorem Retelling.open (h : first.Retelling link kinds) {key : BatchKey}
    (hkinds : key.shape ≠ .fills → ∀ kind : CommandKind, kind.tellsRegisters = true → kind ∈ kinds)
    (hsink : after.sink = link.sink) (hopen : after.delivery.batch = some { key })
    (htold : after.delivery.told = link.delivery.told) : first.Retelling after kinds := by
  have hbatch {b : Batch} (hb : after.delivery.batch = some b) : b = { key } :=
    Option.some.inj (hb.symm.trans hopen)
  refine h.change hsink (fun b hb => ?_) (fun kind hknown => Or.inl ?_) fun b hb hshape => ?_
  · rw [hbatch hb]
    exact Batch.oneSort_emptied { key }
  · rwa [htold] at hknown
  · rw [hbatch hb] at hshape
    exact Or.inr (hkinds hshape)

theorem Retelling.add (h : first.Retelling link kinds) {primitive : Primitive}
    (hshape : ∀ b, link.delivery.batch = some b → b.key.shape = primitive.shape)
    (hsink : after.sink = link.sink)
    (hbatch : after.delivery.batch = link.delivery.batch.map (·.add primitive))
    (htold : after.delivery.told = link.delivery.told) : first.Retelling after kinds := by
  have hold {b : Batch} (hb : after.delivery.batch = some b) :
      ∃ old, link.delivery.batch = some old ∧ old.add primitive = b :=
    Option.map_eq_some_iff.mp (hbatch ▸ hb)
  refine h.change hsink (fun b hb => ?_) (fun kind hknown => Or.inl ?_) fun b hb hfills => ?_
  · obtain ⟨old, hlink, rfl⟩ := hold hb
    exact (h.sorted old hlink).add (hshape old hlink)
  · rwa [htold] at hknown
  · obtain ⟨old, hlink, rfl⟩ := hold hb
    rw [Batch.key_add] at hfills
    exact Or.inl ⟨old, hlink, hfills⟩

theorem Retelling.mono (h : first.Retelling link kinds) {fewer : List CommandKind}
    (hfewer : fewer ⊆ kinds) : first.Retelling link fewer :=
  ⟨h.begun, h.sorted, fun hnothing => (h.retold hnothing).imp_right fun hin =>
    ⟨hin.told, hin.remembered, hin.batch, fun kind hkind => hin.mentioned kind (hfewer hkind)⟩⟩

theorem Retelling.few (h : first.Retelling link kinds) : first.Retelling link [] :=
  h.mono (List.nil_subset _)

theorem Retelling.recall (h : first.Retelling link kinds) {kind : CommandKind}
    (hknown : link.delivery.told.command? kind ≠ none) : first.Retelling link (kind :: kinds) :=
  ⟨h.begun, h.sorted, fun hnothing => (h.retold hnothing).imp_right fun hin =>
    ⟨hin.told, hin.remembered, hin.batch,
      List.forall_mem_cons.mpr ⟨hin.remembered kind hknown, hin.mentioned⟩⟩⟩

/-- A submission: it reads registers only if a batch that depends on them is drawn, and no other batch
that does is open afterwards. -/
theorem Retelling.attempt (h : first.Retelling link kinds)
    (hsink : after.sink.attempts = link.sink.attempts ++ [a])
    (hsorted : ∀ b, after.delivery.batch = some b → b.OneSort)
    (htold : ∀ kind, after.delivery.told.command? kind ≠ none →
      link.delivery.told.command? kind ≠ none)
    (hreads : a.command.kind.readsRegisters = true →
      ∃ b, link.delivery.batch = some b ∧ b.key.shape ≠ .fills)
    (hbatch : ∀ b, after.delivery.batch = some b → b.key.shape ≠ .fills →
      a.command.kind.readsRegisters = true) :
    first.Retelling after (a.command.kind :: kinds) := by
  have hsince := since_append hsink h.begun
  refine ⟨?_, hsorted, fun hnothing => ?_⟩
  · rw [hsink, List.length_append]
    exact Nat.le_add_right_of_le h.begun
  rw [hsince]
  rcases h.retold hnothing with ⟨hleft, hatOnce⟩ | hin
  · exact Or.inl ⟨hleft, hatOnce.append a⟩
  -- Unless the batch that was open all along is drawn now, all was told before this.
  have hcase : first.delivery.batch ≠ none ∧ ReadsAtOnce (first.since link ++ [a]) ∨
      (a.command.kind.readsRegisters = true → TellsAll (first.since link)) := by
    by_cases hyes : a.command.kind.readsRegisters = true
    · obtain ⟨b, hb, hshape⟩ := hreads hyes
      rcases hin.batch with ⟨hleft, hnone⟩ | hall
      · rw [hnone]
        exact Or.inl ⟨hleft, hyes⟩
      · exact Or.inr fun _ => hall b hb hshape
    · exact Or.inr fun hno => absurd hno hyes
  refine hcase.imp_right fun htells => ⟨?_, fun kind hknown => ?_, Or.inr ?_, ?_⟩
  · rw [hsince]
    exact hin.told.append htells
  · rw [hsince]
    exact (hin.remembered kind (htold kind hknown)).append a
  · rw [hsince]
    exact fun b hb hshape => (htells (hbatch b hb hshape)).append a
  · rw [hsince]
    refine List.forall_mem_cons.mpr ⟨mentions_append_self _ a, fun kind hkind => ?_⟩
    exact (hin.mentioned kind hkind).append a

theorem Retelling.submit (h : first.Retelling link kinds)
    (hsink : after.sink.attempts = link.sink.attempts ++ [a]) (hdraws : a.command.draws = false)
    (hclosed : after.delivery.batch = none)
    (htold : ∀ kind, after.delivery.told.command? kind ≠ none →
      link.delivery.told.command? kind ≠ none) :
    first.Retelling after (a.command.kind :: kinds) := by
  have hnone (b : Batch) : after.delivery.batch ≠ some b := by
    rw [hclosed]
    exact nofun
  refine h.attempt hsink (fun b hb => absurd hb (hnone b)) htold (fun hreads => ?_)
    fun b hb => absurd hb (hnone b)
  rw [Command.readsRegisters_of_not_draws hdraws] at hreads
  cases hreads

theorem Retelling.draw (h : first.Retelling link kinds) {b : Batch}
    (hb : link.delivery.batch = some b) (hcommand : b.command? = some a.command)
    (hsink : after.sink.attempts = link.sink.attempts ++ [a])
    (hbatch : after.delivery.batch = some b.emptied)
    (htold : ∀ kind, after.delivery.told.command? kind ≠ none →
      link.delivery.told.command? kind ≠ none) :
    first.Retelling after kinds := by
  have hreads := (h.sorted b hb).reads_iff hcommand
  have hopen {other : Batch} (hother : after.delivery.batch = some other) : other = b.emptied :=
    Option.some.inj (hother.symm.trans hbatch)
  refine (h.attempt hsink (fun other hother => ?_) htold (fun hyes => ⟨b, hb, hreads.mp hyes⟩)
    fun other hother hshape => ?_).mono (List.subset_cons_self _ _)
  · rw [hopen hother]
    exact b.oneSort_emptied
  · rw [hopen hother] at hshape
    exact hreads.mpr hshape

end Changes

end Link

end DisplayPipeline
