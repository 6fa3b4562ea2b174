import DisplayPipeline.Proofs.DisplayList.Refusal

namespace DisplayPipeline

variable {σ : Type}

def latest? (p : Command → Bool) (attempts : List Attempt) : Option Command :=
  (attempts.filter fun a => a.refusal.isNone && p a.command).getLast?.map (·.command)

theorem latest?_append (p : Command → Bool) (attempts : List Attempt) (a : Attempt) :
    latest? p (attempts ++ [a]) =
      if a.refusal.isNone && p a.command then some a.command else latest? p attempts := by
  rw [latest?, List.filter_append, List.filter_cons, List.filter_nil]
  split
  · simp
  · simp [latest?]

/-- The command of a kind that was accepted last. -/
def lastAccepted? (kind : CommandKind) (attempts : List Attempt) : Option Command :=
  latest? (·.kind == kind) attempts

theorem lastAccepted?_append (kind : CommandKind) (attempts : List Attempt) (a : Attempt) :
    lastAccepted? kind (attempts ++ [a]) =
      if a.refusal.isNone && a.command.kind == kind then some a.command
      else lastAccepted? kind attempts :=
  latest?_append _ attempts a

/-- No command of a kind is the same as the one of its kind that was accepted before it. -/
def NeverRepeats (kind : CommandKind) (attempts : List Attempt) : Prop :=
  ∀ earlier a later, attempts = earlier ++ a :: later → a.command.kind = kind →
    lastAccepted? kind earlier ≠ some a.command

private theorem NeverRepeats.append {kind : CommandKind} {attempts : List Attempt}
    (h : NeverRepeats kind attempts) {a : Attempt}
    (ha : a.command.kind = kind → lastAccepted? kind attempts ≠ some a.command) :
    NeverRepeats kind (attempts ++ [a]) := by
  intro earlier b later hsplit hb
  rcases split_concat hsplit with ⟨rfl, rfl, -⟩ | ⟨rest, -, rfl⟩
  · exact ha hb
  · exact h earlier b rest rfl hb

/-- The commands that tell the renderer of a combiner program and of the registers besides. -/
def Scene.registerCommands (scene : Scene) (combiner : UInt64 × Combiner.Flags) : List Command :=
  let render := scene.registers.render
  [.setColors render.colors, .setOtherModes render.modes.high render.modes.low,
    .setCombine combiner.1 combiner.2]

theorem Scene.registerCommands_congr {scene other : Scene} {key : BatchKey}
    (h : other.registers.render = scene.registers.render) :
    other.registerCommands (other.combinerFor key) =
      scene.registerCommands (scene.combinerFor key) := by
  rw [registerCommands, combinerFor, h, registerCommands, combinerFor]

namespace Told

/-- The command of a kind that the renderer was told last, where that is known. -/
def command? (told : Told) : CommandKind → Option Command
  | .setCombine => told.combiner.map fun combiner => .setCombine combiner.1 combiner.2
  | .setOtherModes => told.modes.map fun modes => .setOtherModes modes.high modes.low
  | .setColors => told.colors.map .setColors
  | _ => none

private theorem beq_some_iff {α : Type} [BEq α] [LawfulBEq α] (x : Option α) (v : α)
    (g : α → Command)
    (hg : ∀ a b, g a = g b → a = b) : (x == some v) = true ↔ x.map g = some (g v) := by
  rw [beq_iff_eq]
  constructor
  · rintro rfl
    rfl
  · intro hmap
    obtain ⟨a, rfl, ha⟩ := Option.map_eq_some_iff.mp hmap
    rw [hg a v ha]

theorem command?_forgotten (kind : CommandKind) : command? {} kind = none := by
  cases kind <;> rfl

private theorem tellsRegisters_of_command? {told : Told} {kind : CommandKind} {command : Command}
    (h : told.command? kind = some command) : kind.tellsRegisters = true := by
  cases kind <;> first | rfl | cases h

end Told

namespace Link

/-- Nothing was refused since so many commands were submitted. -/
def CleanSince (link : Link (Traced σ)) (n : Nat) : Prop :=
  ∀ a ∈ link.sink.attempts.drop n, a.refusal = none

/-- What is remembered of registers was accepted last. As long as nothing is refused everything is
remembered, and nothing is told twice. -/
structure Remembers (link : Link (Traced σ)) : Prop where
  told : ∀ kind command, link.delivery.told.command? kind = some command →
    lastAccepted? kind link.sink.attempts = some command
  everything : link.CleanSince 0 → ∀ kind, kind.tellsRegisters = true →
    lastAccepted? kind link.sink.attempts = link.delivery.told.command? kind
  once : link.CleanSince 0 → ∀ kind, kind.tellsRegisters = true →
    NeverRepeats kind link.sink.attempts

structure Knows (link : Link (Traced σ)) (n : Nat) (commands : List Command) : Prop where
  remembers : link.Remembers
  begun : n ≤ link.sink.attempts.length
  known : link.CleanSince n → ∀ command ∈ commands,
    link.delivery.told.command? command.kind = some command

theorem Remembers.knows {link : Link (Traced σ)} (h : link.Remembers) :
    link.Knows link.sink.attempts.length [] :=
  ⟨h, Nat.le_refl _, fun _ _ hnone => absurd hnone List.not_mem_nil⟩

theorem Knows.accepted {link : Link (Traced σ)} {n : Nat} {commands : List Command}
    (h : link.Knows n commands) (hclean : link.CleanSince n) :
    ∀ command ∈ commands, lastAccepted? command.kind link.sink.attempts = some command :=
  fun command hcommand => h.remembers.told _ _ (h.known hclean command hcommand)

section Submissions

variable {link after : Link (Traced σ)} {n : Nat} {commands : List Command} {a : Attempt}

theorem cleanSince_append (hsink : after.sink.attempts = link.sink.attempts ++ [a])
    (hn : n ≤ link.sink.attempts.length) (h : after.CleanSince n) :
    link.CleanSince n ∧ a.refusal = none := by
  rw [CleanSince, hsink, List.drop_append_of_le_length hn] at h
  exact ⟨fun b hb => h b (List.mem_append_left _ hb), h a (List.mem_append_right _ (by simp))⟩

theorem Knows.congr (h : link.Knows n commands) (hsink : after.sink = link.sink)
    (htold : after.delivery.told.command? = link.delivery.told.command?) :
    after.Knows n commands := by
  obtain ⟨⟨htrue, hall, honce⟩, hbegun, hknown⟩ := h
  rw [← htold, ← hsink] at htrue
  refine ⟨⟨htrue, ?_, ?_⟩, hsink ▸ hbegun, ?_⟩
  · rw [CleanSince, htold, hsink]
    exact hall
  · rw [CleanSince, hsink]
    exact honce
  · rw [CleanSince, htold, hsink]
    exact hknown

private theorem Knows.accept (h : link.Knows n commands)
    (hsink : after.sink.attempts = link.sink.attempts ++ [a])
    (hkind : a.command.kind.tellsRegisters = false) (hdelivery : after.delivery = link.delivery) :
    after.Knows n commands := by
  have hsame (kind : CommandKind) (hregisters : kind.tellsRegisters = true) :
      lastAccepted? kind after.sink.attempts = lastAccepted? kind link.sink.attempts := by
    have hne : a.command.kind ≠ kind := by
      rintro rfl
      exact absurd (hkind.symm.trans hregisters) Bool.false_ne_true
    rw [hsink, lastAccepted?_append]
    simp [hne]
  have hclean {k : Nat} (hk : k ≤ link.sink.attempts.length) (hafter : after.CleanSince k) :
      link.CleanSince k := (cleanSince_append hsink hk hafter).1
  refine ⟨⟨?_, ?_, ?_⟩, ?_, ?_⟩
  · intro kind command htold
    rw [hdelivery] at htold
    rw [hsame kind (Told.tellsRegisters_of_command? htold)]
    exact h.remembers.told kind command htold
  · intro hafter kind hregisters
    rw [hsame kind hregisters, hdelivery]
    exact h.remembers.everything (hclean (Nat.zero_le _) hafter) kind hregisters
  · intro hafter kind hregisters
    rw [hsink]
    apply (h.remembers.once (hclean (Nat.zero_le _) hafter) kind hregisters).append
    intro hsameKind
    exact absurd (hkind.symm.trans (hsameKind ▸ hregisters)) Bool.false_ne_true
  · rw [hsink, List.length_append]
    exact Nat.le_trans h.begun (Nat.le_add_right _ _)
  · intro hafter
    rw [hdelivery]
    exact h.known (hclean h.begun hafter)

private theorem Knows.refuse (h : link.Knows n commands) (more : List Command)
    (hsink : after.sink.attempts = link.sink.attempts ++ [a]) (hrefused : a.refusal ≠ none)
    (htold : after.delivery.told = {}) : after.Knows n more := by
  have hnot {k : Nat} (hk : k ≤ link.sink.attempts.length) (hclean : after.CleanSince k) : False :=
    hrefused (cleanSince_append hsink hk hclean).2
  refine ⟨⟨?_, ?_, ?_⟩, ?_, ?_⟩
  · intro kind command hcommand
    rw [htold, Told.command?_forgotten] at hcommand
    cases hcommand
  · exact fun hclean => (hnot (Nat.zero_le _) hclean).elim
  · exact fun hclean => (hnot (Nat.zero_le _) hclean).elim
  · rw [hsink, List.length_append]
    exact Nat.le_trans h.begun (Nat.le_add_right _ _)
  · exact fun hclean => (hnot h.begun hclean).elim

private theorem Knows.learn (h : link.Knows n commands)
    (hsink : after.sink.attempts = link.sink.attempts ++ [a]) (haccepted : a.refusal = none)
    (hnew : link.delivery.told.command? a.command.kind ≠ some a.command)
    (htold : after.delivery.told.command? a.command.kind = some a.command)
    (hothers : ∀ kind, kind ≠ a.command.kind →
      after.delivery.told.command? kind = link.delivery.told.command? kind)
    (hdistinct : ∀ command ∈ commands, command.kind ≠ a.command.kind) :
    after.Knows n (a.command :: commands) := by
  have hlast (kind : CommandKind) : lastAccepted? kind after.sink.attempts =
      if a.command.kind = kind then some a.command else lastAccepted? kind link.sink.attempts := by
    rw [hsink, lastAccepted?_append]
    simp [haccepted]
  have hclean {k : Nat} (hk : k ≤ link.sink.attempts.length) (hafter : after.CleanSince k) :
      link.CleanSince k := (cleanSince_append hsink hk hafter).1
  refine ⟨⟨?_, ?_, ?_⟩, ?_, ?_⟩
  · intro kind command hcommand
    rw [hlast]
    by_cases hkind : a.command.kind = kind
    · rw [if_pos hkind, ← htold, hkind]
      exact hcommand
    · rw [if_neg hkind]
      rw [hothers kind (Ne.symm hkind)] at hcommand
      exact h.remembers.told kind command hcommand
  · intro hafter kind hregisters
    rw [hlast]
    by_cases hkind : a.command.kind = kind
    · rw [if_pos hkind, ← htold, hkind]
    · rw [if_neg hkind, hothers kind (Ne.symm hkind)]
      exact h.remembers.everything (hclean (Nat.zero_le _) hafter) kind hregisters
  · intro hafter kind hregisters
    rw [hsink]
    apply (h.remembers.once (hclean (Nat.zero_le _) hafter) kind hregisters).append
    rintro rfl
    rw [h.remembers.everything (hclean (Nat.zero_le _) hafter) _ hregisters]
    exact hnew
  · rw [hsink, List.length_append]
    exact Nat.le_trans h.begun (Nat.le_add_right _ _)
  · intro hafter command hcommand
    rcases List.mem_cons.mp hcommand with rfl | hcommand
    · exact htold
    · rw [hothers _ (hdistinct command hcommand)]
      exact h.known (hclean h.begun hafter) command hcommand

end Submissions

end Link

namespace DeliverM

variable {o : Outlet σ} {n : Nat} {commands : List Command} {link : Link (Traced σ)}

theorem keeps_submit_knows (ho : o.Forgiving) {command : Command}
    (hkind : command.kind.tellsRegisters = false) :
    Keeps (fun link => link.Knows n commands) (submit o.traced command) := by
  intro link h
  apply gives_submit_traced ho
  · exact fun sink => h.accept (a := ⟨command, none⟩) rfl hkind rfl
  · exact fun sink cause => h.refuse _ (a := ⟨command, some cause⟩) rfl nofun rfl

theorem keeps_update_knows {f : Delivery → Delivery}
    (hf : ∀ d, (f d).told.command? = d.told.command?) :
    Keeps (fun link => link.Knows n commands) (update (σ := Traced σ) f) :=
  fun link h => gives_update (h.congr rfl (hf link.delivery))

theorem keeps_remembers {α : Type} {x : DeliverM (Traced σ) α}
    (h : ∀ n, Keeps (fun link => link.Knows n []) x) : Keeps (·.Remembers) x :=
  fun link hlink => (h _ link hlink.knows).imp fun _ _ hafter => hafter.remembers

theorem keeps_count_knows (f : ListTally → ListTally) :
    Keeps (fun link => link.Knows n commands) (count (σ := Traced σ) f) :=
  fun _ h => gives_count (h.congr rfl rfl)

private theorem told_of_mild {f : Delivery → Delivery} (hf : Mild f) (d : Delivery) :
    (f d).told.command? = d.told.command? := by
  obtain ⟨_, hcombiner, hmodes, hcolors⟩ := hf d
  funext kind
  cases kind <;> simp only [Told.command?, hcombiner, hmodes, hcolors]

theorem kind_of_command? {b : Batch} {command : Command} (h : b.command? = some command) :
    command.kind.tellsRegisters = false := by
  rcases Batch.command?_cases h with ⟨rfl, _⟩ | ⟨rfl, _⟩ | ⟨rfl, _⟩ <;> rfl

theorem told_of_ofBatch {f : Delivery → Delivery} (hf : OfBatch f) (d : Delivery) :
    (f d).told.command? = d.told.command? := by
  obtain ⟨_, hd⟩ := hf d
  rw [hd]

theorem keeps_drawBatch_knows (ho : o.Forgiving) :
    Keeps (fun link => link.Knows n commands) (drawBatch o.traced) :=
  keeps_drawBatch (fun _ _ hcommand => keeps_submit_knows ho (kind_of_command? hcommand))
    (fun _ hf => keeps_update_knows (told_of_ofBatch hf)) keeps_count_knows

theorem keeps_closeBatch_knows (ho : o.Forgiving) :
    Keeps (fun link => link.Knows n commands) (closeBatch o.traced) :=
  keeps_closeBatch (keeps_drawBatch_knows ho) fun _ hf => keeps_update_knows (told_of_ofBatch hf)

theorem keeps_settle_knows (ho : o.Forgiving) :
    Keeps (fun link => link.Knows n commands) (settle o.traced) :=
  keeps_bind (keeps_closeBatch_knows ho) fun _ =>
    keeps_announceWrites (fun _ _ => keeps_submit_knows ho rfl)
      fun _ hf => keeps_update_knows (told_of_mild hf)

private theorem gives_tell_knows (ho : o.Forgiving) (h : link.Knows n commands) {command : Command}
    {isKnown : Told → Bool} {remember : Told → Told}
    (hknown : ∀ told, isKnown told = true ↔ told.command? command.kind = some command)
    (hremember : ∀ told, (remember told).command? command.kind = some command)
    (hothers : ∀ told kind, kind ≠ command.kind →
      (remember told).command? kind = told.command? kind)
    (hdistinct : ∀ other ∈ commands, other.kind ≠ command.kind) :
    Gives (tell o.traced command isKnown remember) link fun _ after =>
      after.Knows n (command :: commands) := by
  apply gives_look
  by_cases hlink : isKnown link.delivery.told = true
  · rw [if_neg (by simp [hlink])]
    refine gives_pure ⟨h.remembers, h.begun, fun hclean other hother => ?_⟩
    rcases List.mem_cons.mp hother with rfl | hother
    · exact (hknown _).mp hlink
    · exact h.known hclean other hother
  · rw [if_pos (by simp [hlink])]
    apply gives_bind
    apply gives_submit_traced ho
    · intro sink
      rw [if_pos rfl]
      apply gives_update
      exact h.learn (a := ⟨command, none⟩) rfl rfl (fun hold => hlink ((hknown _).mpr hold))
        (hremember _) (fun kind => hothers _ kind) hdistinct
    · intro sink cause
      rw [if_neg Bool.false_ne_true]
      apply gives_pure
      exact h.refuse _ (a := ⟨command, some cause⟩) rfl nofun rfl

private theorem gives_tellRegisters_knows (ho : o.Forgiving) (h : link.Knows n []) (scene : Scene)
    (key : BatchKey) :
    Gives (tellRegisters o.traced scene key) link fun _ after =>
      after.Knows n (scene.registerCommands (scene.combinerFor key)) := by
  have hcombiner (told : Told) := Told.beq_some_iff told.combiner (scene.combinerFor key)
    (fun combiner => Command.setCombine combiner.1 combiner.2) fun a b hsame => by
      cases a
      cases b
      cases hsame
      rfl
  have hmodes (told : Told) := Told.beq_some_iff told.modes scene.registers.render.modes
    (fun modes => Command.setOtherModes modes.high modes.low) fun a b hsame => by
      cases a
      cases b
      cases hsame
      rfl
  have hcolors (told : Told) := Told.beq_some_iff told.colors scene.registers.render.colors
    Command.setColors fun a b hsame => by
      cases hsame
      rfl
  apply gives_bind
  refine (gives_tell_knows ho h hcombiner ?_ ?_ ?_).imp fun _ _ h => ?_
  · exact fun told => rfl
  · intro told kind hne
    cases kind <;> first | rfl | exact absurd rfl hne
  · exact fun _ hnone => absurd hnone List.not_mem_nil
  apply gives_bind
  refine (gives_tell_knows ho h hmodes ?_ ?_ ?_).imp fun _ _ h => ?_
  · exact fun told => rfl
  · intro told kind hne
    cases kind <;> first | rfl | exact absurd rfl hne
  · simp [Command.kind]
  refine gives_tell_knows ho h hcolors ?_ ?_ ?_
  · exact fun told => rfl
  · intro told kind hne
    cases kind <;> first | rfl | exact absurd rfl hne
  · simp [Command.kind]

private theorem tellsRegisters_of_textureCommand? {scene : Scene} {unit : UInt8} {tile : TileIndex}
    {command : Command} (h : scene.textureCommand? unit tile = some command) :
    command.kind.tellsRegisters = false := by
  rcases scene.kind_of_textureCommand? h with hkind | hkind <;> rw [hkind] <;> rfl

/-- Once a batch is open, the renderer knows the registers that it depends on, unless something was
refused on the way. -/
theorem gives_openBatch_knows (ho : o.Forgiving) (h : link.Remembers) (scene : Scene)
    {key : BatchKey} (hkey : link.delivery.batch.map (·.key) ≠ some key) :
    Gives (openBatch o.traced scene key) link fun _ after =>
      after.Knows link.sink.attempts.length
        (if key.shape ≠ .fills then scene.registerCommands (scene.combinerFor key) else []) := by
  apply gives_look
  rw [if_pos hkey]
  have hopen {n : Nat} {commands : List Command} : Keeps
      (fun link : Link (Traced σ) => link.Knows n commands)
      (update ({ · with batch := some { key } })) := keeps_update_knows fun _ => rfl
  refine gives_bind ((keeps_settle_knows ho link h.knows).imp fun _ settled hsettled => ?_)
  by_cases hshape : key.shape ≠ .fills
  · rw [if_pos hshape, if_pos hshape]
    refine gives_bind ((gives_tellRegisters_knows ho hsettled scene key).imp fun _ told htold => ?_)
    split
    · refine gives_bind ((keeps_sendTextures key.tile _ ?_ ?_ told htold).imp fun _ => hopen)
      · intro unit tile command hcommand
        exact keeps_submit_knows ho (tellsRegisters_of_textureCommand? hcommand)
      · exact fun f hf => keeps_update_knows (told_of_mild hf)
    · exact hopen told htold
  · rw [if_neg hshape, if_neg hshape]
    exact hopen settled hsettled

end DeliverM

end DisplayPipeline
