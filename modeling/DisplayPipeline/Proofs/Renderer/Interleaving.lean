import DisplayPipeline.Proofs.Renderer.Loop

/-!
# Rendering while a host calls

However the steps of a producer and of the render loop fall, the commands carried out, the one in
hand and those in the pool are together what was submitted, in order. As long as no allocation times
out, the producer is answered as by a record that accepts everything, so that in the end the loop
has carried out what such a record shows.
-/

namespace DisplayPipeline

structure Parcel.Carries (x : Parcel) (command : Command) : Prop where
  contents : x.contents = command.encode.map some
  ready : x.ready = true

/-- What the loop has taken, and the command in it that is still to be carried out. -/
def LoopStage.HasInHand : LoopStage → List Parcel → List Command → Prop
  | waiting, delivered, commands => delivered = [] ∧ commands = []
  | taken pointer, delivered, commands =>
    ∃ x command, delivered = [x] ∧ x.ticket = pointer.seq ∧ x.Carries command ∧
      commands = [command]
  | read pointer bytes, delivered, commands =>
    ∃ x command, delivered = [x] ∧ x.ticket = pointer.seq ∧ bytes = command.encode ∧
      commands = [command]
  | decoded pointer command, delivered, commands =>
    ∃ x, delivered = [x] ∧ x.ticket = pointer.seq ∧ commands = [command]
  | spent pointer, delivered, commands =>
    ∃ x, delivered = [x] ∧ x.ticket = pointer.seq ∧ commands = []

namespace RenderLoop

/-- The commands are carried out in the order in which they were submitted. Behind them waits what
the producer is filling. -/
structure InOrder (first : Renderer) (tail : List Parcel) (commands : List Command) (b : Backlog)
    (l : RenderLoop) : Prop where
  isOpen : b.isClosed = false
  room : Settings.requiredRing ≤ b.capacity
  wellFormed : ∀ command ∈ commands, command.WellFormed
  renderer : l.renderer = l.executed.foldl Renderer.execute first
  progress : ∃ inHand queue queued, l.stage.HasInHand b.delivered inHand ∧ b.waiting = queue ++ tail ∧
    List.Forall₂ Parcel.Carries queue queued ∧ l.executed ++ inHand ++ queued = commands

/-- A loop at a pool of which a producer holds some pointers. -/
def Running (first : Renderer) (filling : List ClaimPointer) (tail : List Parcel)
    (commands : List Command) (l : RenderLoop) (p : Pool) : Prop :=
  ∃ contents, Traffic.Models ⟨p, filling, l.stage.pointers⟩ contents ∧
    InOrder first tail commands (p.backlog contents) l

/-- The steps that are left if nothing more is submitted. -/
def rank (l : RenderLoop) (p : Pool) : Nat :=
  5 * (select ClaimState.waits p.claims).length + l.stage.remaining

private theorem rank_eq (l : RenderLoop) (p : Pool) (contents : Contents) :
    l.rank p = 5 * (p.backlog contents).waiting.length + l.stage.remaining := by
  rw [rank, Pool.backlog, List.length_map]

section Step

variable {first : Renderer} {filling : List ClaimPointer} {tail : List Parcel}
  {commands : List Command} {l : RenderLoop} {p : Pool} {pointer : ClaimPointer}

private def Advances (first : Renderer) (filling : List ClaimPointer) (tail : List Parcel)
    (commands : List Command) (l : RenderLoop) (p : Pool) : Prop :=
  Running first filling tail commands (l.step p).1 (l.step p).2 ∧
    (tail = [] → (l.step p).1.rank (l.step p).2 = l.rank p - 1)

private theorem advances_idle (h : Running first filling tail commands l p)
    (hstage : l.stage = .waiting) {q : Pool} (hnext : p.next = (q, none)) :
    Advances first filling tail commands l p := by
  obtain ⟨contents, hmodels, horder⟩ := h
  obtain ⟨inHand, queue, queued, hholds, hqueue, hcarries, hcommands⟩ := horder.progress
  rw [hstage] at hmodels
  obtain ⟨after, hafter, hturn⟩ := Traffic.followsBacklog_next hmodels
  have hstep : (⟨p, filling, []⟩ : Traffic).step .next = (⟨q, filling, []⟩, .nothing) := by
    simp only [Traffic.step, hnext]
  simp only [LoopStage.pointers, hstep] at hafter hturn
  rcases hturn.next_cases with ⟨x, rest, _, _, hreply, _⟩ | ⟨hhead, _, hsame⟩
  · cases hreply
  · rw [Advances, step_nothing hstage hnext]
    refine ⟨⟨after, by rwa [hstage], by rwa [hsame]⟩, ?_⟩
    rintro rfl
    rw [List.append_nil] at hqueue
    -- What is submitted would be ready.
    have hnone : queue = [] := by
      cases hcarries with
      | nil => rfl
      | @cons x _ _ _ hx _ =>
        have hunready := hhead x (by rw [hqueue]; rfl)
        rw [hx.ready] at hunready
        cases hunready
    rw [l.rank_eq q after, l.rank_eq p contents, hsame, hqueue, hnone, hstage]
    rfl

private theorem advances_take (h : Running first filling tail commands l p)
    (htail : ∀ x ∈ tail, x.ready = false) (hstage : l.stage = .waiting) {q : Pool}
    (hnext : p.next = (q, some pointer)) : Advances first filling tail commands l p := by
  obtain ⟨contents, hmodels, horder⟩ := h
  obtain ⟨inHand, queue, queued, hholds, hqueue, hcarries, hcommands⟩ := horder.progress
  rw [hstage] at hmodels hholds
  obtain ⟨hdelivered, rfl⟩ := hholds
  obtain ⟨after, hafter, hturn⟩ := Traffic.followsBacklog_next hmodels
  have hstep : (⟨p, filling, []⟩ : Traffic).step .next =
      (⟨q, filling, [pointer]⟩, .delivered pointer.seq) := by
    simp only [Traffic.step, hnext, List.nil_append]
  simp only [LoopStage.pointers, hstep] at hafter hturn
  rcases hturn.next_cases with ⟨x, rest, hwaiting, hready, hreply, hlast⟩ | ⟨_, hreply, _⟩
  · have hsplit : queue ++ tail = x :: rest := hqueue.symm.trans hwaiting
    -- A parcel that is ready is not the one being filled.
    cases hcarries with
    | nil =>
      have hmem : x ∈ tail := by
        rw [← List.nil_append tail, hsplit]
        exact List.mem_cons_self
      have hunready := htail x hmem
      rw [hready] at hunready
      cases hunready
    | @cons y command queue queued hy hrest =>
      obtain ⟨rfl, rfl⟩ : y = x ∧ queue ++ tail = rest := List.cons.inj hsplit
      rw [Advances, step_next hstage hnext]
      refine ⟨⟨after, hafter, ?_⟩, fun _ => ?_⟩
      · rw [hlast, hdelivered]
        have hticket : y.ticket = pointer.seq := (Reply.delivered.inj hreply).symm
        exact { horder with
          progress := ⟨[command], queue, queued, ⟨y, command, rfl, hticket, hy, rfl⟩, rfl, hrest,
            by simpa using hcommands⟩ }
      · rw [rank_eq _ q after, l.rank_eq p contents, hlast, hwaiting, hstage]
        simp only [Backlog.withDelivered, Backlog.withWaiting, LoopStage.remaining,
          List.length_cons]
        omega
  · cases hreply

theorem eq_of_written {bytes told : List UInt8} (hlength : told.length = (bytes.map some).length)
    (h : ∀ (i : Nat) (byte : UInt8), (bytes.map some)[i]? = some (some byte) →
      told[i]? = some byte) : told = bytes := by
  apply List.ext_getElem?
  intro i
  cases hbyte : bytes[i]? with
  | none =>
    rw [List.length_map] at hlength
    exact List.getElem?_eq_none (hlength ▸ List.getElem?_eq_none_iff.mp hbyte)
  | some byte => exact h i byte (by rw [List.getElem?_map, hbyte]; rfl)

private theorem advances_taken (h : Running first filling tail commands l p)
    (hstage : l.stage = .taken pointer) : Advances first filling tail commands l p := by
  obtain ⟨contents, hmodels, horder⟩ := h
  obtain ⟨inHand, queue, queued, hholds, hqueue, hcarries, hcommands⟩ := horder.progress
  rw [hstage] at hmodels hholds
  obtain ⟨x, command, hdelivered, hticket, hx, rfl⟩ := hholds
  obtain ⟨after, hafter, hturn⟩ := Traffic.followsBacklog_read hmodels pointer.seq
  cases hread : p.read pointer with
  | error cause =>
    have hstep : (⟨p, filling, [pointer]⟩ : Traffic).step (.read pointer.seq) =
        (⟨p, filling, [pointer]⟩, .refused cause) := by
      simp only [Traffic.step, Traffic.pointer?_single, hread]
    simp only [LoopStage.pointers, hstep] at hturn
    rcases hturn.read_cases with ⟨_, _, _, _, hreply, _⟩ | ⟨_, hreply⟩
    · cases hreply
    · cases hreply
  | ok bytes =>
    have hstep : (⟨p, filling, [pointer]⟩ : Traffic).step (.read pointer.seq) =
        (⟨p, filling, [pointer]⟩, .bytes bytes) := by
      simp only [Traffic.step, Traffic.pointer?_single, hread]
    simp only [LoopStage.pointers, hstep] at hafter hturn
    rcases hturn.read_cases with ⟨y, told, hmem, _, hreply, hlength, hbytes, hsame⟩ | ⟨_, hreply⟩
    · obtain rfl : y = x := List.mem_singleton.mp (hdelivered ▸ hmem)
      obtain rfl : bytes = told := Reply.bytes.inj hreply
      rw [hx.contents] at hlength hbytes
      rw [Advances, step_read hstage hread]
      refine ⟨⟨after, hafter, ?_⟩, fun _ => ?_⟩
      · rw [hsame]
        exact { horder with
          progress := ⟨[command], queue, queued,
            ⟨y, command, hdelivered, hticket, eq_of_written hlength hbytes, rfl⟩, hqueue, hcarries,
            hcommands⟩ }
      · rw [rank, rank, hstage]
        rfl
    · cases hreply

private theorem advances_read {bytes : List UInt8} (h : Running first filling tail commands l p)
    (hstage : l.stage = .read pointer bytes) : Advances first filling tail commands l p := by
  obtain ⟨contents, hmodels, horder⟩ := h
  obtain ⟨inHand, queue, queued, hholds, hqueue, hcarries, hcommands⟩ := horder.progress
  rw [hstage] at hmodels hholds
  obtain ⟨x, command, hdelivered, hticket, rfl, rfl⟩ := hholds
  have hmem : command ∈ commands := by
    rw [← hcommands]
    simp
  -- No step ends in a decode error, since all that is submitted is well-formed.
  have hdecode := Command.decode_encode_of_wellFormed (horder.wellFormed command hmem)
  rw [Advances, step_decode hstage hdecode]
  refine ⟨⟨contents, hmodels, ?_⟩, fun _ => ?_⟩
  · exact { horder with
      progress := ⟨[command], queue, queued, ⟨x, hdelivered, hticket, rfl⟩, hqueue, hcarries,
        hcommands⟩ }
  · rw [rank, rank, hstage]
    rfl

private theorem advances_decoded {command : Command} (h : Running first filling tail commands l p)
    (hstage : l.stage = .decoded pointer command) : Advances first filling tail commands l p := by
  obtain ⟨contents, hmodels, horder⟩ := h
  obtain ⟨inHand, queue, queued, hholds, hqueue, hcarries, hcommands⟩ := horder.progress
  rw [hstage] at hmodels hholds
  obtain ⟨x, hdelivered, hticket, rfl⟩ := hholds
  rw [Advances, step_execute hstage]
  refine ⟨⟨contents, hmodels, ?_⟩, fun _ => ?_⟩
  · refine { horder with
      renderer := ?_
      progress := ⟨[], queue, queued, ⟨x, hdelivered, hticket, rfl⟩, hqueue, hcarries, ?_⟩ }
    · rw [List.foldl_append, ← horder.renderer]
      rfl
    · rw [List.append_nil]
      exact hcommands
  · rw [rank, rank, hstage]
    rfl

private theorem advances_spent (h : Running first filling tail commands l p)
    (hstage : l.stage = .spent pointer) : Advances first filling tail commands l p := by
  obtain ⟨contents, hmodels, horder⟩ := h
  obtain ⟨inHand, queue, queued, hholds, hqueue, hcarries, hcommands⟩ := horder.progress
  rw [hstage] at hmodels hholds
  obtain ⟨x, hdelivered, hticket, rfl⟩ := hholds
  obtain ⟨after, hafter, hturn⟩ := Traffic.followsBacklog_release hmodels pointer.seq
  cases hrelease : p.release pointer with
  | mk q answer =>
    have hstep : (⟨p, filling, [pointer]⟩ : Traffic).step (.release pointer.seq) =
        (⟨q, filling, []⟩, .ofResult answer) := by
      simp only [Traffic.step, Traffic.pointer?_single, Traffic.without_single, hrelease]
    simp only [LoopStage.pointers, hstep] at hafter hturn
    rcases hturn.release_cases with ⟨xs, y, ys, hsplit, _, hreply, hlast⟩ | ⟨_, hreply⟩
    · cases answer with
      | error cause => cases hreply
      | ok _ =>
        obtain ⟨rfl, rfl⟩ : xs = [] ∧ ys = [] := by
          rw [hdelivered] at hsplit
          have hlength := congrArg List.length hsplit
          simp only [List.length_append, List.length_cons, List.length_nil] at hlength
          exact ⟨List.eq_nil_of_length_eq_zero (by omega), List.eq_nil_of_length_eq_zero (by omega)⟩
        rw [Advances, step_release hstage hrelease]
        refine ⟨⟨after, hafter, ?_⟩, fun _ => ?_⟩
        · rw [hlast]
          exact { horder with
            progress := ⟨[], queue, queued, ⟨rfl, rfl⟩, hqueue, hcarries, hcommands⟩ }
        · rw [rank_eq _ q after, l.rank_eq p contents, hlast, hstage]
          rfl
    · cases answer with
      | error cause => cases hreply
      | ok _ => cases hreply

private theorem advances (h : Running first filling tail commands l p)
    (htail : ∀ x ∈ tail, x.ready = false) : Advances first filling tail commands l p := by
  cases hstage : l.stage with
  | waiting =>
    cases hnext : p.next with
    | mk q answer =>
      cases answer with
      | none => exact advances_idle h hstage hnext
      | some pointer => exact advances_take h htail hstage hnext
  | taken pointer => exact advances_taken h hstage
  | read pointer bytes => exact advances_read h hstage
  | decoded pointer command => exact advances_decoded h hstage
  | spent pointer => exact advances_spent h hstage

private theorem Running.steps (h : Running first filling tail commands l p)
    (htail : ∀ x ∈ tail, x.ready = false) (n : Nat) :
    Running first filling tail commands (steps n (l, p)).1 (steps n (l, p)).2 := by
  induction n generalizing l p with
  | zero => exact h
  | succ n ih => exact ih (advances h htail).1

/-- Once nothing more is submitted, every step brings the loop closer to the end. -/
theorem Running.rank_steps (h : Running first filling [] commands l p) (n : Nat) :
    (RenderLoop.steps n (l, p)).1.rank (RenderLoop.steps n (l, p)).2 = l.rank p - n := by
  induction n generalizing l p with
  | zero => rfl
  | succ n ih =>
    obtain ⟨hnext, hrank⟩ := advances h fun _ hnone => absurd hnone List.not_mem_nil
    exact (ih hnext).trans (by rw [hrank rfl]; omega)

/-- A loop with no steps left has carried out everything, and holds nothing of the pool. -/
theorem Running.finished (h : Running first [] [] commands l p) (hrank : l.rank p = 0) :
    l.executed = commands ∧ l.renderer = commands.foldl Renderer.execute first ∧
      p.claims = [] := by
  obtain ⟨contents, hmodels, horder⟩ := h
  obtain ⟨inHand, queue, queued, hholds, hqueue, hcarries, hcommands⟩ := horder.progress
  rw [rank_eq l p contents] at hrank
  have hwaiting : (p.backlog contents).waiting = [] := List.eq_nil_of_length_eq_zero (by omega)
  have hstage : l.stage = .waiting := by
    cases hstage : l.stage with
    | waiting => rfl
    | _ =>
      rw [hstage] at hrank
      simp only [LoopStage.remaining] at hrank
      omega
  rw [hstage] at hholds
  obtain ⟨hdelivered, rfl⟩ := hholds
  obtain rfl : queue = [] := by
    rw [hqueue, List.append_nil] at hwaiting
    exact hwaiting
  cases hcarries with
  | nil =>
    have hexecuted : l.executed = commands := by simpa using hcommands
    exact ⟨hexecuted, hexecuted ▸ horder.renderer, hmodels.claims_nil hwaiting hdelivered⟩

end Step

section Producer

variable {first : Renderer} {commands : List Command} {command : Command} {l : RenderLoop}
  {p q : Pool} {pointer : ClaimPointer}

private def Blank (pointer : ClaimPointer) (command : Command) : Parcel :=
  ⟨pointer.seq, .replicate command.encode.length none, false⟩

private def Filled (pointer : ClaimPointer) (command : Command) : Parcel :=
  ⟨pointer.seq, command.encode.map some, false⟩

private theorem Running.granted (h : Running first [] [] commands l p)
    (hcommand : command.WellFormed)
    (hallocate : p.allocate command.encode.length = (q, .ok pointer)) :
    Running first [pointer] [Blank pointer command] commands l q := by
  obtain ⟨contents, hmodels, horder⟩ := h
  have hmeasures : p.Measures command.encode.length :=
    Or.inl (Nat.le_trans (Nat.add_le_add_right hcommand.length_le _) (by decide))
  obtain ⟨c, after, rfl, hseq, _, _, _, _, _, hafter, hbacklog⟩ :=
    hmodels.grant hmeasures hallocate
  obtain ⟨inHand, queue, queued, hholds, hqueue, hcarries, hcommands⟩ := horder.progress
  refine ⟨after, hafter, ?_⟩
  rw [hbacklog]
  refine { horder with
    progress := ⟨inHand, queue, queued, hholds, ?_, hcarries, hcommands⟩ }
  rw [List.append_nil] at hqueue
  have hticket : (p.backlog contents).issued = (ClaimPointer.ofClaim c).seq := hseq.symm
  rw [Blank, ← hticket, ← hqueue]
  rfl

/-- Nothing but a timeout keeps the producer from a claim for a command. -/
theorem Running.denied (h : Running first [] [] commands l p) (hcommand : command.WellFormed)
    {cause : PoolError} (hallocate : p.allocate command.encode.length = (q, .error cause)) :
    q.tally.timeouts ≠ 0 := by
  obtain ⟨contents, -, horder⟩ := h
  obtain ⟨rounded, hroom⟩ := Pool.checkRequest_of_room horder.room hcommand.length_le
  rcases p.allocate_cases command.encode.length with ⟨_, _, _, _, _, hcase⟩ |
    ⟨_, _, _, _, hcase⟩ | ⟨_, _, hclosed, _⟩ | ⟨htooLarge, _⟩
  · cases hcase.symm.trans hallocate
  · obtain ⟨rfl, -⟩ := Prod.mk.inj (hcase.symm.trans hallocate)
    exact Nat.succ_ne_zero _
  · have hopen : p.isClosed = false := horder.isOpen
    cases hopen.symm.trans hclosed
  · cases htooLarge.symm.trans hroom

private theorem unready_last {queue xs ys : List Parcel} {x last : Parcel}
    (hqueue : ∀ y ∈ queue, y.ready = true) (h : queue ++ [last] = xs ++ x :: ys)
    (hx : x.ready = false) : xs = queue ∧ x = last ∧ ys = [] := by
  induction queue generalizing xs with
  | nil =>
    cases xs with
    | nil =>
      obtain ⟨hhead, htail⟩ := List.cons.inj h
      exact ⟨rfl, hhead.symm, htail.symm⟩
    | cons y xs =>
      have hnone := (List.cons.inj h).2
      simp at hnone
  | cons y queue ih =>
    obtain ⟨hy, hrest⟩ := List.forall_mem_cons.mp hqueue
    cases xs with
    | nil =>
      rw [← (List.cons.inj h).1, hy] at hx
      cases hx
    | cons z xs =>
      obtain ⟨hhead, htail⟩ := List.cons.inj h
      obtain ⟨hxs, hlast⟩ := ih hrest htail
      exact ⟨by rw [hxs, hhead], hlast⟩

private theorem ready_of_carries {queue : List Parcel} {queued : List Command}
    (h : List.Forall₂ Parcel.Carries queue queued) : ∀ y ∈ queue, y.ready = true := by
  induction h with
  | nil => exact fun _ hnone => absurd hnone List.not_mem_nil
  | cons hx _ ih => exact List.forall_mem_cons.mpr ⟨hx.ready, ih⟩

private theorem Running.write (h : Running first [pointer] [Blank pointer command] commands l p)
    {answer : Except PoolError Unit} (hwrite : p.write pointer command.encode = (q, answer)) :
    answer = .ok () ∧ Running first [pointer] [Filled pointer command] commands l q := by
  obtain ⟨contents, hmodels, horder⟩ := h
  obtain ⟨inHand, queue, queued, hholds, hqueue, hcarries, hcommands⟩ := horder.progress
  obtain ⟨after, hafter, hturn⟩ := Traffic.followsBacklog_write hmodels pointer.seq command.encode
  have hstep : (⟨p, [pointer], l.stage.pointers⟩ : Traffic).step
      (.write pointer.seq command.encode) =
      (⟨q, [pointer], l.stage.pointers⟩, .ofResult answer) := by
    simp only [Traffic.step, Traffic.pointer?_single, hwrite]
  rw [hstep] at hafter hturn
  rcases hturn.write_cases with ⟨xs, x, ys, hwaiting, hready, _, hput⟩ | ⟨_, hreply⟩
  · obtain ⟨rfl, rfl, rfl⟩ := unready_last (ready_of_carries hcarries)
      (hqueue.symm.trans hwaiting) hready
    rcases hput with ⟨_, hreply, hlast⟩ | ⟨hlong, _⟩
    · cases answer with
      | error cause => cases hreply
      | ok _ =>
        refine ⟨rfl, after, hafter, ?_⟩
        have hfilled : (Blank pointer command).put command.encode = Filled pointer command := by
          simp [Blank, Filled, Parcel.put]
        rw [hlast, hfilled]
        exact { horder with
          progress := ⟨inHand, xs, queued, hholds, rfl, hcarries, hcommands⟩ }
    · simp [Blank] at hlong
  · cases answer <;> cases hreply

private theorem Running.submit (h : Running first [pointer] [Filled pointer command] commands l p)
    (hcommand : command.WellFormed) {answer : Except PoolError Unit}
    (hsubmit : p.submit pointer = (q, answer)) :
    answer = .ok () ∧ Running first [] [] (commands ++ [command]) l q := by
  obtain ⟨contents, hmodels, horder⟩ := h
  obtain ⟨inHand, queue, queued, hholds, hqueue, hcarries, hcommands⟩ := horder.progress
  obtain ⟨after, hafter, hturn⟩ := Traffic.followsBacklog_submit hmodels pointer.seq
  have hstep : (⟨p, [pointer], l.stage.pointers⟩ : Traffic).step (.submit pointer.seq) =
      (⟨q, [], l.stage.pointers⟩, .ofResult answer) := by
    simp only [Traffic.step, Traffic.pointer?_single, Traffic.without_single, hsubmit]
  rw [hstep] at hafter hturn
  rcases hturn.submit_cases with ⟨xs, x, ys, hwaiting, hready, _, hreply, hlast⟩ | ⟨_, hreply⟩
  · obtain ⟨rfl, rfl, rfl⟩ := unready_last (ready_of_carries hcarries)
      (hqueue.symm.trans hwaiting) hready
    cases answer with
    | error cause => cases hreply
    | ok _ =>
      refine ⟨rfl, after, hafter, ?_⟩
      have hlastCarries : (Filled pointer command).submit.Carries command := ⟨rfl, rfl⟩
      rw [hlast]
      refine { horder with
        wellFormed := ?_
        progress := ⟨inHand, xs ++ [(Filled pointer command).submit], queued ++ [command], hholds,
          (List.append_nil _).symm, ?_, ?_⟩ }
      · exact List.forall_mem_append.mpr
          ⟨horder.wellFormed, List.forall_mem_singleton.mpr hcommand⟩
      · exact List.rel_append hcarries (.cons hlastCarries .nil)
      · rw [← List.append_assoc, hcommands]
  · cases answer <;> cases hreply

end Producer

/-- A render loop beside a producer. The plan tells how many steps it takes before each step of the
producer; after the plan it takes none. -/
def company : Company (RenderLoop × List Nat) where
  act p s := ((steps (s.2.headD 0) (s.1, p)).2, (steps (s.2.headD 0) (s.1, p)).1, s.2.tail)
  calls p s := steps_calls (s.2.headD 0) s.1 p

/-- The commands that the loop was given are those on record. -/
structure AgreesWithRecord (first : Renderer) (shared : Shared (RenderLoop × List Nat))
    (record : Recording) : Prop where
  running : Running first [] [] (record.attempts.toList.map (·.command)) shared.company.1
    shared.pool
  fates : record.fates = []

private theorem submit_accepting {record : Recording} (h : record.fates = []) (command : Command) :
    Outlet.recording.submit command record =
      ({ attempts := record.attempts.push ⟨command, none⟩ }, .ok ()) := by
  obtain ⟨attempts, fates⟩ := record
  obtain rfl : fates = [] := h
  rfl

section Submission

variable {first : Renderer} {record : Recording} {command : Command}

private theorem Running.yield {after : Shared (RenderLoop × List Nat)} {filling : List ClaimPointer}
    {tail : List Parcel} {commands : List Command} (shared : Shared (RenderLoop × List Nat))
    (h : Running first filling tail commands shared.company.1 shared.pool)
    (htail : ∀ x ∈ tail, x.ready = false) (hafter : after = shared.yield company) :
    Running first filling tail commands after.company.1 after.pool := by
  rw [hafter]
  exact h.steps htail (shared.company.2.headD 0)

/-- A submission through the pool is answered as by the record, unless an allocation times out. -/
theorem AgreesWithRecord.submit {shared : Shared (RenderLoop × List Nat)}
    (h : AgreesWithRecord first shared record) (hcommand : command.WellFormed) :
    ((Outlet.sharing company).submit command shared).1.pool.tally.timeouts ≠ 0 ∨
      ((Outlet.sharing company).submit command shared).2 =
        (Outlet.recording.submit command record).2 ∧
      AgreesWithRecord first ((Outlet.sharing company).submit command shared).1
        (Outlet.recording.submit command record).1 := by
  have hwaited := Running.yield shared h.running (fun _ hnone => absurd hnone List.not_mem_nil) rfl
  rcases Outlet.sharing_cases company command shared with ⟨q, cause, hallocate, hsubmit⟩ |
    ⟨q, pointer, hallocate, claimed, hclaimed, hwritten⟩
  · refine Or.inl ?_
    rw [hsubmit]
    exact hwaited.denied hcommand hallocate
  · have hblank := Running.yield { shared.yield company with pool := q }
      (hwaited.granted hcommand hallocate) (List.forall_mem_singleton.mpr rfl) hclaimed
    rcases hwritten with ⟨r, cause, hwrite, _⟩ | ⟨r, hwrite, filled, hfilled, hsubmit⟩
    · cases (hblank.write hwrite).1
    · have hrunning := Running.yield { claimed with pool := r } (hblank.write hwrite).2
        (List.forall_mem_singleton.mpr rfl) hfilled
      obtain ⟨hanswer, hlast⟩ := hrunning.submit hcommand (q := (filled.pool.submit pointer).1) rfl
      rw [hsubmit, submit_accepting h.fates]
      refine Or.inr ⟨hanswer, ?_, rfl⟩
      rw [Array.toList_push, List.map_append]
      exact hlast

end Submission

end RenderLoop

namespace Renderer

variable (r : Renderer)

private theorem decodeErrors_fetch (source : TextureSource) :
    (r.fetch source).1.tally.decodeErrors = r.tally.decodeErrors := by
  unfold fetch
  split
  · dsimp only
    split <;> rfl
  · rfl

private theorem decodeErrors_bindSource (unit : UInt8) (source : TextureSource) :
    (r.bindSource unit source).tally.decodeErrors = r.tally.decodeErrors :=
  r.decodeErrors_fetch source

private theorem decodeErrors_capture (capture : ColorCapture) :
    (r.capture capture).tally.decodeErrors = r.tally.decodeErrors := by
  unfold Renderer.capture
  dsimp only
  split
  · rfl
  · exact decodeErrors_bindSource _ _ _

private theorem decodeErrors_draw (vertices : List Vertex) :
    (r.draw vertices).tally.decodeErrors = r.tally.decodeErrors := by
  have hprogram : r.currentProgram.1.tally.decodeErrors = r.tally.decodeErrors := rfl
  unfold draw
  split
  · rfl
  · split
    · rename_i after hcurrent
      rw [hcurrent] at hprogram
      exact hprogram
    · rename_i after program hcurrent
      rw [hcurrent] at hprogram
      dsimp only
      split
      · exact hprogram
      · exact hprogram

private theorem decodeErrors_execute (command : Command) :
    (r.execute command).tally.decodeErrors = r.tally.decodeErrors := by
  cases command with
  | loadTexture load => exact r.decodeErrors_bindSource load.unit load.source
  | captureColorBuffer capture => exact r.decodeErrors_capture capture
  | drawTriangles vertices => exact r.decodeErrors_draw vertices
  | drawRects rects => exact r.decodeErrors_draw _
  | _ => rfl

theorem decodeErrors_foldl (commands : List Command) :
    (commands.foldl execute r).tally.decodeErrors = r.tally.decodeErrors := by
  induction commands generalizing r with
  | nil => rfl
  | cons command commands ih => exact (ih _).trans (r.decodeErrors_execute command)

end Renderer

def Settings.sharedPool (s : Settings) (first : Renderer) (plan : List Nat) :
    Shared (RenderLoop × List Nat) where
  pool := .ofCapacity s.ringBytes s.ringPatience
  company := ({ renderer := first }, plan)

private theorem Settings.agreesWithRecord_sharedPool {s : Settings} (hs : s.validate = .ok ())
    (first : Renderer) (plan : List Nat) :
    RenderLoop.AgreesWithRecord first (s.sharedPool first plan) {} := by
  have hmodels : Traffic.Models ⟨.ofCapacity s.ringBytes s.ringPatience, [], []⟩ fun _ => [] :=
    ⟨Pool.storesContents_ofCapacity s.ringBytes s.ringPatience _, by simp [Pool.ofCapacity], rfl, rfl⟩
  exact ⟨⟨_, hmodels, rfl, requiredRing_le hs, fun _ hnone => absurd hnone List.not_mem_nil, rfl,
    [], [], [], ⟨rfl, rfl⟩, rfl, .nil, rfl⟩, rfl⟩

namespace Hosting

open RenderLoop

/-- Whatever a host calls and however the steps of the processor and of the render loop fall, as
long as no allocation times out the processor ends as with a record of its commands, and the loop
carries out what is on record, in order. It is done after finitely many steps of its own; the
renderer is then as if it had been given the record itself, no bytes were malformed, and the pool is
idle. -/
theorem serveAll_renders_record {s : Settings} (hs : s.validate = .ok ()) (first : Renderer)
    (settings : ListSettings) (calls : List HostCall) (plan : List Nat)
    (htimely : ((start settings (s.sharedPool first plan)).serveAll (.sharing company)
      calls).sink.pool.tally.timeouts = 0) :
    let shared := (start settings (s.sharedPool first plan)).serveAll (.sharing company) calls
    let recorded := (start settings ({} : Recording)).serveAll .recording calls
    let commands := recorded.sink.attempts.toList.map (·.command)
    let loop := shared.sink.company.1
    shared.processor = recorded.processor ∧ shared.replies = recorded.replies ∧
      loop.executed <+: commands ∧ loop.renderer = loop.executed.foldl Renderer.execute first ∧
      ∃ n, ∀ m, n ≤ m →
        let last := steps m (loop, shared.sink.pool)
        last.1.executed = commands ∧ last.1.renderer = commands.foldl Renderer.execute first ∧
          last.1.renderer.tally.decodeErrors = first.tally.decodeErrors ∧
          last.2.isIdle = true := by
  intro shared recorded commands loop
  obtain ⟨t, ht, hcalls⟩ := start_speaks settings calls
  -- Once an allocation has timed out the two may part; no later step undoes the count.
  have halike := (ht fun _ => True).hold_alike (o := .sharing company) (u := .recording)
    (L := fun shared => shared.pool.tally.timeouts ≠ 0)
    (fun command shared hlate hnone => hlate
      (Nat.eq_zero_of_le_zero (hnone ▸ (Outlet.sharing_later company command shared).timeouts)))
    (fun command shared record hcommand hstep => AgreesWithRecord.submit hstep hcommand)
    (Settings.agreesWithRecord_sharedPool hs first plan)
  rw [← hcalls, ← hcalls] at halike
  obtain ⟨hsame, hstep⟩ := halike.resolve_left (not_not_intro htimely)
  obtain ⟨hprocessor, hreplies⟩ := Prod.mk.inj hsame
  have hrunning : Running first [] [] commands loop shared.sink.pool := hstep.running
  have hinOrder := hrunning
  obtain ⟨_, _, horder⟩ := hinOrder
  obtain ⟨inHand, _, queued, _, _, _, hcommands⟩ := horder.progress
  refine ⟨hprocessor, hreplies, ⟨inHand ++ queued, ?_⟩, horder.renderer,
    loop.rank shared.sink.pool, fun m hm => ?_⟩
  · rw [← List.append_assoc]
    exact hcommands
  · have hlast := hrunning.steps (fun _ hnone => absurd hnone List.not_mem_nil) m
    have hrank := hrunning.rank_steps m
    obtain ⟨hexecuted, hrenderer, hclaims⟩ := hlast.finished (by rw [hrank]; omega)
    refine ⟨hexecuted, hrenderer, ?_, List.isEmpty_iff.mpr hclaims⟩
    rw [hrenderer]
    exact first.decodeErrors_foldl commands

/-- The loop holds the first command when the host is done. -/
theorem serveAll_renders_record_threeShapes :
    let s : Settings := { ringBytes := 8200 }
    let first : Renderer :=
      { device := .ofSpec { width := 4, height := 4 }
        textures := { budget := 16, maxEntries := 0 }
        programs := { accuracy := .fast, capabilities := .all }
        reader := { narrowing := .nearest }
        screenWidth := 4
        screenHeight := 4 }
    let calls : List HostCall := [.notify 16 4, .run ListProcessor.threeShapesRam 0, .endFrame]
    let shared := ((start { budget := 4 } (s.sharedPool first [0, 0, 0, 0, 1])).serveAll
      (.sharing company) calls).sink
    let commands := ((start { budget := 4 } ({} : Recording)).serveAll .recording
      calls).sink.attempts.toList.map (·.command)
    s.validate = .ok () ∧ shared.pool.tally.timeouts = 0 ∧
      commands.map (·.kind) = [.invalidateRange, .fillRects, .endFrame] ∧
      shared.company.1.stage.remaining = 4 ∧
      ∃ n, ∀ m, n ≤ m → (steps m (shared.company.1, shared.pool)).1.executed = commands := by
  intro s first calls shared commands
  have hs : s.validate = .ok () := by decide +kernel
  have htimely : shared.pool.tally.timeouts = 0 := by decide +kernel
  obtain ⟨-, -, -, -, n, hlast⟩ := serveAll_renders_record hs first { budget := 4 } calls
    [0, 0, 0, 0, 1] htimely
  exact ⟨hs, htimely, by decide +kernel, by decide +kernel, n, fun m hm => (hlast m hm).1⟩

end Hosting

end DisplayPipeline
