import DisplayPipeline.Proofs.Ring.Shutdown

/-!
# Which pointers a pool accepts

A pointer is a plain value: it may be the one that was handed out, a copy that outlived its claim, or
made up. A pool accepts it while it names a claim that is held and not given back. Numbers are never
used again, so that no pointer is accepted once its claim was given back, even where another claim
has the same bytes by then.
-/

namespace DisplayPipeline.Pool

open ClaimEvent

/-- The claim is held and not given back, and the pointer tells its number, offset and size. -/
structure NamedBy (c : Claim) (p : Pool) (pointer : ClaimPointer) : Prop where
  held : c ∈ p.claims
  kept : c.state ≠ .released
  valid : pointer.valid = true
  seq : c.seq = pointer.seq
  offset : c.offset = pointer.offset
  size : c.size = pointer.size

/-- The pointer names a claim that is held and not given back. -/
def Names (p : Pool) (pointer : ClaimPointer) : Prop := ∃ c, NamedBy c p pointer

def NamesUnsubmitted (p : Pool) (pointer : ClaimPointer) : Prop :=
  ∃ c, NamedBy c p pointer ∧ c.state = .allocated

/-- What is asked is done under a condition. Otherwise it is refused, and the pool stays as it is. -/
structure DoneIf {α : Type} (p : Pool) (condition : Prop) (answer : Pool × Except PoolError α) :
    Prop where
  done : condition → ∃ result, answer.2 = .ok result
  refused : ¬ condition → ∃ cause, answer = (p, .error cause)

section Looking

variable {p : Pool} {pointer : ClaimPointer} {i : Nat} {c : Claim}

private theorem namedBy_of_live? (hp : p.Invariant) (h : p.live? pointer = some (i, c)) :
    NamedBy c p pointer := by
  obtain ⟨hvalid, hindex, hc, hoffset, hsize, hstate⟩ := live?_eq_some h
  exact ⟨List.mem_of_getElem? hc, hstate, hvalid, seq_of_index? hp hindex hc, hoffset, hsize⟩

private theorem live?_congr {other : ClaimPointer} (hvalid : other.valid = pointer.valid)
    (hseq : other.seq = pointer.seq) (hoffset : other.offset = pointer.offset)
    (hsize : other.size = pointer.size) : p.live? other = p.live? pointer := by
  rw [live?, live?, hvalid, hseq, hoffset, hsize]

private theorem NamedBy.live? (hp : p.Invariant) (h : NamedBy c p pointer) :
    ∃ i, p.live? pointer = some (i, c) := by
  obtain ⟨cs, ds, hsplit⟩ := List.append_of_mem h.held
  have hsame : p.live? (.ofClaim c) = p.live? pointer :=
    live?_congr h.valid.symm h.seq h.offset h.size
  exact ⟨cs.length, hsame ▸ live?_of_split hp hsplit h.kept⟩

private theorem live?_isSome_iff (hp : p.Invariant) :
    (p.live? pointer).isSome ↔ p.Names pointer := by
  rw [Option.isSome_iff_exists]
  constructor
  · rintro ⟨⟨i, c⟩, hfound⟩
    exact ⟨c, namedBy_of_live? hp hfound⟩
  · rintro ⟨c, hnamed⟩
    obtain ⟨i, hfound⟩ := hnamed.live? hp
    exact ⟨_, hfound⟩

private theorem writable?_isSome_iff (hp : p.Invariant) :
    (p.writable? pointer).isSome ↔ p.NamesUnsubmitted pointer := by
  rw [Option.isSome_iff_exists]
  constructor
  · rintro ⟨⟨i, c⟩, hfound⟩
    obtain ⟨hlive, hallocated⟩ := writable?_eq_some hfound
    exact ⟨c, namedBy_of_live? hp hlive, hallocated⟩
  · rintro ⟨c, hnamed, hallocated⟩
    obtain ⟨i, hfound⟩ := hnamed.live? hp
    exact ⟨(i, c), by simp [writable?, hfound, hallocated]⟩

private theorem live?_eq_none (hp : p.Invariant) (h : ¬ p.Names pointer) :
    p.live? pointer = none := by
  rwa [← live?_isSome_iff hp, Option.not_isSome_iff_eq_none] at h

private theorem writable?_eq_none (hp : p.Invariant) (h : ¬ p.NamesUnsubmitted pointer) :
    p.writable? pointer = none := by
  rwa [← writable?_isSome_iff hp, Option.not_isSome_iff_eq_none] at h

end Looking

section Answers

variable {p : Pool} (hp : p.Invariant) (pointer : ClaimPointer)
include hp

private theorem write_doneIf (bytes : List UInt8) :
    p.DoneIf (p.NamesUnsubmitted pointer ∧ bytes.length ≤ pointer.size)
      (p.write pointer bytes) where
  done := by
    rintro ⟨hnamed, hlength⟩
    have hfound := (writable?_isSome_iff hp).mpr hnamed
    rcases p.write_cases pointer bytes with ⟨_, _, _, _, hwrite⟩ | ⟨hlong, _⟩ | ⟨hnone, _, _⟩
    · exact ⟨(), by rw [hwrite]⟩
    · omega
    · simp [hnone] at hfound
  refused := by
    intro hnot
    rcases p.write_cases pointer bytes with ⟨i, c, hfound, hlength, _⟩ | ⟨_, hwrite⟩ |
      ⟨_, _, hwrite⟩
    · have hnamed := (writable?_isSome_iff hp).mp (Option.isSome_iff_exists.mpr ⟨_, hfound⟩)
      exact absurd ⟨hnamed, hlength⟩ hnot
    · exact ⟨_, hwrite⟩
    · exact ⟨_, hwrite⟩

private theorem submit_doneIf : p.DoneIf (p.NamesUnsubmitted pointer) (p.submit pointer) where
  done := by
    intro hnamed
    obtain ⟨found, hfound⟩ := Option.isSome_iff_exists.mp ((writable?_isSome_iff hp).mpr hnamed)
    exact ⟨(), by rw [submit, hfound]⟩
  refused := by
    intro hnot
    exact ⟨_, by rw [submit, writable?_eq_none hp hnot]⟩

private theorem release_doneIf : p.DoneIf (p.Names pointer) (p.release pointer) where
  done := by
    intro hnamed
    obtain ⟨found, hfound⟩ := Option.isSome_iff_exists.mp ((live?_isSome_iff hp).mpr hnamed)
    exact ⟨(), by rw [release, hfound]⟩
  refused := by
    intro hnot
    exact ⟨_, by rw [release, live?_eq_none hp hnot]⟩

private theorem read_doneIf : p.DoneIf (p.Names pointer) (p, p.read pointer) where
  done := by
    intro hnamed
    obtain ⟨found, hfound⟩ := Option.isSome_iff_exists.mp ((live?_isSome_iff hp).mpr hnamed)
    exact ⟨_, by rw [read, hfound]; rfl⟩
  refused := by
    intro hnot
    exact ⟨_, by rw [read, live?_eq_none hp hnot]; rfl⟩

end Answers

private theorem allocate_refused {p : Pool} {bytes : Nat} {cause : PoolError}
    (h : (p.allocate bytes).2 = .error cause) :
    ∃ waits timeouts,
      (p.allocate bytes).1 = { p with tally.waits := waits, tally.timeouts := timeouts } := by
  rcases p.allocate_cases bytes with ⟨_, _, _, _, _, hallocate⟩ | ⟨_, _, _, _, hallocate⟩ |
    ⟨_, _, _, hallocate⟩ | ⟨_, hallocate⟩
  · rw [hallocate] at h
    cases h
  · exact ⟨_, _, by rw [hallocate]⟩
  · exact ⟨p.tally.waits, p.tally.timeouts, by rw [hallocate]⟩
  · exact ⟨p.tally.waits, p.tally.timeouts, by rw [hallocate]⟩

/-- The claim with a number was allocated, and it is given back. -/
def Gone (p : Pool) (n : Nat) : Prop :=
  n < p.nextSeq ∧ ∀ state, state ≠ .released → ¬ p.Has n state

section Gone

variable {p q : Pool} {n i : Nat} {c : Claim} {state : ClaimState}

private theorem Gone.not_names {pointer : ClaimPointer} (h : p.Gone pointer.seq) :
    ¬ p.Names pointer := by
  rintro ⟨c, hnamed⟩
  exact h.2 c.state hnamed.kept ⟨c, hnamed.held, hnamed.seq, rfl⟩

private theorem Gone.congr (h : p.Gone n) (hclaims : q.claims = p.claims)
    (hnext : q.nextSeq = p.nextSeq) : q.Gone n :=
  ⟨hnext ▸ h.1, fun state hstate hhas => h.2 state hstate ((has_congr hclaims).mp hhas)⟩

private theorem Gone.seq_ne (h : p.Gone n) (hc : p.claims[i]? = some c)
    (hheld : c.state ≠ .released) :
    n ≠ c.seq := by
  rintro rfl
  exact h.2 c.state hheld ⟨c, List.mem_of_getElem? hc, rfl, rfl⟩

private theorem Gone.setState (h : p.Gone n) (hp : p.Invariant) (hc : p.claims[i]? = some c)
    (hheld : c.state ≠ .released) : (p.setState i c state).Gone n := by
  refine ⟨h.1, fun other hother hhas => ?_⟩
  rcases (has_setState hp hc).mp hhas with ⟨hn, -⟩ | ⟨-, hhas⟩
  · exact h.seq_ne hc hheld hn
  · exact h.2 other hother hhas

theorem gone_setState_released (hp : p.Invariant) (hc : p.claims[i]? = some c) :
    (p.setState i c .released).Gone c.seq := by
  refine ⟨seq_lt hp (List.mem_of_getElem? hc), fun other hother hhas => ?_⟩
  rcases (has_setState hp hc).mp hhas with ⟨-, hsame⟩ | ⟨hne, -⟩
  · exact hother hsame
  · exact hne rfl

private theorem nextSeq_reclaim (p : Pool) : p.reclaim.nextSeq = p.nextSeq := by
  obtain ⟨_, -, ⟨-, hreclaim⟩ | ⟨_, _, -, -, hreclaim⟩⟩ := p.reclaim_cases <;> rw [hreclaim]

theorem Gone.reclaim (h : p.Gone n) : p.reclaim.Gone n :=
  ⟨(nextSeq_reclaim p).symm ▸ h.1,
    fun state hstate hhas => h.2 state hstate ((has_reclaim p hstate).mp hhas)⟩

private theorem Gone.allocate (h : p.Gone n) (bytes : Nat) : (p.allocate bytes).1.Gone n := by
  rcases p.allocate_cases bytes with ⟨rounded, offset, -, -, -, hallocate⟩ |
    ⟨_, _, _, _, hallocate⟩ | ⟨_, _, _, hallocate⟩ | ⟨_, hallocate⟩
  · rw [hallocate]
    refine ⟨Nat.lt_succ_of_lt h.1, fun state hstate hhas => ?_⟩
    rcases (has_claimAt p bytes rounded offset).mp hhas with hhas | ⟨hnew, -⟩
    · exact h.2 state hstate hhas
    · exact Nat.ne_of_lt h.1 hnew
  · exact hallocate ▸ h.congr rfl rfl
  · exact hallocate ▸ h
  · exact hallocate ▸ h

private theorem Gone.write (h : p.Gone n) (pointer : ClaimPointer) (bytes : List UInt8) :
    (p.write pointer bytes).1.Gone n := by
  rcases p.write_cases pointer bytes with ⟨_, _, _, _, hwrite⟩ | ⟨_, hwrite⟩ | ⟨_, _, hwrite⟩
  · exact hwrite ▸ h.congr rfl rfl
  · exact hwrite ▸ h
  · exact hwrite ▸ h

private theorem Gone.submit (h : p.Gone n) (hp : p.Invariant) (pointer : ClaimPointer) :
    (p.submit pointer).1.Gone n := by
  rw [Pool.submit]
  cases hfound : p.writable? pointer with
  | none => exact h
  | some found =>
    obtain ⟨-, -, hc, -, -, hheld⟩ := live?_eq_some (writable?_eq_some hfound).1
    exact h.setState hp hc hheld

private theorem Gone.release (h : p.Gone n) (hp : p.Invariant) (pointer : ClaimPointer) :
    (p.release pointer).1.Gone n := by
  rw [Pool.release]
  cases hfound : p.live? pointer with
  | none => exact h
  | some found =>
    obtain ⟨-, -, hc, -, -, hheld⟩ := live?_eq_some hfound
    exact (h.setState hp hc hheld).reclaim

private theorem Gone.commit (h : p.Gone n) (hp : p.Invariant) (pointer : ClaimPointer)
    (bytes : List UInt8) : (p.commit pointer bytes).1.Gone n := by
  have hwritten := h.write pointer bytes
  have hafter := write_invariant hp pointer bytes
  rw [Pool.commit]
  cases hwrite : p.write pointer bytes with
  | mk written result =>
    rw [hwrite] at hwritten hafter
    cases result with
    | error cause => exact hwritten.release hafter pointer
    | ok _ => exact hwritten.submit hafter pointer

private theorem Gone.push (h : p.Gone n) (hp : p.Invariant) (bytes : List UInt8) :
    (p.push bytes).1.Gone n := by
  have hclaimed := h.allocate bytes.length
  have hafter := allocate_invariant hp bytes.length
  rw [Pool.push]
  cases hallocate : p.allocate bytes.length with
  | mk claimed result =>
    rw [hallocate] at hclaimed hafter
    cases result with
    | error cause => exact hclaimed
    | ok pointer => exact hclaimed.commit hafter pointer bytes

private theorem Gone.next (h : p.Gone n) (hp : p.Invariant) : p.next.1.Gone n := by
  rcases next_told hp with ⟨⟨k, hnone⟩, -⟩ | ⟨k, c, hc, hready, hsome, -⟩
  · rw [hnone]
    exact h.congr rfl rfl
  · rw [hsome]
    have hmarked : (p.setState k c .consumed).Gone n := h.setState hp hc (by simp [hready])
    exact hmarked.congr rfl rfl

/-- What is given back stays so, whatever is asked with whatever pointer. -/
theorem Gone.serve (h : p.Gone n) (hp : p.Invariant) (call : PoolCall) : (p.serve call).Gone n := by
  cases call with
  | allocate bytes => exact h.allocate bytes
  | write pointer bytes => exact h.write pointer bytes
  | submit pointer => exact h.submit hp pointer
  | commit pointer bytes => exact h.commit hp pointer bytes
  | push bytes => exact h.push hp bytes
  | next => exact h.next hp
  | read pointer => exact h
  | release pointer => exact h.release hp pointer
  | close => exact h.congr rfl rfl

private theorem Gone.serveAll (h : p.Gone n) (hp : p.Invariant) (calls : List PoolCall) :
    (p.serveAll calls).Gone n := by
  induction calls generalizing p with
  | nil => exact h
  | cons call calls ih => exact ih (h.serve hp call) (serve_invariant hp call)

private theorem gone_of_releaseEvents {pointer : ClaimPointer} (hp : p.Invariant)
    (h : .returned n ∈ p.releaseEvents pointer) : (p.release pointer).1.Gone n := by
  rw [releaseEvents] at h
  rw [Pool.release] at h ⊢
  cases hfound : p.live? pointer with
  | none => simp [hfound] at h
  | some found =>
    obtain ⟨-, hindex, hc, -, -, -⟩ := live?_eq_some hfound
    have hn : n = found.2.seq := by
      rw [seq_of_index? hp hindex hc]
      simpa [hfound] using h
    exact hn ▸ (gone_setState_released hp hc).reclaim

private theorem gone_of_commitEvents {pointer : ClaimPointer} {bytes : List UInt8}
    (hp : p.Invariant)
    (h : .returned n ∈ p.commitEvents pointer bytes) : (p.commit pointer bytes).1.Gone n := by
  have hafter := write_invariant hp pointer bytes
  rw [commitEvents] at h
  rw [Pool.commit]
  cases hwrite : p.write pointer bytes with
  | mk written result =>
    rw [hwrite] at h hafter
    cases result with
    | error cause => exact gone_of_releaseEvents hafter h
    | ok _ =>
      simp only [submitEvents] at h
      split at h <;> simp at h

private theorem gone_of_pushEvents {bytes : List UInt8} (hp : p.Invariant)
    (h : .returned n ∈ p.pushEvents bytes) : (p.push bytes).1.Gone n := by
  have hafter := allocate_invariant hp bytes.length
  rw [pushEvents] at h
  rw [Pool.push]
  cases hallocate : p.allocate bytes.length with
  | mk claimed result =>
    rw [hallocate] at h hafter
    cases result with
    | error cause => simp at h
    | ok pointer =>
      simp only [List.mem_cons, reduceCtorEq, false_or] at h
      exact gone_of_commitEvents hafter h

private theorem gone_of_events {call : PoolCall} (hp : p.Invariant)
    (h : .returned n ∈ p.events call) :
    (p.serve call).Gone n := by
  cases call with
  | release pointer => exact gone_of_releaseEvents hp h
  | commit pointer bytes => exact gone_of_commitEvents hp h
  | push bytes => exact gone_of_pushEvents hp h
  | allocate bytes =>
    simp only [events, allocateEvents] at h
    split at h <;> simp at h
  | submit pointer =>
    simp only [events, submitEvents] at h
    split at h <;> simp at h
  | next => simp [events] at h
  | write _ _ | read _ | close => simp [events] at h

private theorem gone_of_history {calls : List PoolCall} (hp : p.Invariant)
    (h : .returned n ∈ p.history calls) : (p.serveAll calls).Gone n := by
  induction calls generalizing p with
  | nil => simp [history] at h
  | cons call calls ih =>
    have hafter := serve_invariant hp call
    rcases List.mem_append.mp h with hnow | hlater
    · exact (gone_of_events hp hnow).serveAll hafter calls
    · exact ih hafter hlater

end Gone

/-- After any calls, a pool does what it is asked with a pointer exactly if the pointer names a claim
that is held and not given back, and for writing and submitting one that is not submitted; else it
refuses and stays as it is. A claim that was given back is never named again. A request for a claim
that is refused changes counts only. -/
theorem serveAll_acceptsNamed (bytes patience : Nat) (calls : List PoolCall) :
    let p := (ofCapacity bytes patience).serveAll calls
    (∀ pointer,
      (∀ data, p.DoneIf (p.NamesUnsubmitted pointer ∧ data.length ≤ pointer.size)
        (p.write pointer data)) ∧
      p.DoneIf (p.NamesUnsubmitted pointer) (p.submit pointer) ∧
      p.DoneIf (p.Names pointer) (p.release pointer) ∧
      p.DoneIf (p.Names pointer) (p, p.read pointer)) ∧
    (∀ n, .returned n ∈ (ofCapacity bytes patience).history calls →
      ∀ more pointer, pointer.seq = n → ¬ (p.serveAll more).Names pointer) ∧
    (∀ request cause, (p.allocate request).2 = .error cause →
      ∃ waits timeouts,
        (p.allocate request).1 = { p with tally.waits := waits, tally.timeouts := timeouts }) := by
  intro p
  have hnew := invariant_ofCapacity bytes patience
  have hp : p.Invariant := serveAll_invariant hnew calls
  refine ⟨fun pointer => ⟨?_, ?_, ?_, ?_⟩, ?_, fun request cause => allocate_refused⟩
  · exact write_doneIf hp pointer
  · exact submit_doneIf hp pointer
  · exact release_doneIf hp pointer
  · exact read_doneIf hp pointer
  · rintro n hreturned more pointer rfl
    exact ((gone_of_history hnew hreturned).serveAll hp more).not_names

/-- Another claim may have the very bytes that a claim had which was given back. Its pointer is
accepted, and the old one is not. -/
theorem serveAll_acceptsNamed_sameBytes :
    let p := (ofCapacity 16 0).serveAll [.allocate 8, .release ⟨0, 8, 8, true, 0⟩, .allocate 8]
    .returned 0 ∈ (ofCapacity 16 0).history
        [.allocate 8, .release ⟨0, 8, 8, true, 0⟩, .allocate 8] ∧
      p.Names ⟨0, 8, 8, true, 1⟩ ∧
      ∀ more, ¬ (p.serveAll more).Names ⟨0, 8, 8, true, 0⟩ := by
  intro p
  have hreturned : .returned 0 ∈ (ofCapacity 16 0).history
      [.allocate 8, .release ⟨0, 8, 8, true, 0⟩, .allocate 8] := by decide +kernel
  have hnamed : p.Names ⟨0, 8, 8, true, 1⟩ := by
    refine ⟨⟨1, 0, 8, 8, .allocated⟩, ?_, by decide, rfl, rfl, rfl, rfl⟩
    decide +kernel
  exact ⟨hreturned, hnamed, fun more =>
    (serveAll_acceptsNamed 16 0 _).2.1 0 hreturned more _ rfl⟩

end DisplayPipeline.Pool
