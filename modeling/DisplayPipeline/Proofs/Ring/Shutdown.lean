import DisplayPipeline.Proofs.Ring.Contents

/-!
# What a closed pool still hands out

A consumer that is told that a closed pool has no claim for it stops asking. Claims that were
submitted and not handed out by then are exactly those behind an older claim that nobody submitted.
-/

namespace DisplayPipeline

inductive ClaimEvent where
  | allocated (seq : Nat)
  | submitted (seq : Nat)
  | delivered (seq : Nat)
  /-- Given back, by whoever had a pointer to it. -/
  | returned (seq : Nat)
deriving DecidableEq

namespace ClaimEvent

def seq : ClaimEvent → Nat
  | allocated n | submitted n | delivered n | returned n => n

/-- The claim waits to be submitted or given back. -/
def Unfinished (past : List ClaimEvent) (n : Nat) : Prop :=
  .allocated n ∈ past ∧ .submitted n ∉ past ∧ .returned n ∉ past

/-- The claim was submitted and waits to be handed out. -/
def Outstanding (past : List ClaimEvent) (n : Nat) : Prop :=
  .submitted n ∈ past ∧ .delivered n ∉ past ∧ .returned n ∉ past

instance (past : List ClaimEvent) (n : Nat) : Decidable (Outstanding past n) :=
  inferInstanceAs (Decidable (_ ∧ _ ∧ _))

end ClaimEvent

namespace Pool

open ClaimEvent

section Events

def submitEvents (p : Pool) (pointer : ClaimPointer) : List ClaimEvent :=
  match (p.submit pointer).2 with
  | .ok () => [.submitted pointer.seq]
  | .error _ => []

def releaseEvents (p : Pool) (pointer : ClaimPointer) : List ClaimEvent :=
  match (p.release pointer).2 with
  | .ok () => [.returned pointer.seq]
  | .error _ => []

/-- A claim whose bytes do not go in is given back. -/
def commitEvents (p : Pool) (pointer : ClaimPointer) (bytes : List UInt8) : List ClaimEvent :=
  match p.write pointer bytes with
  | (written, .ok ()) => written.submitEvents pointer
  | (same, .error _) => same.releaseEvents pointer

def allocateEvents (p : Pool) (bytes : Nat) : List ClaimEvent :=
  match (p.allocate bytes).2 with
  | .ok pointer => [.allocated pointer.seq]
  | .error _ => []

def pushEvents (p : Pool) (bytes : List UInt8) : List ClaimEvent :=
  match p.allocate bytes.length with
  | (claimed, .ok pointer) => .allocated pointer.seq :: claimed.commitEvents pointer bytes
  | (_, .error _) => []

/-- What happens to claims when something is asked of a pool. -/
def events (p : Pool) : PoolCall → List ClaimEvent
  | .allocate bytes => p.allocateEvents bytes
  | .submit pointer => p.submitEvents pointer
  | .commit pointer bytes => p.commitEvents pointer bytes
  | .push bytes => p.pushEvents bytes
  | .next => (p.next.2.map fun pointer => .delivered pointer.seq).toList
  | .release pointer => p.releaseEvents pointer
  | .write _ _ | .read _ | .close => []

def history (p : Pool) : List PoolCall → List ClaimEvent
  | [] => []
  | call :: calls => p.events call ++ (p.serve call).history calls

private theorem history_append (p : Pool) (calls more : List PoolCall) :
    p.history (calls ++ more) = p.history calls ++ (p.serveAll calls).history more := by
  induction calls generalizing p with
  | nil => rfl
  | cons call calls ih =>
    show p.events call ++ (p.serve call).history (calls ++ more) = _
    rw [ih, ← List.append_assoc]
    rfl

end Events

def Has (p : Pool) (n : Nat) (state : ClaimState) : Prop :=
  ∃ c ∈ p.claims, c.seq = n ∧ c.state = state

section Has

variable {p q : Pool} {n i : Nat} {c : Claim} {state other : ClaimState}

theorem has_congr (h : q.claims = p.claims) : q.Has n state ↔ p.Has n state := by
  rw [Has, Has, h]

theorem has_claimAt (p : Pool) (bytes rounded offset : Nat) :
    (p.claimAt bytes rounded offset).1.Has n state ↔
      p.Has n state ∨ (n = p.nextSeq ∧ state = .allocated) := by
  simp only [Has, claimAt, List.mem_append, List.mem_singleton, or_and_right, exists_or,
    exists_eq_left, eq_comm]

theorem has_setState (hp : p.Invariant) (hc : p.claims[i]? = some c) :
    (p.setState i c other).Has n state ↔
      (n = c.seq ∧ state = other) ∨ (n ≠ c.seq ∧ p.Has n state) := by
  obtain ⟨cs, ds, hsplit, rfl⟩ : ∃ cs ds, p.claims = cs ++ c :: ds ∧ cs.length = i := by
    obtain ⟨hi, hget⟩ := List.getElem?_eq_some_iff.mp hc
    exact ⟨p.claims.take i, p.claims.drop (i + 1),
      by rw [← hget, List.getElem_cons_drop, List.take_append_drop], by simp; omega⟩
  have hne (d : Claim) (hd : d ∈ cs ++ ds) : d.seq ≠ c.seq := seq_ne_of_split hp hsplit hd
  have hclaims := setState_of_split hsplit other
  constructor
  · rintro ⟨d, hd, rfl, rfl⟩
    rw [hclaims] at hd
    simp only [List.mem_append, List.mem_cons] at hd
    rcases hd with hd | rfl | hd
    · exact Or.inr ⟨hne d (by simp [hd]), d, by simp [hsplit, hd], rfl, rfl⟩
    · exact Or.inl ⟨rfl, rfl⟩
    · exact Or.inr ⟨hne d (by simp [hd]), d, by simp [hsplit, hd], rfl, rfl⟩
  · rintro (⟨rfl, rfl⟩ | ⟨hother, d, hd, rfl, rfl⟩)
    · exact ⟨{ c with state }, by rw [hclaims]; simp, rfl, rfl⟩
    · rcases mem_of_split hsplit hd with rfl | hd
      · exact absurd rfl hother
      · refine ⟨d, ?_, rfl, rfl⟩
        rw [hclaims]
        rcases List.mem_append.mp hd with hd | hd <;> simp [hd]

theorem has_reclaim (p : Pool) (hstate : state ≠ .released) :
    p.reclaim.Has n state ↔ p.Has n state := by
  obtain ⟨freed, hfreed, hcases⟩ := p.reclaim_cases
  have hnone (d : Claim) (hd : d ∈ freed) : ¬ (d.seq = n ∧ d.state = state) := by
    rintro ⟨-, rfl⟩
    exact hstate (hfreed d hd)
  have hrest (rest : List Claim) (hsplit : p.claims = freed ++ rest)
      (hclaims : p.reclaim.claims = rest) : p.reclaim.Has n state ↔ p.Has n state := by
    simp only [Has, hclaims, hsplit, List.mem_append]
    constructor
    · rintro ⟨d, hd, hsame⟩
      exact ⟨d, Or.inr hd, hsame⟩
    · rintro ⟨d, hd | hd, hsame⟩
      · exact absurd hsame (hnone d hd)
      · exact ⟨d, hd, hsame⟩
  rcases hcases with ⟨hall, hreclaim⟩ | ⟨oldest, rest, hsplit, _, hreclaim⟩
  · exact hrest [] (by simp [hall]) (by rw [hreclaim])
  · exact hrest _ hsplit (by rw [hreclaim])

theorem seq_of_index? {seq : Nat} (hp : p.Invariant) (hindex : p.index? seq = some i)
    (hc : p.claims[i]? = some c) : c.seq = seq := by
  unfold index? at hindex
  split at hindex
  · cases hindex
  · next oldest rest hclaims =>
    split at hindex
    · next hwithin =>
      have hfirst := hp.seq 0 oldest (by rw [hclaims]; rfl)
      have hthis := hp.seq i c hc
      cases hindex
      omega
    · cases hindex

private theorem lt_of_seq_lt {j : Nat} {d : Claim} (hp : p.Invariant) (hc : p.claims[i]? = some c)
    (hd : p.claims[j]? = some d) : c.seq < d.seq ↔ i < j := by
  have hci := hp.seq i c hc
  have hdj := hp.seq j d hd
  omega

end Has

section Asking

variable {p : Pool}

/-- A claim is handed out if everything older was handed out or given back. None is handed out if
every claim that is ready has an older one that is not. -/
theorem next_told (hp : p.Invariant) :
    ((∃ k, p.next = ({ p with cursor := k }, none)) ∧
      ∀ n, p.Has n .submitted → ∃ older < n, p.Has older .allocated) ∨
    (∃ k c, p.claims[k]? = some c ∧ c.state = .submitted ∧
      p.next = ({ p.setState k c .consumed with cursor := k + 1 }, some (.ofClaim c)) ∧
      ∀ older < c.seq, ¬ p.Has older .submitted ∧ ¬ p.Has older .allocated) := by
  obtain ⟨k, hfrom, -, hskipped, hnext⟩ := next_cases p hp.cursor
  have hgone (i : Nat) (c : Claim) (hc : p.claims[i]? = some c) (hi : i < k) :
      c.state = .consumed ∨ c.state = .released := by
    rcases Nat.lt_or_ge i p.cursor with hlow | hhigh
    · exact hp.passed i c hc hlow
    · exact Or.inr (hskipped i c hc hhigh hi)
  rcases hnext with ⟨hend, hnone⟩ | ⟨c, hc, hheld, hunready, hnone⟩ | ⟨c, hc, hready, hsome⟩
  · refine Or.inl ⟨⟨k, hnone⟩, ?_⟩
    rintro n ⟨d, hd, -, hstate⟩
    obtain ⟨i, hi⟩ := List.mem_iff_getElem?.mp hd
    have hlt := (List.getElem?_eq_some_iff.mp hi).1
    have := hgone i d hi (by omega)
    simp [hstate] at this
  · refine Or.inl ⟨⟨k, hnone⟩, ?_⟩
    rintro n ⟨d, hd, rfl, hstate⟩
    obtain ⟨i, hi⟩ := List.mem_iff_getElem?.mp hd
    -- What the consumer stopped at was not handed out, so that it is still being filled.
    have hallocated : c.state = .allocated := by
      have hahead := hp.ahead k c hc hfrom
      cases hc : c.state <;> simp_all
    refine ⟨c.seq, (lt_of_seq_lt hp hc hi).mpr ?_, c, List.mem_of_getElem? hc, rfl, hallocated⟩
    rcases Nat.lt_trichotomy i k with hlt | rfl | hgt
    · have := hgone i d hi hlt
      simp [hstate] at this
    · rw [hc] at hi
      cases hi
      exact absurd hstate hunready
    · exact hgt
  · refine Or.inr ⟨k, c, hc, hready, hsome, fun older holder => ?_⟩
    have hno (state : ClaimState) (hstate : state ≠ .consumed ∧ state ≠ .released) :
        ¬ p.Has older state := by
      rintro ⟨d, hd, rfl, rfl⟩
      obtain ⟨i, hi⟩ := List.mem_iff_getElem?.mp hd
      rcases hgone i d hi ((lt_of_seq_lt hp hi hc).mp holder) with hgone | hgone
      · exact hstate.1 hgone
      · exact hstate.2 hgone
    exact ⟨hno _ (by decide), hno _ (by decide)⟩

private theorem answer?_of_none (h : p.next.2 = none) :
    p.answer? = some none ↔ p.isClosed = true := by
  simp [answer?, h]

private theorem answer?_of_some {pointer : ClaimPointer} (h : p.next.2 = some pointer) :
    p.answer? = some (some pointer) := by
  simp [answer?, h]

private theorem answer?_eq_none_iff (hp : p.Invariant) : p.answer? = some none ↔
    p.isClosed = true ∧ ∀ n, p.Has n .submitted → ∃ older < n, p.Has older .allocated := by
  rcases next_told hp with ⟨⟨k, hnone⟩, hheld⟩ | ⟨k, c, hc, hready, hsome, hfirst⟩
  · rw [answer?_of_none (by rw [hnone]), and_iff_left hheld]
  · rw [answer?_of_some (by rw [hsome])]
    constructor
    · nofun
    · rintro ⟨-, hheld⟩
      obtain ⟨older, holder, hfilling⟩ := hheld c.seq ⟨c, List.mem_of_getElem? hc, rfl, hready⟩
      exact absurd hfilling (hfirst older holder).2

private theorem answer?_eq_some {pointer : ClaimPointer} (hp : p.Invariant)
    (h : p.answer? = some (some pointer)) : p.Has pointer.seq .submitted ∧
      ∀ older < pointer.seq, ¬ p.Has older .submitted ∧ ¬ p.Has older .allocated := by
  rcases next_told hp with ⟨⟨k, hnone⟩, -⟩ | ⟨k, c, hc, hready, hsome, hfirst⟩
  · simp [answer?, hnone] at h
  · rw [answer?_of_some (by rw [hsome])] at h
    cases h
    exact ⟨⟨c, List.mem_of_getElem? hc, rfl, hready⟩, hfirst⟩

end Asking

/-- The events of calls tell which claims are being filled and which wait to be handed out. -/
structure Recalls (p : Pool) (past : List ClaimEvent) : Prop where
  invariant : p.Invariant
  unfinished : ∀ n, p.Has n .allocated ↔ Unfinished past n
  outstanding : ∀ n, p.Has n .submitted ↔ Outstanding past n
  known : ∀ event ∈ past, event.seq < p.nextSeq
  inOrder : ∀ n, .delivered n ∈ past → .submitted n ∈ past

section Recalls

variable {p q : Pool} {past : List ClaimEvent}

private theorem recalls_ofCapacity (bytes patience : Nat) : (ofCapacity bytes patience).Recalls
    [] where
  invariant := invariant_ofCapacity bytes patience
  unfinished n := by simp [Has, ofCapacity, Unfinished]
  outstanding n := by simp [Has, ofCapacity, Outstanding]
  known := by simp
  inOrder := by simp

private theorem Recalls.congr (h : p.Recalls past) (hq : q.Invariant)
    (hclaims : q.claims = p.claims) (hnext : q.nextSeq = p.nextSeq) : q.Recalls past where
  invariant := hq
  unfinished n := (has_congr hclaims).trans (h.unfinished n)
  outstanding n := (has_congr hclaims).trans (h.outstanding n)
  known := hnext ▸ h.known
  inOrder := h.inOrder

private theorem Recalls.concat (h : p.Recalls past) {event : ClaimEvent} (hq : q.Invariant)
    (hnext : p.nextSeq ≤ q.nextSeq) (hknown : event.seq < q.nextSeq)
    (hunfinished : ∀ n, q.Has n .allocated ↔ Unfinished (past ++ [event]) n)
    (houtstanding : ∀ n, q.Has n .submitted ↔ Outstanding (past ++ [event]) n)
    (horder : ∀ n, event = .delivered n → .submitted n ∈ past) :
    q.Recalls (past ++ [event]) where
  invariant := hq
  unfinished := hunfinished
  outstanding := houtstanding
  known := by
    intro other hother
    rcases List.mem_append.mp hother with hother | hother
    · exact Nat.lt_of_lt_of_le (h.known other hother) hnext
    · rw [List.mem_singleton.mp hother]
      exact hknown
  inOrder := by
    intro n hn
    rcases List.mem_append.mp hn with hn | hn
    · exact List.mem_append_left _ (h.inOrder n hn)
    · exact List.mem_append_left _ (horder n (List.mem_singleton.mp hn).symm)

private theorem Recalls.allocate (h : p.Recalls past) (bytes : Nat) :
    (p.allocate bytes).1.Recalls (past ++ p.allocateEvents bytes) := by
  have hafter := allocate_invariant h.invariant bytes
  rw [allocateEvents]
  rcases p.allocate_cases bytes with ⟨rounded, offset, -, -, -, hallocate⟩ |
    ⟨_, _, _, _, hallocate⟩ | ⟨_, _, _, hallocate⟩ | ⟨_, hallocate⟩
  · rw [hallocate] at hafter ⊢
    -- Nothing has happened to a claim with the next number.
    have hnew (event : ClaimEvent) (hevent : event ∈ past) : event.seq ≠ p.nextSeq :=
      Nat.ne_of_lt (h.known event hevent)
    have hsubmitted : .submitted p.nextSeq ∉ past := fun hmem => hnew _ hmem rfl
    have hreturned : .returned p.nextSeq ∉ past := fun hmem => hnew _ hmem rfl
    refine h.concat hafter (Nat.le_succ _) (Nat.lt_succ_self _) (fun n => ?_) (fun n => ?_) nofun
    · rw [has_claimAt, h.unfinished]
      by_cases hn : n = p.nextSeq
      · simp [hn, Unfinished, claimAt, ClaimPointer.ofClaim, hsubmitted, hreturned]
      · simp [hn, Unfinished, claimAt, ClaimPointer.ofClaim]
    · rw [has_claimAt, h.outstanding]
      simp [Outstanding]
  · rw [hallocate] at hafter ⊢
    rw [List.append_nil]
    exact h.congr hafter rfl rfl
  · rw [hallocate, List.append_nil]
    exact h
  · rw [hallocate, List.append_nil]
    exact h

private theorem Recalls.submit (h : p.Recalls past) (pointer : ClaimPointer) :
    (p.submit pointer).1.Recalls (past ++ p.submitEvents pointer) := by
  have hafter := submit_invariant h.invariant pointer
  rw [submitEvents]
  rw [Pool.submit] at hafter ⊢
  cases hfound : p.writable? pointer with
  | none =>
    rw [List.append_nil]
    exact h
  | some found =>
    obtain ⟨i, c⟩ := found
    obtain ⟨hlive, hallocated⟩ := writable?_eq_some hfound
    obtain ⟨-, hindex, hc, -, -, -⟩ := live?_eq_some hlive
    have hseq : c.seq = pointer.seq := seq_of_index? h.invariant hindex hc
    have hfilling : Unfinished past c.seq :=
      (h.unfinished _).mp ⟨c, List.mem_of_getElem? hc, rfl, hallocated⟩
    have hbelow : c.seq < p.nextSeq := h.known _ hfilling.1
    have hundelivered : .delivered c.seq ∉ past := fun hmem => hfilling.2.1 (h.inOrder _ hmem)
    rw [hfound] at hafter
    dsimp only at hafter ⊢
    rw [← hseq]
    refine h.concat hafter (Nat.le_refl _) hbelow (fun n => ?_) (fun n => ?_) nofun
    · rw [has_setState h.invariant hc, h.unfinished]
      simp [Unfinished]
      tauto
    · rw [has_setState h.invariant hc, h.outstanding]
      by_cases hn : n = c.seq
      · simp [hn, Outstanding, hundelivered, hfilling.2.2]
      · simp [hn, Outstanding]

private theorem Recalls.release (h : p.Recalls past) (pointer : ClaimPointer) :
    (p.release pointer).1.Recalls (past ++ p.releaseEvents pointer) := by
  have hafter := release_invariant h.invariant pointer
  rw [releaseEvents]
  rw [Pool.release] at hafter ⊢
  cases hfound : p.live? pointer with
  | none =>
    rw [List.append_nil]
    exact h
  | some found =>
    obtain ⟨i, c⟩ := found
    obtain ⟨-, hindex, hc, -, -, -⟩ := live?_eq_some hfound
    have hseq : c.seq = pointer.seq := seq_of_index? h.invariant hindex hc
    rw [hfound] at hafter
    dsimp only at hafter ⊢
    rw [← hseq]
    have hnext : (p.setState i c .released).reclaim.nextSeq = p.nextSeq := by
      obtain ⟨_, -, ⟨-, hreclaim⟩ | ⟨_, _, -, -, hreclaim⟩⟩ :=
        (p.setState i c .released).reclaim_cases <;> rw [hreclaim] <;> rfl
    have hbelow : c.seq < p.nextSeq := seq_lt h.invariant (List.mem_of_getElem? hc)
    refine h.concat hafter hnext.ge (hnext ▸ hbelow) (fun n => ?_) (fun n => ?_) nofun
    · rw [has_reclaim _ (by decide), has_setState h.invariant hc, h.unfinished]
      simp [Unfinished]
      tauto
    · rw [has_reclaim _ (by decide), has_setState h.invariant hc, h.outstanding]
      simp [Outstanding]
      tauto

private theorem Recalls.write (h : p.Recalls past) (pointer : ClaimPointer) (bytes : List UInt8) :
    (p.write pointer bytes).1.Recalls past := by
  have hafter := write_invariant h.invariant pointer bytes
  rcases p.write_cases pointer bytes with ⟨_, _, _, _, hwrite⟩ | ⟨_, hwrite⟩ | ⟨_, _, hwrite⟩
  · rw [hwrite] at hafter ⊢
    exact h.congr hafter rfl rfl
  · exact hwrite ▸ h
  · exact hwrite ▸ h

private theorem Recalls.commit (h : p.Recalls past) (pointer : ClaimPointer) (bytes : List UInt8) :
    (p.commit pointer bytes).1.Recalls (past ++ p.commitEvents pointer bytes) := by
  have hwritten := h.write pointer bytes
  rw [Pool.commit, commitEvents]
  cases hwrite : p.write pointer bytes with
  | mk written result =>
    rw [hwrite] at hwritten
    cases result with
    | error cause => exact hwritten.release pointer
    | ok _ => exact hwritten.submit pointer

private theorem Recalls.push (h : p.Recalls past) (bytes : List UInt8) :
    (p.push bytes).1.Recalls (past ++ p.pushEvents bytes) := by
  have hclaimed := h.allocate bytes.length
  rw [Pool.push, pushEvents]
  rw [allocateEvents] at hclaimed
  cases hallocate : p.allocate bytes.length with
  | mk claimed result =>
    rw [hallocate] at hclaimed
    cases result with
    | error cause => exact hclaimed
    | ok pointer =>
      have hcommitted := hclaimed.commit pointer bytes
      rw [List.append_assoc] at hcommitted
      exact hcommitted

private theorem Recalls.next (h : p.Recalls past) :
    p.next.1.Recalls (past ++ (p.next.2.map fun pointer => .delivered pointer.seq).toList) := by
  have hafter := next_invariant h.invariant
  rcases next_told h.invariant with ⟨⟨k, hnone⟩, -⟩ | ⟨k, c, hc, hready, hsome, -⟩
  · rw [hnone] at hafter ⊢
    rw [Option.map_none, Option.toList_none, List.append_nil]
    exact h.congr hafter rfl rfl
  · rw [hsome] at hafter ⊢
    have houtstanding : Outstanding past c.seq :=
      (h.outstanding _).mp ⟨c, List.mem_of_getElem? hc, rfl, hready⟩
    have hbelow : c.seq < p.nextSeq := h.known _ houtstanding.1
    have hclaims : ({ p.setState k c .consumed with cursor := k + 1 } : Pool).claims =
        (p.setState k c .consumed).claims := rfl
    refine h.concat hafter (Nat.le_refl _) hbelow (fun n => ?_) (fun n => ?_) ?_
    · rw [has_congr hclaims, has_setState h.invariant hc, h.unfinished]
      by_cases hn : n = c.seq
      · simp [hn, Unfinished, ClaimPointer.ofClaim, houtstanding.1]
      · simp [hn, Unfinished, ClaimPointer.ofClaim]
    · rw [has_congr hclaims, has_setState h.invariant hc, h.outstanding]
      simp [Outstanding, ClaimPointer.ofClaim]
      tauto
    · rintro n ⟨⟩
      exact houtstanding.1

private theorem Recalls.serve (h : p.Recalls past) (call : PoolCall) :
    (p.serve call).Recalls (past ++ p.events call) := by
  have hafter := serve_invariant h.invariant call
  cases call with
  | allocate bytes => exact h.allocate bytes
  | submit pointer => exact h.submit pointer
  | commit pointer bytes => exact h.commit pointer bytes
  | push bytes => exact h.push bytes
  | next => exact h.next
  | release pointer => exact h.release pointer
  | read _ | close =>
    rw [events, List.append_nil]
    exact h.congr hafter rfl rfl
  | write pointer bytes =>
    rw [events, List.append_nil]
    exact h.write pointer bytes

private theorem Recalls.serveAll (h : p.Recalls past) (calls : List PoolCall) :
    (p.serveAll calls).Recalls (past ++ p.history calls) := by
  induction calls generalizing p past with
  | nil =>
    rw [history, List.append_nil]
    exact h
  | cons call calls ih =>
    rw [history, ← List.append_assoc]
    exact ih (h.serve call)

end Recalls

section Closing

variable {p : Pool} {past : List ClaimEvent}

/-- Closed, and no claim is being filled any more. -/
def Sealed (p : Pool) : Prop := p.isClosed = true ∧ ∀ n, ¬ p.Has n .allocated

def SealedSince (p q : Pool) : Prop :=
  q.Sealed ∧ ∀ n, q.Has n .submitted → p.Has n .submitted

private theorem Sealed.self (h : p.Sealed) : p.SealedSince p := ⟨h, fun _ hn => hn⟩

private theorem SealedSince.trans {q r : Pool} (h : p.SealedSince q) (h' : q.SealedSince r) :
    p.SealedSince r :=
  ⟨h'.1, fun n hn => h.2 n (h'.2 n hn)⟩

private theorem Sealed.writable?_eq_none (h : p.Sealed) (pointer : ClaimPointer) :
    p.writable? pointer = none := by
  cases hfound : p.writable? pointer with
  | none => rfl
  | some found =>
    obtain ⟨hlive, hallocated⟩ := writable?_eq_some hfound
    obtain ⟨-, -, hc, -⟩ := live?_eq_some hlive
    exact absurd ⟨_, List.mem_of_getElem? hc, rfl, hallocated⟩ (h.2 _)

private theorem Sealed.allocate (h : p.Sealed) (bytes : Nat) :
    ∃ cause, p.allocate bytes = (p, .error cause) := by
  rcases p.allocate_cases bytes with ⟨_, _, _, hopen, _⟩ | ⟨_, _, hopen, _⟩ |
    ⟨_, _, _, hallocate⟩ | ⟨_, hallocate⟩
  · simp [h.1] at hopen
  · simp [h.1] at hopen
  · exact ⟨_, hallocate⟩
  · exact ⟨_, hallocate⟩

private theorem Sealed.write (h : p.Sealed) (pointer : ClaimPointer) (bytes : List UInt8) :
    ∃ cause, p.write pointer bytes = (p, .error cause) := by
  rcases p.write_cases pointer bytes with ⟨_, _, hfound, _⟩ | ⟨_, hwrite⟩ | ⟨_, _, hwrite⟩
  · rw [h.writable?_eq_none] at hfound
    cases hfound
  · exact ⟨_, hwrite⟩
  · exact ⟨_, hwrite⟩

private theorem Sealed.setState {i : Nat} {c : Claim} {state : ClaimState} (h : p.Sealed)
    (hp : p.Invariant) (hc : p.claims[i]? = some c) (hallocated : state ≠ .allocated)
    (hsubmitted : state ≠ .submitted) : p.SealedSince (p.setState i c state) := by
  refine ⟨⟨h.1, fun n hn => ?_⟩, fun n hn => ?_⟩
  · rcases (has_setState hp hc).mp hn with ⟨-, hsame⟩ | ⟨-, hn⟩
    · exact hallocated hsame.symm
    · exact h.2 n hn
  · rcases (has_setState hp hc).mp hn with ⟨-, hsame⟩ | ⟨-, hn⟩
    · exact absurd hsame.symm hsubmitted
    · exact hn

private theorem Sealed.reclaim (h : p.Sealed) : p.SealedSince p.reclaim := by
  have hclosed : p.reclaim.isClosed = p.isClosed := by
    obtain ⟨_, -, ⟨-, hreclaim⟩ | ⟨_, _, -, -, hreclaim⟩⟩ := p.reclaim_cases <;> rw [hreclaim]
  exact ⟨⟨hclosed.trans h.1, fun n hn => h.2 n ((has_reclaim p (by decide)).mp hn)⟩,
    fun n hn => (has_reclaim p (by decide)).mp hn⟩

private theorem Sealed.release (h : p.Sealed) (hp : p.Invariant) (pointer : ClaimPointer) :
    p.SealedSince (p.release pointer).1 := by
  rw [Pool.release]
  cases hfound : p.live? pointer with
  | none => exact h.self
  | some found =>
    obtain ⟨-, -, hc, -⟩ := live?_eq_some hfound
    have hmarked : p.SealedSince (p.setState _ _ .released) :=
      h.setState hp hc (by decide) (by decide)
    exact hmarked.trans hmarked.1.reclaim

private theorem Sealed.next (h : p.Sealed) (hp : p.Invariant) : p.SealedSince p.next.1 := by
  rcases next_told hp with ⟨⟨k, hnone⟩, -⟩ | ⟨k, c, hc, -, hsome, -⟩
  · rw [hnone]
    exact ⟨⟨h.1, h.2⟩, fun n hn => hn⟩
  · rw [hsome]
    have hmarked : p.SealedSince (p.setState k c .consumed) :=
      h.setState hp hc (by decide) (by decide)
    exact ⟨⟨h.1, hmarked.1.2⟩, hmarked.2⟩

/-- Once no claim is being filled, a closed pool takes nothing more. -/
theorem Sealed.serve (h : p.Sealed) (hp : p.Invariant) (call : PoolCall) :
    p.SealedSince (p.serve call) := by
  cases call with
  | allocate bytes =>
    obtain ⟨cause, hallocate⟩ := h.allocate bytes
    rw [Pool.serve, hallocate]
    exact h.self
  | write pointer bytes =>
    obtain ⟨cause, hwrite⟩ := h.write pointer bytes
    rw [Pool.serve, hwrite]
    exact h.self
  | submit pointer =>
    rw [Pool.serve, Pool.submit, h.writable?_eq_none]
    exact h.self
  | commit pointer bytes =>
    obtain ⟨cause, hwrite⟩ := h.write pointer bytes
    rw [Pool.serve, Pool.commit, hwrite]
    exact h.release hp pointer
  | push bytes =>
    obtain ⟨cause, hallocate⟩ := h.allocate bytes.length
    rw [Pool.serve, Pool.push, hallocate]
    exact h.self
  | next => exact h.next hp
  | read pointer => exact h.self
  | release pointer => exact h.release hp pointer
  | close => exact ⟨⟨rfl, h.2⟩, fun n hn => hn⟩

private theorem Sealed.serveAll (h : p.Sealed) (hp : p.Invariant) (calls : List PoolCall) :
    p.SealedSince (p.serveAll calls) := by
  induction calls generalizing p with
  | nil => exact h.self
  | cons call calls ih =>
    have hafter := h.serve hp call
    exact hafter.trans (ih hafter.1 (serve_invariant hp call))

/-- A consumer of a closed pool is told that there is nothing exactly if every claim that waits to be
handed out has an older one that is still being filled; otherwise it is given the oldest of those
that wait. Where none is being filled, no claim becomes ready any more, whatever is asked. -/
theorem serveAll_drained_iff (bytes patience : Nat) (calls : List PoolCall) :
    let p := (ofCapacity bytes patience).serveAll calls
    let past := (ofCapacity bytes patience).history calls
    (p.answer? = some none ↔ p.isClosed = true ∧
      ∀ n, Outstanding past n → ∃ older < n, Unfinished past older) ∧
    (∀ pointer, p.answer? = some (some pointer) → Outstanding past pointer.seq ∧
      ∀ older < pointer.seq, ¬ Outstanding past older ∧ ¬ Unfinished past older) ∧
    (p.isClosed = true → (∀ n, ¬ Unfinished past n) → ∀ more,
      let later := (ofCapacity bytes patience).history (calls ++ more)
      (∀ n, ¬ Unfinished later n) ∧ ∀ n, Outstanding later n → Outstanding past n) := by
  intro p past
  have hrecalls : p.Recalls past := by
    have hall := (recalls_ofCapacity bytes patience).serveAll calls
    rwa [List.nil_append] at hall
  refine ⟨?_, ?_, ?_⟩
  · rw [answer?_eq_none_iff hrecalls.invariant]
    simp only [hrecalls.unfinished, hrecalls.outstanding]
  · intro pointer hpointer
    have hgiven := answer?_eq_some hrecalls.invariant hpointer
    simpa only [hrecalls.unfinished, hrecalls.outstanding] using hgiven
  · intro hclosed hfinished more later
    have hsealed : p.Sealed := ⟨hclosed, fun n hn => hfinished n ((hrecalls.unfinished n).mp hn)⟩
    have hsince := hsealed.serveAll hrecalls.invariant more
    have hlater : (p.serveAll more).Recalls later := by
      have hall := hrecalls.serveAll more
      rwa [← history_append] at hall
    exact ⟨fun n hn => hsince.1.2 n ((hlater.unfinished n).mpr hn), fun n hn =>
      (hrecalls.outstanding n).mp (hsince.2 n ((hlater.outstanding n).mpr hn))⟩

/-- A consumer that is told that there is nothing more has been given all that was submitted. -/
def LosesNothing (bytes patience : Nat) (calls : List PoolCall) : Prop :=
  ((ofCapacity bytes patience).serveAll calls).answer? = some none →
    ∀ n, ¬ Outstanding ((ofCapacity bytes patience).history calls) n

/-- A claim that is still being filled when the pool is closed holds back the one behind it. -/
theorem heldBack_not_losesNothing :
    ¬ LosesNothing 64 0 [.allocate 4, .push [1, 2, 3, 4], .close] := by
  intro hnothing
  exact hnothing (by decide +kernel) 1 (by decide +kernel)

end Closing

end Pool

end DisplayPipeline
