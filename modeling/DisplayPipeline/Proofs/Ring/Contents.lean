import DisplayPipeline.Proofs.Ring.Arena
import DisplayPipeline.Proofs.Ring.Invariant

/-!
# The bytes of the claims

What was written to a claim stays in the arena until the claim is released, whatever happens to the
others: the claims lie apart, and a write stays within the bytes asked for. `contents` tells for each
ticket what was written to each byte, if anything was.
-/

namespace DisplayPipeline

/-- What was last written to each byte of each claim. -/
abbrev Contents := Nat → List (Option UInt8)

def Contents.assign (contents : Contents) (ticket : Nat) (bytes : List (Option UInt8)) : Contents :=
  fun other => if other = ticket then bytes else contents other

theorem Contents.assign_same (contents : Contents) (ticket : Nat) (bytes : List (Option UInt8)) :
    contents.assign ticket bytes ticket = bytes :=
  if_pos rfl

theorem Contents.assign_other {contents : Contents} {ticket other : Nat}
    {bytes : List (Option UInt8)} (h : other ≠ ticket) :
    contents.assign ticket bytes other = contents other :=
  if_neg h

def Contents.put (contents : Contents) (ticket : Nat) (bytes : List UInt8) : Contents :=
  contents.assign ticket (bytes.map some ++ (contents ticket).drop bytes.length)

theorem Contents.put_other {contents : Contents} {ticket other : Nat} {bytes : List UInt8}
    (h : other ≠ ticket) : contents.put ticket bytes other = contents other :=
  Contents.assign_other h

/-- The bytes of a claim are those that were written to it. -/
def Claim.Carries (c : Claim) (arena : ByteArray) (bytes : List (Option UInt8)) : Prop :=
  bytes.length = c.size ∧
    ∀ (i : Nat) (byte : UInt8), bytes[i]? = some (some byte) →
      arena.data.toList[c.offset + i]? = some byte

namespace Pool

/-- Rounding a request up stays below `wordLimit`, or it stops beyond the capacity. -/
def Measures (p : Pool) (bytes : Nat) : Prop :=
  bytes + alignment ≤ wordLimit ∨ p.capacity + alignment < wordLimit

/-- What holds of a pool and of the record of what was written. -/
structure StoresContents (p : Pool) (contents : Contents) : Prop where
  invariant : p.Invariant
  arena : p.arena.size = p.capacity
  size : ∀ c ∈ p.claims, c.size ≤ c.rounded
  carries : ∀ c ∈ p.claims, c.state ≠ .released → c.Carries p.arena (contents c.seq)

theorem storesContents_ofCapacity (bytes patience : Nat) (contents : Contents) :
    (ofCapacity bytes patience).StoresContents contents where
  invariant := invariant_ofCapacity bytes patience
  arena := by simp [ofCapacity, ByteArray.size]
  size := by simp [ofCapacity]
  carries := by simp [ofCapacity]

section Split

variable {p : Pool} {cs ds : List Claim} {c : Claim}

private theorem seq_of_split (hp : p.Invariant) (h : p.claims = cs ++ c :: ds) :
    c.seq + p.claims.length = p.nextSeq + cs.length :=
  hp.seq cs.length c (by rw [h, List.getElem?_append_right (Nat.le_refl _)]; simp)

theorem seq_lt (hp : p.Invariant) {d : Claim} (hd : d ∈ p.claims) : d.seq < p.nextSeq := by
  obtain ⟨cs, ds, hsplit⟩ := List.append_of_mem hd
  have hseq := seq_of_split hp hsplit
  have hlen := congrArg List.length hsplit
  simp only [List.length_append, List.length_cons] at hlen
  omega

theorem seq_nodup (hp : p.Invariant) : (p.claims.map (·.seq)).Nodup :=
  seqs_of_invariant hp ▸ List.nodup_range'

theorem seq_ne_of_split (hp : p.Invariant) (h : p.claims = cs ++ c :: ds) {d : Claim}
    (hd : d ∈ cs ++ ds) : d.seq ≠ c.seq := by
  have hnodup := seq_nodup hp
  rw [h, List.map_append, List.map_cons, List.perm_middle.nodup_iff, List.nodup_cons,
    ← List.map_append] at hnodup
  intro heq
  exact hnodup.1 (heq ▸ List.mem_map_of_mem hd)

theorem mem_of_split (h : p.claims = cs ++ c :: ds) {d : Claim} (hd : d ∈ p.claims) :
    d = c ∨ d ∈ cs ++ ds := by
  rw [h] at hd
  simp only [List.mem_append, List.mem_cons] at hd ⊢
  rcases hd with hd | rfl | hd
  · exact Or.inr (Or.inl hd)
  · exact Or.inl rfl
  · exact Or.inr (Or.inr hd)

theorem live?_of_split (hp : p.Invariant) (h : p.claims = cs ++ c :: ds)
    (hstate : c.state ≠ .released) : p.live? (.ofClaim c) = some (cs.length, c) := by
  have hget : p.claims[cs.length]? = some c := by
    rw [h, List.getElem?_append_right (Nat.le_refl _)]
    simp
  have hlen : cs.length < p.claims.length := (List.getElem?_eq_some_iff.mp hget).1
  have hindex : p.index? c.seq = some cs.length := by
    unfold index?
    split
    · next hnil => simp [hnil] at hlen
    · next oldest rest hclaims =>
      have hfirst := seq_of_split hp (show p.claims = [] ++ oldest :: rest from hclaims)
      have hseq := seq_of_split hp h
      simp only [List.length_nil] at hfirst
      rw [if_pos ⟨by omega, by omega⟩]
      congr 1
      omega
  simp [live?, ClaimPointer.ofClaim, hindex, hget, hstate]

theorem writable?_of_split (hp : p.Invariant) (h : p.claims = cs ++ c :: ds)
    (hstate : c.state = .allocated) : p.writable? (.ofClaim c) = some (cs.length, c) := by
  rw [writable?, live?_of_split hp h (by simp [hstate])]
  simp [hstate]

theorem setState_of_split (h : p.claims = cs ++ c :: ds) (state : ClaimState) :
    (p.setState cs.length c state).claims = cs ++ { c with state } :: ds := by
  rw [setState, h, List.set_append_right _ _ (Nat.le_refl _), Nat.sub_self, List.set_cons_zero]

private theorem apart_of_split (hp : p.Invariant) (h : p.claims = cs ++ c :: ds) {d : Claim}
    (hd : d ∈ cs ++ ds) :
    c.offset + c.rounded ≤ d.offset ∨ d.offset + d.rounded ≤ c.offset := by
  have hpairs := List.pairwise_map.mp hp.layout.apart
  rw [h, List.pairwise_append, List.pairwise_cons] at hpairs
  rcases List.mem_append.mp hd with hd | hd
  · exact (hpairs.2.2 d hd c List.mem_cons_self).symm
  · exact hpairs.2.1.1 d hd

end Split

section Put

variable {p : Pool} {contents : Contents} {cs ds : List Claim} {c : Claim} {bytes : List UInt8}

private theorem StoresContents.within (h : p.StoresContents contents)
    (hsplit : p.claims = cs ++ c :: ds) :
    c.offset + c.size ≤ p.arena.size := by
  have hc : c ∈ p.claims := by
    rw [hsplit]
    simp
  have hend := h.invariant.layout.within _ (List.mem_map_of_mem hc)
  have hsize := h.size c hc
  rw [h.arena]
  simp only [Extent.stop, Claim.extent] at hend
  omega

theorem StoresContents.put (h : p.StoresContents contents) (hsplit : p.claims = cs ++ c :: ds)
    (hstate : c.state = .allocated) (hlen : bytes.length ≤ c.size) :
    (p.putAt c.offset bytes).StoresContents (contents.put c.seq bytes) := by
  have hwithin := h.within hsplit
  have hfit : c.offset + bytes.length ≤ p.arena.size := by omega
  have hi := h.invariant
  refine ⟨⟨hi.layout, hi.start, hi.rounded, hi.seq, hi.inUse, hi.highWater, hi.cursor, hi.passed,
    hi.ahead⟩, (size_put hfit).trans h.arena, h.size, ?_⟩
  intro d hd hheld
  obtain ⟨hdlen, hdbytes⟩ := h.carries d hd hheld
  rcases mem_of_split hsplit hd with rfl | hother
  · -- The claim that is written to has the new bytes at its start.
    rw [Contents.put, Contents.assign_same]
    refine ⟨by simp only [List.length_append, List.length_map, List.length_drop]; omega, ?_⟩
    intro i byte hbyte
    simp only [putAt, getElem?_put hfit]
    by_cases hlt : i < bytes.length
    · rw [if_pos ⟨by omega, by omega⟩, Nat.add_sub_cancel_left]
      rw [List.getElem?_append_left (by simpa using hlt), List.getElem?_map] at hbyte
      simpa using hbyte
    · rw [if_neg (by omega)]
      rw [List.getElem?_append_right (by simpa using hlt), List.length_map,
        List.getElem?_drop, Nat.add_sub_cancel' (Nat.le_of_not_lt hlt)] at hbyte
      exact hdbytes i byte hbyte
  · rw [Contents.put_other (seq_ne_of_split hi hsplit hother)]
    refine ⟨hdlen, ?_⟩
    intro i byte hbyte
    have hlt : i < d.size := hdlen ▸ (List.getElem?_eq_some_iff.mp hbyte).1
    have hapart := apart_of_split hi hsplit hother
    have hcsize := h.size c (by rw [hsplit]; simp)
    have hdsize := h.size d hd
    simp only [putAt, getElem?_put hfit]
    rw [if_neg (by omega)]
    exact hdbytes i byte hbyte

private theorem checkRequest_size {rounded size : Nat} (hmeasures : p.Measures size)
    (hcheck : p.checkRequest size = .ok rounded) : size ≤ rounded := by
  unfold Measures at hmeasures
  have hle := (checkRequest_ok hcheck).2.2
  simp only [checkRequest] at hcheck
  split at hcheck
  · cases hcheck
  · obtain rfl := Except.ok.inj hcheck
    have hwide : alignment = 4 := rfl
    rcases alignUp_cases (max size 1) with ⟨_, hround⟩ | ⟨_, hround⟩
    · omega
    · -- A size that cannot be rounded up is beyond every capacity.
      omega

theorem StoresContents.claimAt {size rounded offset : Nat} (h : p.StoresContents contents)
    (hmeasures : p.Measures size) (hcheck : p.checkRequest size = .ok rounded)
    (hfit : p.fit? rounded = some offset) :
    (p.claimAt size rounded offset).1.StoresContents
      (contents.assign p.nextSeq (.replicate size none)) where
  invariant := claimAt_invariant h.invariant hcheck hfit
  arena := h.arena
  size := by
    intro c hc
    rcases List.mem_append.mp hc with hc | hc
    · exact h.size c hc
    · obtain rfl := List.mem_singleton.mp hc
      exact checkRequest_size hmeasures hcheck
  carries := by
    intro c hc hheld
    rcases List.mem_append.mp hc with hc | hc
    · rw [Contents.assign_other (Nat.ne_of_lt (seq_lt h.invariant hc))]
      exact h.carries c hc hheld
    · obtain rfl := List.mem_singleton.mp hc
      rw [Contents.assign_same]
      refine ⟨List.length_replicate, ?_⟩
      intro i byte hbyte
      obtain ⟨_, hnone⟩ := List.getElem?_eq_some_iff.mp hbyte
      simp at hnone

theorem StoresContents.mark {k : Nat} {state : ClaimState} (h : p.StoresContents contents)
    (hsplit : p.claims = cs ++ c :: ds) (hstate : c.state ≠ .released)
    (hi : ({ p.setState cs.length c state with cursor := k } : Pool).Invariant) :
    ({ p.setState cs.length c state with cursor := k } : Pool).StoresContents contents := by
  have hentry (d : Claim) (hd : d ∈ (p.setState cs.length c state).claims) :
      d ∈ p.claims ∨ d = { c with state } := by
    rw [setState_of_split hsplit] at hd
    rw [hsplit]
    simp only [List.mem_append, List.mem_cons] at hd ⊢
    rcases hd with hd | rfl | hd
    · exact Or.inl (Or.inl hd)
    · exact Or.inr rfl
    · exact Or.inl (Or.inr (Or.inr hd))
  have hc : c ∈ p.claims := by
    rw [hsplit]
    simp
  refine ⟨hi, h.arena, ?_, ?_⟩
  · intro d hd
    rcases hentry d hd with hd | rfl
    · exact h.size d hd
    · exact h.size c hc
  · intro d hd hheld
    rcases hentry d hd with hd | rfl
    · exact h.carries d hd hheld
    · exact h.carries c hc hstate

theorem StoresContents.reclaim (h : p.StoresContents contents) :
    p.reclaim.StoresContents contents := by
  have hinvariant := reclaim_invariant h.invariant
  obtain ⟨freed, _, ⟨hall, hreclaim⟩ | ⟨oldest, rest, hsplit, _, hreclaim⟩⟩ := reclaim_cases p
  · rw [hreclaim] at hinvariant ⊢
    exact ⟨hinvariant, h.arena, by simp, by simp⟩
  · rw [hreclaim] at hinvariant ⊢
    have hsub (d : Claim) (hd : d ∈ oldest :: rest) : d ∈ p.claims := by
      rw [hsplit]
      exact List.mem_append_right _ hd
    exact ⟨hinvariant, h.arena, fun d hd => h.size d (hsub d hd),
      fun d hd => h.carries d (hsub d hd)⟩

/-- A claim that is not released gives its size in bytes, among them all that were written. -/
theorem StoresContents.read (h : p.StoresContents contents) (hsplit : p.claims = cs ++ c :: ds)
    (hstate : c.state ≠ .released) :
    ∃ read, p.read (.ofClaim c) = .ok read ∧ read.length = (contents c.seq).length ∧
      ∀ (i : Nat) (byte : UInt8), (contents c.seq)[i]? = some (some byte) →
        read[i]? = some byte := by
  obtain ⟨hlen, hbytes⟩ := h.carries c (by rw [hsplit]; simp) hstate
  refine ⟨(p.arena.extract c.offset (c.offset + c.size)).toList, ?_, ?_, ?_⟩
  · rw [Pool.read, live?_of_split h.invariant hsplit hstate]
    rfl
  · rw [length_extract (h.within hsplit), hlen]
  · intro i byte hbyte
    have hlt : i < c.size := hlen ▸ (List.getElem?_eq_some_iff.mp hbyte).1
    rw [getElem?_extract hlt]
    exact hbytes i byte hbyte

end Put

end Pool

end DisplayPipeline
