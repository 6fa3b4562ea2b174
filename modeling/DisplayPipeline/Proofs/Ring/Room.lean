import DisplayPipeline.Proofs.Ring.Later
import DisplayPipeline.Proofs.Ring.Pointers
import DisplayPipeline.Proofs.Ring.Traffic

/-!
# Giving back makes room

Whatever claim is given back, oldest or not, a claim that fits before still fits afterwards, although
the bytes in use may start elsewhere and stop being wrapped. Once every claim was given back, in
whatever order, the pool is as empty as a new one, and whatever it can ever hold fits at its start.
-/

namespace DisplayPipeline

namespace Layout

variable {capacity start stop : Nat} {wrapped : Bool} {xs : List Extent}

private theorem start_le (h : Layout capacity start stop wrapped xs) : start ≤ capacity := by
  cases h with
  | straight hrun hcap _ => exact Nat.le_trans (Extent.endToEnd_le hrun) hcap
  | wrapped _ _ holder hcap _ _ => exact Nat.le_trans (Extent.endToEnd_le holder) hcap

private theorem start_le_offset (h : Layout capacity start stop false xs) :
    ∀ x ∈ xs, start ≤ x.offset := by
  cases h with
  | straight hrun _ _ => exact fun x hx => (Extent.endToEnd_within hrun x hx).1

private theorem eq_empty (h : Layout capacity start stop wrapped []) :
    start = 0 ∧ stop = 0 ∧ wrapped = false := by
  generalize hxs : ([] : List Extent) = xs at h
  cases h with
  | straight hrun _ hstart =>
    subst hxs
    have hzero := hstart rfl
    exact ⟨hzero, (hrun : start = stop) ▸ hzero, rfl⟩
  | wrapped hne _ _ _ _ _ => exact absurd (List.append_eq_nil_iff.mp hxs.symm).1 hne

end Layout

namespace Pool

/-- A claim of so many bytes fits now. -/
def HasRoom (p : Pool) (rounded : Nat) : Prop := ∃ offset, p.fit? rounded = some offset

/-- A request for so many bytes is granted now. -/
def Grants (p : Pool) (request : Nat) : Prop := ∃ pointer, (p.allocate request).2 = .ok pointer

section Room

variable {p : Pool} {rounded : Nat}

private theorem hasRoom_iff : p.HasRoom rounded ↔
    if p.claims = [] then rounded ≤ p.capacity
    else if p.wrapped then p.stop + rounded ≤ p.start
    else p.stop + rounded ≤ p.capacity ∨ rounded ≤ p.start := by
  unfold HasRoom fit?
  simp only [List.isEmpty_iff]
  split_ifs <;> simp_all

private theorem HasRoom.le_capacity (h : p.HasRoom rounded) (hp : p.Invariant) :
    rounded ≤ p.capacity := by
  have hstart := hp.layout.start_le
  rw [hasRoom_iff] at h
  split_ifs at h <;> omega

private theorem hasRoom_setState (i : Nat) (c : Claim) (state : ClaimState) :
    (p.setState i c state).HasRoom rounded ↔ p.HasRoom rounded := by
  simp only [hasRoom_iff, setState, List.set_eq_nil_iff]

/-- Space that becomes free at the front is added to what was free, unless the older run of claims
is gone with it: then the newer one has all that lies behind it. -/
theorem HasRoom.reclaim (h : p.HasRoom rounded) (hp : p.Invariant) :
    p.reclaim.HasRoom rounded := by
  have hcapacity := h.le_capacity hp
  obtain ⟨freed, -, ⟨-, hreclaim⟩ | ⟨oldest, rest, hsplit, -, hreclaim⟩⟩ := p.reclaim_cases
  · rw [hreclaim, hasRoom_iff, if_pos rfl]
    exact hcapacity
  · have hlayout := hp.layout
    have hstart := hlayout.start_le
    rw [hasRoom_iff, if_neg (by simp [hsplit])] at h
    rw [hreclaim, hasRoom_iff, if_neg (List.cons_ne_nil _ _)]
    dsimp only
    cases hwrapped : p.wrapped with
    | false =>
      rw [hwrapped] at h hlayout
      have hbehind := hlayout.start_le_offset oldest.extent (by simp [hsplit])
      simp only [Bool.false_and, Bool.false_eq_true, if_false] at h ⊢
      exact h.imp_right fun hfront => Nat.le_trans hfront hbehind
    | true =>
      rw [hwrapped, if_pos rfl] at h
      by_cases hbehind : p.start ≤ oldest.offset
      · simp only [hbehind, decide_true, Bool.and_true, if_true]
        exact Nat.le_trans h hbehind
      · simp only [hbehind, decide_false, Bool.and_false, Bool.false_eq_true, if_false]
        exact Or.inl (Nat.le_trans h hstart)

private theorem HasRoom.release (h : p.HasRoom rounded) (hp : p.Invariant)
    (pointer : ClaimPointer) :
    (p.release pointer).1.HasRoom rounded := by
  unfold Pool.release
  cases hfound : p.live? pointer with
  | none => exact h
  | some found =>
    obtain ⟨i, c⟩ := found
    obtain ⟨-, -, hc, -⟩ := live?_eq_some hfound
    have hmarked : (p.setState i c .released).Invariant :=
      setState_invariant hp hc (fun _ => Or.inr rfl) (by simp)
    exact ((hasRoom_setState i c .released).mpr h).reclaim hmarked

private theorem grants_iff {request : Nat} : p.Grants request ↔
    ∃ rounded, p.checkRequest request = .ok rounded ∧ p.isClosed = false ∧ p.HasRoom rounded := by
  constructor
  · rintro ⟨pointer, hpointer⟩
    rcases p.allocate_cases request with ⟨rounded, offset, hcheck, hopen, hfit, -⟩ |
      ⟨_, _, _, _, hallocate⟩ | ⟨_, _, _, hallocate⟩ | ⟨_, hallocate⟩
    · exact ⟨rounded, hcheck, hopen, offset, hfit⟩
    all_goals
      rw [hallocate] at hpointer
      cases hpointer
  · rintro ⟨rounded, hcheck, hopen, offset, hfit⟩
    exact ⟨(p.claimAt request rounded offset).2, by simp [allocate, hcheck, hopen, hfit]⟩

private theorem Grants.release {request : Nat} (h : p.Grants request) (hp : p.Invariant)
    (pointer : ClaimPointer) : (p.release pointer).1.Grants request := by
  obtain ⟨rounded, hcheck, hopen, hroom⟩ := grants_iff.mp h
  rw [grants_iff, (p.release_later pointer).checkRequest, isClosed_release]
  exact ⟨rounded, hcheck, hopen, hroom.release hp pointer⟩

end Room

private def Trimmed (p : Pool) : Prop := ∀ c, p.claims.head? = some c → c.state ≠ .released

section Trimmed

variable {p : Pool}

private theorem trimmed_reclaim (p : Pool) : p.reclaim.Trimmed := reclaim_oldest p

private theorem Trimmed.setState {state : ClaimState} (h : p.Trimmed) (hstate : state ≠ .released)
    (i : Nat) (c : Claim) : (p.setState i c state).Trimmed := by
  intro d hd
  rw [List.head?_eq_getElem?] at hd
  rcases getElem?_setState hd with ⟨-, rfl⟩ | ⟨-, hd⟩
  · exact hstate
  · exact h d (by rwa [List.head?_eq_getElem?])

private theorem Trimmed.allocate (h : p.Trimmed) (bytes : Nat) : (p.allocate bytes).1.Trimmed := by
  rcases p.allocate_cases bytes with ⟨rounded, offset, -, -, -, hallocate⟩ |
    ⟨_, _, _, _, hallocate⟩ | ⟨_, _, _, hallocate⟩ | ⟨_, hallocate⟩
  · rw [hallocate]
    intro c hc
    simp only [claimAt, List.head?_append, Option.or_eq_some_iff] at hc
    rcases hc with hc | ⟨-, hc⟩
    · exact h c hc
    · obtain rfl := Option.some_inj.mp hc
      simp
  all_goals
    rw [hallocate]
    exact h

private theorem Trimmed.write (h : p.Trimmed) (pointer : ClaimPointer) (bytes : List UInt8) :
    (p.write pointer bytes).1.Trimmed := by
  rcases p.write_cases pointer bytes with ⟨_, _, _, _, hwrite⟩ | ⟨_, hwrite⟩ | ⟨_, _, hwrite⟩ <;>
    rw [hwrite] <;> exact h

private theorem Trimmed.submit (h : p.Trimmed) (pointer : ClaimPointer) :
    (p.submit pointer).1.Trimmed := by
  unfold Pool.submit
  cases p.writable? pointer with
  | none => exact h
  | some found => exact h.setState (by simp) _ _

private theorem Trimmed.release (h : p.Trimmed) (pointer : ClaimPointer) :
    (p.release pointer).1.Trimmed := by
  unfold Pool.release
  cases p.live? pointer with
  | none => exact h
  | some found => exact trimmed_reclaim _

private theorem Trimmed.commit (h : p.Trimmed) (pointer : ClaimPointer) (bytes : List UInt8) :
    (p.commit pointer bytes).1.Trimmed := by
  have hwritten := h.write pointer bytes
  unfold Pool.commit
  cases hwrite : p.write pointer bytes with
  | mk written result =>
    rw [hwrite] at hwritten
    cases result with
    | error cause => exact hwritten.release pointer
    | ok _ => exact hwritten.submit pointer

private theorem Trimmed.push (h : p.Trimmed) (bytes : List UInt8) : (p.push bytes).1.Trimmed := by
  have hclaimed := h.allocate bytes.length
  unfold Pool.push
  cases hallocate : p.allocate bytes.length with
  | mk claimed result =>
    rw [hallocate] at hclaimed
    cases result with
    | error cause => exact hclaimed
    | ok pointer => exact hclaimed.commit pointer bytes

private theorem Trimmed.next (h : p.Trimmed) (hp : p.Invariant) : p.next.1.Trimmed := by
  obtain ⟨k, -, -, -, ⟨-, hnext⟩ | ⟨_, -, -, -, hnext⟩ | ⟨c, -, -, hnext⟩⟩ := next_cases p hp.cursor
  · rw [hnext]
    exact h
  · rw [hnext]
    exact h
  · rw [hnext]
    exact h.setState (by simp) k c

private theorem Trimmed.serve (h : p.Trimmed) (hp : p.Invariant) (call : PoolCall) :
    (p.serve call).Trimmed := by
  cases call with
  | allocate bytes => exact h.allocate bytes
  | write pointer bytes => exact h.write pointer bytes
  | submit pointer => exact h.submit pointer
  | commit pointer bytes => exact h.commit pointer bytes
  | push bytes => exact h.push bytes
  | next => exact h.next hp
  | read pointer => exact h
  | release pointer => exact h.release pointer
  | close => exact h

private theorem Trimmed.serveAll (h : p.Trimmed) (hp : p.Invariant) (calls : List PoolCall) :
    (p.serveAll calls).Trimmed := by
  induction calls generalizing p with
  | nil => exact h
  | cons call calls ih => exact ih (h.serve hp call) (serve_invariant hp call)

private theorem Trimmed.claims_eq_nil (h : p.Trimmed) (hall : ∀ c ∈ p.claims, c.state = .released) :
    p.claims = [] := by
  cases hclaims : p.claims with
  | nil => rfl
  | cons oldest rest =>
    have holdest := h oldest (by rw [hclaims]; rfl)
    exact absurd (hall oldest (by simp [hclaims])) holdest

end Trimmed

/-- Nothing is held, both ends are back at the start, and whatever the pool can ever hold fits there.
A request for no bytes takes as much as one for a single byte. -/
structure StartsAnew (p : Pool) : Prop where
  claims : p.claims = []
  start : p.start = 0
  stop : p.stop = 0
  wrapped : p.wrapped = false
  cursor : p.cursor = 0
  inUse : p.inUse = 0
  fits : ∀ rounded ≤ p.capacity, p.fit? rounded = some 0
  grants : ∀ request, max request 1 ≤ p.capacity → p.isClosed = false →
    ∃ pointer, (p.allocate request).2 = .ok pointer ∧ pointer.offset = 0

/-- Gives back the claims that pointers name, one after the other. -/
def releaseAll (p : Pool) (pointers : List ClaimPointer) : Pool :=
  p.serveAll (pointers.map .release)

section Anew

variable {p : Pool}

private theorem checkRequest_of_le {request : Nat} (hcapacity : alignment ∣ p.capacity)
    (h : max request 1 ≤ p.capacity) :
    ∃ rounded ≤ p.capacity, p.checkRequest request = .ok rounded := by
  have hwhole : 4 ∣ p.capacity := hcapacity
  have hlimit : wordLimit = 18446744073709551616 := rfl
  have hrounded : alignUp (max request 1) alignment ≤ p.capacity := by
    rcases alignUp_cases (max request 1) with ⟨_, hround⟩ | ⟨_, hround⟩ <;> omega
  exact ⟨_, hrounded, if_neg (Nat.not_lt.mpr hrounded)⟩

private theorem startsAnew_of_empty (hp : p.Invariant) (hcapacity : alignment ∣ p.capacity)
    (hclaims : p.claims = []) : p.StartsAnew := by
  have hlayout := hp.layout
  have hcursor := hp.cursor
  have hsum := hp.inUse
  rw [hclaims] at hlayout hcursor hsum
  obtain ⟨hstart, hstop, hwrapped⟩ := hlayout.eq_empty
  have hfits (rounded : Nat) (hle : rounded ≤ p.capacity) : p.fit? rounded = some 0 := by
    rw [fit?, hclaims, List.isEmpty_nil, if_pos rfl, if_pos hle]
  exact {
    claims := hclaims
    start := hstart
    stop := hstop
    wrapped := hwrapped
    cursor := Nat.le_zero.mp hcursor
    inUse := hsum
    fits := hfits
    grants := fun request hrequest hopen => by
      obtain ⟨rounded, hle, hcheck⟩ := checkRequest_of_le hcapacity hrequest
      refine ⟨(p.claimAt request rounded 0).2, ?_, rfl⟩
      simp [allocate, hcheck, hopen, hfits rounded hle] }

private theorem mem_of_reclaim {c : Claim} (hc : c ∈ p.reclaim.claims) : c ∈ p.claims := by
  obtain ⟨freed, -, ⟨-, hreclaim⟩ | ⟨oldest, rest, hsplit, -, hreclaim⟩⟩ := p.reclaim_cases
  · simp [hreclaim] at hc
  · rw [hreclaim] at hc
    rw [hsplit]
    exact List.mem_append_right _ hc

private theorem mem_of_release {pointer : ClaimPointer} {c : Claim}
    (hc : c ∈ (p.release pointer).1.claims) (hheld : c.state ≠ .released) : c ∈ p.claims := by
  unfold Pool.release at hc
  cases hfound : p.live? pointer with
  | none => rwa [hfound] at hc
  | some found =>
    rw [hfound] at hc
    obtain ⟨j, hj⟩ := List.mem_iff_getElem?.mp (mem_of_reclaim hc)
    rcases getElem?_setState hj with ⟨-, rfl⟩ | ⟨-, hj⟩
    · exact absurd rfl hheld
    · exact List.mem_of_getElem? hj

private theorem notMem_release {c : Claim} (hp : p.Invariant) (hc : c ∈ p.claims)
    (hheld : c.state ≠ .released) : c ∉ (p.release (.ofClaim c)).1.claims := by
  obtain ⟨cs, ds, hsplit⟩ := List.append_of_mem hc
  have hgone : (p.setState cs.length c .released).Gone c.seq :=
    gone_setState_released hp (by rw [hsplit]; simp)
  rw [release, live?_of_split hp hsplit hheld]
  exact fun hmem => hgone.reclaim.2 c.state hheld ⟨c, hmem, rfl, rfl⟩

/-- Each claim is given back by its own pointer, wherever that stands in the order. -/
theorem released_releaseAll (hp : p.Invariant) {pointers : List ClaimPointer}
    (hcover : ∀ c ∈ p.claims, c.state ≠ .released → .ofClaim c ∈ pointers) :
    ∀ c ∈ (p.releaseAll pointers).claims, c.state = .released := by
  induction pointers generalizing p with
  | nil =>
    intro c hc
    by_contra hheld
    exact List.not_mem_nil (hcover c hc hheld)
  | cons pointer pointers ih =>
    refine ih (release_invariant hp pointer) fun c hc hheld => ?_
    have hbefore := mem_of_release hc hheld
    rcases List.mem_cons.mp (hcover c hbefore hheld) with rfl | hlater
    · exact absurd hc (notMem_release hp hbefore hheld)
    · exact hlater

end Anew

/-- Whatever was asked of a pool before: giving back a claim, by whatever pointer, leaves room for all
that there was room for. When all claims that are held were given back, the pool starts anew, whether
that is so already or comes from pointers that name them all, in any order. -/
theorem serveAll_makesRoom (bytes patience : Nat) (calls : List PoolCall) :
    let p := (ofCapacity bytes patience).serveAll calls
    (∀ pointer rounded, p.HasRoom rounded → (p.release pointer).1.HasRoom rounded) ∧
    (∀ pointer request, p.Grants request → (p.release pointer).1.Grants request) ∧
    ((∀ c ∈ p.claims, c.state = .released) → p.StartsAnew) ∧
    ∀ pointers, (∀ c ∈ p.claims, c.state ≠ .released → .ofClaim c ∈ pointers) →
      (p.releaseAll pointers).StartsAnew := by
  intro p
  have hnew := invariant_ofCapacity bytes patience
  have hp : p.Invariant := serveAll_invariant hnew calls
  have hfresh : (ofCapacity bytes patience).Trimmed := by simp [Trimmed, ofCapacity]
  have htrimmed : p.Trimmed := hfresh.serveAll hnew calls
  have hcapacity : alignment ∣ p.capacity := by
    rw [(serveAll_later (ofCapacity bytes patience) calls).capacity]
    exact Nat.dvd_mul_left _ _
  refine ⟨fun pointer rounded hroom => hroom.release hp pointer,
    fun pointer request hgrants => hgrants.release hp pointer, fun hall => ?_,
    fun pointers hcover => ?_⟩
  · exact startsAnew_of_empty hp hcapacity (htrimmed.claims_eq_nil hall)
  · have hafter : (p.releaseAll pointers).Invariant := serveAll_invariant hp _
    have hempty := (htrimmed.serveAll hp (pointers.map .release)).claims_eq_nil
      (released_releaseAll hp hcover)
    refine startsAnew_of_empty hafter ?_ hempty
    rw [releaseAll, (p.serveAll_later _).capacity]
    exact hcapacity

/-- Two older claims with a free gap before them, and a newer one that starts over. Giving back the
oldest ends no run and leaves the room for another newer one; the rest may go in any order. -/
theorem serveAll_makesRoom_startedOver :
    let p := (ofCapacity 32 0).serveAll
      [.allocate 12, .allocate 12, .release ⟨0, 12, 12, true, 0⟩, .allocate 8, .allocate 4]
    p.wrapped = true ∧ p.HasRoom 8 ∧ (p.release ⟨12, 12, 12, true, 1⟩).1.HasRoom 8 ∧
      p.Grants 7 ∧ (p.release ⟨12, 12, 12, true, 1⟩).1.Grants 7 ∧
      (p.releaseAll [⟨0, 4, 4, true, 3⟩, ⟨12, 12, 12, true, 1⟩, ⟨24, 8, 8, true, 2⟩]).StartsAnew := by
  intro p
  obtain ⟨hroom, hgrants, -, hanew⟩ := serveAll_makesRoom 32 0
    [.allocate 12, .allocate 12, .release ⟨0, 12, 12, true, 0⟩, .allocate 8, .allocate 4]
  have hfits : p.HasRoom 8 := ⟨4, by decide +kernel⟩
  have hgranted : p.Grants 7 := ⟨⟨4, 7, 8, true, 4⟩, by decide +kernel⟩
  refine ⟨by decide +kernel, hfits, hroom _ _ hfits, hgranted, hgrants _ _ hgranted,
    hanew _ ?_⟩
  decide +kernel

end Pool

end DisplayPipeline
