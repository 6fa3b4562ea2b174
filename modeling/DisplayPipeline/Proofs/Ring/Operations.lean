import DisplayPipeline.Ring.Pool
import Mathlib.Algebra.Ring.Nat
import Mathlib.Data.List.TakeWhile
import Mathlib.Data.Option.Basic

namespace DisplayPipeline

namespace Pool

theorem live?_eq_some {p : Pool} {pointer : ClaimPointer} {i : Nat} {c : Claim}
    (h : p.live? pointer = some (i, c)) :
    pointer.valid = true ∧ p.index? pointer.seq = some i ∧ p.claims[i]? = some c ∧
      c.offset = pointer.offset ∧ c.size = pointer.size ∧ c.state ≠ .released := by
  simp only [live?, Option.bind_eq_bind, Option.bind_eq_some_iff, Option.pure_def,
    Option.guard_eq_some', Option.some.injEq, Prod.mk.injEq] at h
  obtain ⟨_, hvalid, j, hindex, d, hclaim, _, ⟨hoffset, hsize, hstate⟩, rfl, rfl⟩ := h
  exact ⟨hvalid, hindex, hclaim, hoffset, hsize, hstate⟩

theorem writable?_eq_some {p : Pool} {pointer : ClaimPointer} {i : Nat} {c : Claim}
    (h : p.writable? pointer = some (i, c)) :
    p.live? pointer = some (i, c) ∧ c.state = .allocated := by
  simpa [writable?, Option.filter_eq_some_iff] using h

def putAt (p : Pool) (offset : Nat) (bytes : List UInt8) : Pool :=
  { p with arena := bytes.toByteArray.copySlice 0 p.arena offset bytes.length }

/-- A claim is added where it fits, or nothing but the counts changes. -/
theorem allocate_cases (p : Pool) (bytes : Nat) :
    (∃ rounded offset, p.checkRequest bytes = .ok rounded ∧ p.isClosed = false ∧
      p.fit? rounded = some offset ∧
      p.allocate bytes =
        ((p.claimAt bytes rounded offset).1, .ok (p.claimAt bytes rounded offset).2)) ∨
    (∃ rounded, p.checkRequest bytes = .ok rounded ∧ p.isClosed = false ∧
      p.fit? rounded = none ∧
      p.allocate bytes =
        ({ p with tally.waits := p.tally.waits + 1, tally.timeouts := p.tally.timeouts + 1 },
          .error (.timeout p.patience))) ∨
    (∃ rounded, p.checkRequest bytes = .ok rounded ∧ p.isClosed = true ∧
      p.allocate bytes = (p, .error .closed)) ∨
    (p.checkRequest bytes = .error (.tooLarge bytes p.capacity) ∧
      p.allocate bytes = (p, .error (.tooLarge bytes p.capacity))) := by
  unfold allocate
  cases hcheck : p.checkRequest bytes with
  | error e =>
    have he : e = .tooLarge bytes p.capacity := by
      simp only [checkRequest] at hcheck
      split at hcheck
      · exact (Except.error.inj hcheck).symm
      · cases hcheck
    subst he
    exact Or.inr (Or.inr (Or.inr ⟨rfl, rfl⟩))
  | ok rounded =>
    cases hclosed : p.isClosed with
    | true => exact Or.inr (Or.inr (Or.inl ⟨rounded, rfl, rfl, by simp⟩))
    | false =>
      cases hfit : p.fit? rounded with
      | some offset => exact Or.inl ⟨rounded, offset, rfl, rfl, hfit, by simp [hfit]⟩
      | none => exact Or.inr (Or.inl ⟨rounded, rfl, rfl, hfit, by simp [hfit]⟩)

/-- Bytes go to a claim that may be written to, or nothing changes. -/
theorem write_cases (p : Pool) (pointer : ClaimPointer) (bytes : List UInt8) :
    (∃ i c, p.writable? pointer = some (i, c) ∧ bytes.length ≤ pointer.size ∧
      p.write pointer bytes = (p.putAt pointer.offset bytes, .ok ())) ∨
    (pointer.size < bytes.length ∧
      p.write pointer bytes = (p, .error (.overflow bytes.length pointer.size))) ∨
    (p.writable? pointer = none ∧ bytes.length ≤ pointer.size ∧
      p.write pointer bytes = (p, .error .invalidPointer)) := by
  unfold write
  by_cases hlong : bytes.length > pointer.size
  · exact Or.inr (Or.inl ⟨hlong, by simp [hlong]⟩)
  · have hle : bytes.length ≤ pointer.size := Nat.le_of_not_lt hlong
    cases hlive : p.writable? pointer with
    | none => exact Or.inr (Or.inr ⟨rfl, hle, by simp [hlong]⟩)
    | some found => exact Or.inl ⟨found.1, found.2, rfl, hle, by simp [hlong, putAt]⟩

/-- Released claims at the front go, and what is left starts at its first claim. -/
theorem reclaim_cases (p : Pool) :
    ∃ freed : List Claim, (∀ c ∈ freed, c.state = .released) ∧
      ((p.claims = freed ∧
        p.reclaim =
          { p with
            claims := [], cursor := p.cursor - freed.length
            inUse := p.inUse - (freed.map (·.rounded)).sum
            start := 0, stop := 0, wrapped := false }) ∨
      (∃ oldest rest, p.claims = freed ++ oldest :: rest ∧ oldest.state ≠ .released ∧
        p.reclaim =
          { p with
            claims := oldest :: rest, cursor := p.cursor - freed.length
            inUse := p.inUse - (freed.map (·.rounded)).sum
            start := oldest.offset, wrapped := p.wrapped && p.start ≤ oldest.offset })) := by
  have hsum (n : Nat) (cs : List Claim) :
      cs.foldl (fun n (c : Claim) => n - c.rounded) n = n - (cs.map (·.rounded)).sum := by
    induction cs generalizing n with
    | nil => rfl
    | cons c cs ih => simp only [List.foldl_cons, ih, List.map_cons, List.sum_cons, Nat.sub_sub]
  let freed := p.claims.takeWhile fun c => c.state = .released
  have hsplit : freed ++ p.claims.dropWhile (fun c => c.state = .released) = p.claims :=
    List.takeWhile_append_dropWhile
  refine ⟨freed, fun c hc => ?_, ?_⟩
  · simpa using List.mem_takeWhile_imp hc
  · unfold reclaim
    cases hheld : p.claims.dropWhile fun c => c.state = .released with
    | nil =>
      rw [hheld, List.append_nil] at hsplit
      exact Or.inl ⟨hsplit.symm, by simp only [hsum, freed]⟩
    | cons oldest rest =>
      rw [hheld] at hsplit
      have holdest : oldest.state ≠ .released := by
        have hhead := List.head?_dropWhile_not (fun c : Claim => decide (c.state = .released)) p.claims
        simpa [hheld] using hhead
      exact Or.inr ⟨oldest, rest, hsplit.symm, holdest, by simp only [hsum, freed]⟩

/-- The cursor moves past released claims. Behind them it takes a submitted claim and passes it, or
stops. -/
theorem next_cases (p : Pool) (hcursor : p.cursor ≤ p.claims.length) :
    ∃ k, p.cursor ≤ k ∧ k ≤ p.claims.length ∧
      (∀ i c, p.claims[i]? = some c → p.cursor ≤ i → i < k → c.state = .released) ∧
      ((k = p.claims.length ∧ p.next = ({ p with cursor := k }, none)) ∨
      (∃ c, p.claims[k]? = some c ∧ c.state ≠ .released ∧ c.state ≠ .submitted ∧
        p.next = ({ p with cursor := k }, none)) ∨
      (∃ c, p.claims[k]? = some c ∧ c.state = .submitted ∧
        p.next =
          ({ p.setState k c .consumed with cursor := k + 1 }, some (.ofClaim c)))) := by
  let passed := (p.claims.drop p.cursor).takeWhile fun c => c.state = .released
  have hsplit : passed ++ (p.claims.drop p.cursor).dropWhile (fun c => c.state = .released) =
      p.claims.drop p.cursor := List.takeWhile_append_dropWhile
  have hlen : passed.length + p.cursor ≤ p.claims.length := by
    have := congrArg List.length hsplit
    simp only [List.length_append, List.length_drop] at this
    omega
  have hpassed (i : Nat) (c : Claim) (hc : p.claims[i]? = some c) (hlow : p.cursor ≤ i)
      (hhigh : i < p.cursor + passed.length) : c.state = .released := by
    have hget : passed[i - p.cursor]? = some c := by
      have hdrop : (p.claims.drop p.cursor)[i - p.cursor]? = some c := by
        rw [List.getElem?_drop, Nat.add_sub_cancel' hlow]
        exact hc
      rw [← hsplit, List.getElem?_append_left (by omega)] at hdrop
      exact hdrop
    simpa using List.mem_takeWhile_imp (List.mem_of_getElem? hget)
  have hstop (c : Claim) (hc : p.claims[p.cursor + passed.length]? = some c) :
      c.state ≠ .released := by
    rw [← List.getElem?_drop, ← hsplit, List.getElem?_append_right (Nat.le_refl _),
      Nat.sub_self, ← List.head?_eq_getElem?] at hc
    have hhead := List.head?_dropWhile_not (fun c : Claim => decide (c.state = .released))
      (p.claims.drop p.cursor)
    simpa [hc] using hhead
  refine ⟨p.cursor + passed.length, by omega, by omega, hpassed, ?_⟩
  have hskip : p.skipReleased = { p with cursor := p.cursor + passed.length } := rfl
  cases hclaim : p.claims[p.cursor + passed.length]? with
  | none =>
    have hend := List.getElem?_eq_none_iff.mp hclaim
    refine Or.inl ⟨by omega, ?_⟩
    rw [next, hskip]
    simp only [hclaim]
  | some c =>
    by_cases hsubmitted : c.state = .submitted
    · refine Or.inr (Or.inr ⟨c, rfl, hsubmitted, ?_⟩)
      rw [next, hskip]
      simp only [hclaim, hsubmitted, if_true]
      rfl
    · refine Or.inr (Or.inl ⟨c, rfl, hstop c hclaim, hsubmitted, ?_⟩)
      rw [next, hskip]
      simp only [hclaim, hsubmitted, if_false]

end Pool

/-- Something that is asked of a pool. The pointer may be any. -/
inductive PoolCall where
  | allocate (bytes : Nat)
  | write (pointer : ClaimPointer) (bytes : List UInt8)
  | submit (pointer : ClaimPointer)
  | commit (pointer : ClaimPointer) (bytes : List UInt8)
  | push (bytes : List UInt8)
  | next
  | read (pointer : ClaimPointer)
  | release (pointer : ClaimPointer)
  | close

namespace Pool

/-- The pool after a call, whether it succeeded or failed. -/
def serve (p : Pool) : PoolCall → Pool
  | .allocate bytes => (p.allocate bytes).1
  | .write pointer bytes => (p.write pointer bytes).1
  | .submit pointer => (p.submit pointer).1
  | .commit pointer bytes => (p.commit pointer bytes).1
  | .push bytes => (p.push bytes).1
  | .next => p.next.1
  | .read _ => p
  | .release pointer => (p.release pointer).1
  | .close => p.close

def serveAll (p : Pool) (calls : List PoolCall) : Pool := calls.foldl serve p

end Pool

end DisplayPipeline
