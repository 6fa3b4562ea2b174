import DisplayPipeline.Proofs.Ring.Operations

namespace DisplayPipeline.Pool

structure Later (p q : Pool) : Prop where
  capacity : q.capacity = p.capacity
  timeouts : p.tally.timeouts ≤ q.tally.timeouts

theorem Later.refl (p : Pool) : p.Later p := ⟨rfl, Nat.le_refl _⟩

theorem Later.trans {p q r : Pool} (h : p.Later q) (h' : q.Later r) : p.Later r :=
  ⟨h'.capacity.trans h.capacity, Nat.le_trans h.timeouts h'.timeouts⟩

variable {p : Pool}

private theorem reclaim_later (p : Pool) : p.Later p.reclaim := by
  obtain ⟨_, _, ⟨_, hreclaim⟩ | ⟨_, _, _, _, hreclaim⟩⟩ := p.reclaim_cases
  · exact hreclaim ▸ ⟨rfl, Nat.le_refl _⟩
  · exact hreclaim ▸ ⟨rfl, Nat.le_refl _⟩

theorem allocate_later (p : Pool) (bytes : Nat) : p.Later (p.allocate bytes).1 := by
  rcases p.allocate_cases bytes with ⟨_, _, _, _, _, hallocate⟩ | ⟨_, _, _, _, hallocate⟩ |
    ⟨_, _, _, hallocate⟩ | ⟨_, hallocate⟩
  · exact hallocate ▸ ⟨rfl, Nat.le_refl _⟩
  · exact hallocate ▸ ⟨rfl, Nat.le_succ _⟩
  · exact hallocate ▸ .refl p
  · exact hallocate ▸ .refl p

theorem write_later (p : Pool) (pointer : ClaimPointer) (bytes : List UInt8) :
    p.Later (p.write pointer bytes).1 := by
  rcases p.write_cases pointer bytes with ⟨_, _, _, _, hwrite⟩ | ⟨_, hwrite⟩ | ⟨_, _, hwrite⟩
  · exact hwrite ▸ ⟨rfl, Nat.le_refl _⟩
  · exact hwrite ▸ .refl p
  · exact hwrite ▸ .refl p

theorem submit_later (p : Pool) (pointer : ClaimPointer) : p.Later (p.submit pointer).1 := by
  unfold submit
  split
  · exact .refl p
  · exact ⟨rfl, Nat.le_refl _⟩

theorem release_later (p : Pool) (pointer : ClaimPointer) : p.Later (p.release pointer).1 := by
  unfold release
  split
  · exact .refl p
  · rename_i i claim _
    have hmarked : p.Later (p.setState i claim .released) := ⟨rfl, Nat.le_refl _⟩
    exact hmarked.trans (reclaim_later _)

private theorem commit_later (p : Pool) (pointer : ClaimPointer) (bytes : List UInt8) :
    p.Later (p.commit pointer bytes).1 := by
  have hwrite := p.write_later pointer bytes
  unfold commit
  split
  · rename_i q cause hwritten
    rw [hwritten] at hwrite
    exact hwrite.trans (q.release_later pointer)
  · rename_i q hwritten
    rw [hwritten] at hwrite
    exact hwrite.trans (q.submit_later pointer)

private theorem push_later (p : Pool) (bytes : List UInt8) : p.Later (p.push bytes).1 := by
  have hallocate := p.allocate_later bytes.length
  unfold push
  split
  · rename_i q cause hallocated
    rw [hallocated] at hallocate
    exact hallocate
  · rename_i q pointer hallocated
    rw [hallocated] at hallocate
    exact hallocate.trans (q.commit_later pointer bytes)

private theorem next_later (p : Pool) : p.Later p.next.1 := by
  unfold next
  dsimp only
  split
  · exact ⟨rfl, Nat.le_refl _⟩
  · split
    · exact ⟨rfl, Nat.le_refl _⟩
    · exact ⟨rfl, Nat.le_refl _⟩

private theorem serve_later (p : Pool) (call : PoolCall) : p.Later (p.serve call) := by
  cases call with
  | allocate bytes => exact p.allocate_later bytes
  | write pointer bytes => exact p.write_later pointer bytes
  | submit pointer => exact p.submit_later pointer
  | commit pointer bytes => exact p.commit_later pointer bytes
  | push bytes => exact p.push_later bytes
  | next => exact p.next_later
  | read pointer => exact .refl p
  | release pointer => exact p.release_later pointer
  | close => exact ⟨rfl, Nat.le_refl _⟩

theorem serveAll_later (p : Pool) (calls : List PoolCall) : p.Later (p.serveAll calls) := by
  induction calls generalizing p with
  | nil => exact .refl p
  | cons call calls ih => exact (p.serve_later call).trans (ih (p.serve call))

theorem Later.checkRequest {q : Pool} (h : p.Later q) (bytes : Nat) :
    q.checkRequest bytes = p.checkRequest bytes := by
  unfold Pool.checkRequest
  rw [h.capacity]

theorem isClosed_next (p : Pool) : p.next.1.isClosed = p.isClosed := by
  unfold next
  dsimp only
  split
  · rfl
  · split <;> rfl

theorem isClosed_release (p : Pool) (pointer : ClaimPointer) :
    (p.release pointer).1.isClosed = p.isClosed := by
  unfold release
  split
  · rfl
  · rename_i i claim _
    obtain ⟨_, _, ⟨_, hreclaim⟩ | ⟨_, _, _, _, hreclaim⟩⟩ :=
      (p.setState i claim .released).reclaim_cases <;> rw [hreclaim] <;> rfl

end DisplayPipeline.Pool
