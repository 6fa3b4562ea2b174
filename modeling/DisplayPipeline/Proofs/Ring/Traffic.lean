import DisplayPipeline.Proofs.Ring.Backlog
import DisplayPipeline.Proofs.Ring.Contents

/-!
# A pool between a producer and a consumer

The two clients keep the pointers that they were given and use each one up when they submit or give
back its claim. What they can see of the pool is a backlog: the claims that are not given back, with
what was written to each.
-/

namespace DisplayPipeline

/-- A pool with the pointers that its producer and its consumer hold. -/
structure Traffic where
  pool : Pool
  filling : List ClaimPointer := []
  taken : List ClaimPointer := []

def Reply.ofResult : Except PoolError Unit → Reply
  | .ok () => .done
  | .error e => .refused e

namespace Traffic

def pointer? (pointers : List ClaimPointer) (ticket : Nat) : Option ClaimPointer :=
  pointers.find? (·.seq = ticket)

def without (pointers : List ClaimPointer) (ticket : Nat) : List ClaimPointer :=
  pointers.filter (·.seq ≠ ticket)

theorem pointer?_single (pointer : ClaimPointer) :
    pointer? [pointer] pointer.seq = some pointer := by
  simp [pointer?]

theorem without_single (pointer : ClaimPointer) : without [pointer] pointer.seq = [] := by
  simp [without]

/-- Lets a client take a turn. -/
def step (t : Traffic) : Turn → Traffic × Reply
  | .allocate bytes =>
    match t.pool.allocate bytes with
    | (pool, .ok pointer) =>
      ({ t with pool, filling := t.filling ++ [pointer] }, .claimed pointer.seq)
    | (pool, .error e) => ({ t with pool }, .refused e)
  | .write ticket bytes =>
    match pointer? t.filling ticket with
    | none => (t, .notHeld)
    | some pointer =>
      let (pool, result) := t.pool.write pointer bytes
      ({ t with pool }, .ofResult result)
  | .submit ticket =>
    match pointer? t.filling ticket with
    | none => (t, .notHeld)
    | some pointer =>
      let (pool, result) := t.pool.submit pointer
      ({ t with pool, filling := without t.filling ticket }, .ofResult result)
  | .commit ticket bytes =>
    match pointer? t.filling ticket with
    | none => (t, .notHeld)
    | some pointer =>
      let (pool, result) := t.pool.commit pointer bytes
      ({ t with pool, filling := without t.filling ticket }, .ofResult result)
  | .push bytes =>
    let (pool, result) := t.pool.push bytes
    ({ t with pool }, .ofResult result)
  | .abandon ticket =>
    match pointer? t.filling ticket with
    | none => (t, .notHeld)
    | some pointer =>
      let (pool, result) := t.pool.release pointer
      ({ t with pool, filling := without t.filling ticket }, .ofResult result)
  | .close => ({ t with pool := t.pool.close }, .done)
  | .next =>
    match t.pool.next with
    | (pool, some pointer) => ({ t with pool, taken := t.taken ++ [pointer] }, .delivered pointer.seq)
    | (pool, none) => ({ t with pool }, .nothing)
  | .read ticket =>
    match pointer? t.taken ticket with
    | none => (t, .notHeld)
    | some pointer =>
      match t.pool.read pointer with
      | .ok bytes => (t, .bytes bytes)
      | .error e => (t, .refused e)
  | .release ticket =>
    match pointer? t.taken ticket with
    | none => (t, .notHeld)
    | some pointer =>
      let (pool, result) := t.pool.release pointer
      ({ t with pool, taken := without t.taken ticket }, .ofResult result)

/-- Lets turns be taken one after the other, and records what is answered. -/
def run (t : Traffic) : List Turn → Traffic × List (Turn × Reply)
  | [] => (t, [])
  | turn :: turns =>
    let (next, reply) := t.step turn
    let (last, log) := next.run turns
    (last, (turn, reply) :: log)

end Traffic

/-- Not taken by the consumer, and not given back. -/
def ClaimState.waits : ClaimState → Bool
  | allocated | submitted => true
  | consumed | released => false

def select (f : ClaimState → Bool) (claims : List Claim) : List Claim := claims.filter (f ·.state)

def Claim.parcel (contents : Contents) (c : Claim) : Parcel :=
  ⟨c.seq, contents c.seq, c.state ≠ .allocated⟩

theorem Claim.parcel_put (c : Claim) (contents : Contents) (bytes : List UInt8) :
    c.parcel (contents.put c.seq bytes) = (c.parcel contents).put bytes := by
  rw [parcel, Contents.put, Contents.assign_same]
  rfl

/-- What clients see of a pool. -/
def Pool.backlog (p : Pool) (contents : Contents) : Backlog where
  capacity := p.capacity
  patience := p.patience
  waiting := (select ClaimState.waits p.claims).map (Claim.parcel contents)
  delivered := (select (· = .consumed) p.claims).map (Claim.parcel contents)
  issued := p.nextSeq
  isClosed := p.isClosed

/-- The clients hold the pointers to the claims that they see, and the oldest claim is in use. -/
structure Traffic.Models (t : Traffic) (contents : Contents) : Prop where
  stores : t.pool.StoresContents contents
  oldest : ∀ c, t.pool.claims.head? = some c → c.state ≠ .released
  filling : t.filling = (select (· = .allocated) t.pool.claims).map .ofClaim
  taken : t.taken = (select (· = .consumed) t.pool.claims).map .ofClaim

section Select

variable {f : ClaimState → Bool} {claims cs ds : List Claim} {c : Claim}

theorem select_append (f : ClaimState → Bool) (cs ds : List Claim) :
    select f (cs ++ ds) = select f cs ++ select f ds :=
  List.filter_append _ _

theorem select_cons (f : ClaimState → Bool) (c : Claim) (cs : List Claim) :
    select f (c :: cs) = if f c.state then c :: select f cs else select f cs :=
  List.filter_cons

theorem select_of_split (h : claims = cs ++ c :: ds) (hf : f c.state = false) :
    select f claims = select f (cs ++ ds) := by
  rw [h, select_append, select_cons, select_append, hf]
  rfl

theorem mem_select : c ∈ select f claims ↔ c ∈ claims ∧ f c.state = true :=
  List.mem_filter

theorem select_eq_nil (h : ∀ c ∈ claims, f c.state = false) : select f claims = [] := by
  apply List.filter_eq_nil_iff.mpr
  intro c hc
  rw [h c hc]
  exact Bool.false_ne_true

theorem select_single (h : f c.state = true) : select f [c] = [c] := by
  rw [select_cons, if_pos h]
  rfl

theorem select_reclaim (p : Pool) (hf : f .released = false) :
    select f p.reclaim.claims = select f p.claims := by
  obtain ⟨freed, hfreed, hcases⟩ := p.reclaim_cases
  have hnone : select f freed = [] := by
    apply select_eq_nil
    intro c hc
    rw [hfreed c hc, hf]
  rcases hcases with ⟨hall, hreclaim⟩ | ⟨oldest, rest, hsplit, _, hreclaim⟩
  · rw [hreclaim, hall, hnone]
    rfl
  · rw [hreclaim, hsplit, select_append, hnone]
    rfl

theorem backlog_reclaim (p : Pool) (contents : Contents) :
    p.reclaim.backlog contents = p.backlog contents := by
  have hwaiting := select_reclaim (f := ClaimState.waits) p rfl
  have hdelivered := select_reclaim (f := (· = .consumed)) p rfl
  obtain ⟨_, _, ⟨_, hreclaim⟩ | ⟨_, _, _, _, hreclaim⟩⟩ := p.reclaim_cases <;>
    rw [hreclaim] at hwaiting hdelivered ⊢ <;>
    simp only [Pool.backlog, ← hwaiting, ← hdelivered]

theorem reclaim_oldest (p : Pool) : ∀ c, p.reclaim.claims.head? = some c → c.state ≠ .released := by
  obtain ⟨_, _, ⟨_, hreclaim⟩ | ⟨oldest, _, _, holdest, hreclaim⟩⟩ := p.reclaim_cases
  · simp [hreclaim]
  · intro c hc
    obtain rfl : oldest = c := by simpa [hreclaim] using hc
    exact holdest

/-- A pointer that a client holds names a claim in the state that goes with it. -/
theorem pointer?_some {ticket : Nat} {pointer : ClaimPointer}
    (h : Traffic.pointer? ((select f claims).map .ofClaim) ticket = some pointer) :
    ∃ cs c ds, claims = cs ++ c :: ds ∧ f c.state = true ∧ c.seq = ticket ∧
      pointer = .ofClaim c := by
  obtain ⟨c, hc, rfl⟩ := List.mem_map.mp (List.mem_of_find?_eq_some h)
  obtain ⟨hmem, hstate⟩ := mem_select.mp hc
  obtain ⟨cs, ds, hsplit⟩ := List.append_of_mem hmem
  have hfound := List.find?_some h
  have hticket : c.seq = ticket := of_decide_eq_true hfound
  exact ⟨cs, c, ds, hsplit, hstate, hticket, rfl⟩

theorem pointer?_none {ticket : Nat}
    (h : Traffic.pointer? ((select f claims).map .ofClaim) ticket = none) :
    ∀ c ∈ claims, f c.state = true → c.seq ≠ ticket := by
  intro c hc hstate heq
  have hnone := List.find?_eq_none.mp h _ (List.mem_map_of_mem (mem_select.mpr ⟨hc, hstate⟩))
  exact hnone (decide_eq_true heq)

theorem without_select (hnodup : (claims.map (·.seq)).Nodup) (hsplit : claims = cs ++ c :: ds)
    (hstate : f c.state = true) :
    Traffic.without ((select f claims).map .ofClaim) c.seq =
      (select f (cs ++ ds)).map .ofClaim := by
  have hselect : select f claims = select f cs ++ c :: select f ds := by
    rw [hsplit, select_append, select_cons, if_pos hstate]
  have hsub : ((select f cs ++ c :: select f ds).map (·.seq)).Nodup := by
    rw [← hselect]
    exact hnodup.sublist (List.filter_sublist.map _)
  rw [Traffic.without, List.filter_map, hselect, select_append]
  congr 1
  exact Backlog.filter_key_ne _ hsub

theorem map_parcel_congr {contents after : Contents}
    (h : ∀ c ∈ claims, after c.seq = contents c.seq) (f : ClaimState → Bool) :
    (select f claims).map (Claim.parcel after) = (select f claims).map (Claim.parcel contents) := by
  apply List.map_congr_left
  intro c hc
  rw [Claim.parcel, Claim.parcel, h c (mem_select.mp hc).1]

end Select

end DisplayPipeline
