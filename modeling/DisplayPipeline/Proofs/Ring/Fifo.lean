import DisplayPipeline.Proofs.Ring.Traffic

/-!
# A pool is a queue

Every turn that a client takes does to the pool what it does to the backlog. So whatever turns are
taken in whatever order, the claims that were submitted are delivered once each and in the order of
allocation, and each one is read with the bytes that were written to it.
-/

namespace DisplayPipeline

namespace Pool

variable {p : Pool} {cs ds : List Claim} {c : Claim}

private theorem write_of_split (hp : p.Invariant) (hsplit : p.claims = cs ++ c :: ds)
    (hstate : c.state = .allocated) (bytes : List UInt8) :
    p.write (.ofClaim c) bytes =
      if bytes.length ≤ c.size then (p.putAt c.offset bytes, .ok ())
      else (p, .error (.overflow bytes.length c.size)) := by
  have hsize : (ClaimPointer.ofClaim c).size = c.size := rfl
  have hfound := writable?_of_split hp hsplit hstate
  rcases write_cases p (.ofClaim c) bytes with ⟨_, _, _, hlen, hwrite⟩ | ⟨hlen, hwrite⟩ |
    ⟨hnone, _, _⟩
  · rw [hwrite, if_pos (hsize ▸ hlen)]
    rfl
  · rw [hwrite, if_neg (Nat.not_le.mpr (hsize ▸ hlen))]
    rfl
  · rw [hfound] at hnone
    cases hnone

private theorem submit_of_split (hp : p.Invariant) (hsplit : p.claims = cs ++ c :: ds)
    (hstate : c.state = .allocated) :
    p.submit (.ofClaim c) = (p.setState cs.length c .submitted, .ok ()) := by
  rw [submit, writable?_of_split hp hsplit hstate]

private theorem release_of_split (hp : p.Invariant) (hsplit : p.claims = cs ++ c :: ds)
    (hstate : c.state ≠ .released) :
    p.release (.ofClaim c) = ((p.setState cs.length c .released).reclaim, .ok ()) := by
  rw [release, live?_of_split hp hsplit hstate]

private theorem commit_of_split (hp : p.Invariant) (hsplit : p.claims = cs ++ c :: ds)
    (hstate : c.state = .allocated) (bytes : List UInt8) :
    p.commit (.ofClaim c) bytes =
      if bytes.length ≤ c.size then
        ((p.putAt c.offset bytes).setState cs.length c .submitted, .ok ())
      else ((p.setState cs.length c .released).reclaim, .error (.overflow bytes.length c.size)) := by
  have hwritten := write_invariant hp (.ofClaim c) bytes
  rw [commit, write_of_split hp hsplit hstate]
  rw [write_of_split hp hsplit hstate] at hwritten
  by_cases hlen : bytes.length ≤ c.size
  · rw [if_pos hlen] at hwritten
    rw [if_pos hlen, if_pos hlen]
    exact submit_of_split hwritten hsplit hstate
  · rw [if_neg hlen, if_neg hlen]
    have hheld : c.state ≠ .released := by
      rw [hstate]
      decide
    simp only [release_of_split hp hsplit hheld]

private theorem checkRequest_eq {bytes : Nat} (hmeasures : p.Measures bytes) :
    p.checkRequest bytes =
      if Backlog.reserve bytes ≤ p.capacity then .ok (Backlog.reserve bytes)
      else .error (.tooLarge bytes p.capacity) := by
  unfold Measures at hmeasures
  have hwide : alignment = 4 := rfl
  have hlimit : wordLimit = 18446744073709551616 := rfl
  have hreserve : (max bytes 1 + 3) / 4 * 4 = Backlog.reserve bytes := rfl
  simp only [checkRequest]
  rcases alignUp_cases (max bytes 1) with ⟨_, hround⟩ | ⟨hbeyond, hround⟩
  · rw [hround, hreserve]
    by_cases hlarge : Backlog.reserve bytes ≤ p.capacity
    · rw [if_neg (Nat.not_lt.mpr hlarge), if_pos hlarge]
    · rw [if_pos (Nat.lt_of_not_le hlarge), if_neg hlarge]
  · -- Rounding stops short of the limit, which is beyond every capacity still.
    rw [hround, if_pos (by omega), if_neg (by omega)]

private theorem waiting_of_split (hsplit : p.claims = cs ++ c :: ds) (hstate : c.state.waits = true)
    (contents : Contents) :
    (p.backlog contents).waiting =
      (select ClaimState.waits cs).map (Claim.parcel contents) ++ c.parcel contents ::
        (select ClaimState.waits ds).map (Claim.parcel contents) := by
  simp only [backlog, hsplit, select_append, select_cons, if_pos hstate, List.map_append,
    List.map_cons]

private theorem delivered_of_split (hsplit : p.claims = cs ++ c :: ds)
    (hstate : c.state = .consumed) (contents : Contents) :
    (p.backlog contents).delivered =
      (select (· = .consumed) cs).map (Claim.parcel contents) ++ c.parcel contents ::
        (select (· = .consumed) ds).map (Claim.parcel contents) := by
  simp only [backlog, hsplit, select_append, select_cons, hstate, decide_true, if_true,
    List.map_append, List.map_cons]

private theorem StoresContents.settle {contents : Contents} {state : ClaimState}
    (h : p.StoresContents contents)
    (hsplit : p.claims = cs ++ c :: ds) (hstate : c.state = .allocated)
    (hnew : state ≠ .consumed) : (p.setState cs.length c state).StoresContents contents := by
  have hget : p.claims[cs.length]? = some c := by
    rw [hsplit, List.getElem?_append_right (Nat.le_refl _), Nat.sub_self]
    rfl
  apply h.mark hsplit
  · rw [hstate]
    decide
  · refine setState_invariant h.invariant hget (fun hi => ?_) fun _ => hnew
    have := h.invariant.passed _ c hget hi
    simp [hstate] at this

private theorem backlog_replace {q : Pool} {d : Claim} {contents after : Contents}
    (hi : p.Invariant) (hsplit : p.claims = cs ++ c :: ds) (hstate : c.state = .allocated)
    (hclaims : q.claims = cs ++ d :: ds) (hcapacity : q.capacity = p.capacity)
    (hpatience : q.patience = p.patience) (hnextSeq : q.nextSeq = p.nextSeq)
    (hclosed : q.isClosed = p.isClosed) (hd : d.state ≠ .consumed)
    (hafter : ∀ ticket, ticket ≠ c.seq → after ticket = contents ticket) :
    q.backlog after =
      (p.backlog contents).withWaiting ((select ClaimState.waits cs).map (Claim.parcel contents) ++
        ((select ClaimState.waits [d]).map (Claim.parcel after) ++
          (select ClaimState.waits ds).map (Claim.parcel contents))) := by
  have hother (e : Claim) (he : e ∈ cs ++ ds) : after e.seq = contents e.seq :=
    hafter e.seq (seq_ne_of_split hi hsplit he)
  have hcs := map_parcel_congr fun e he => hother e (List.mem_append_left ds he)
  have hds := map_parcel_congr fun e he => hother e (List.mem_append_right cs he)
  have hcons : d :: ds = [d] ++ ds := rfl
  have hdnone : select (· = .consumed) [d] = [] := select_eq_nil (by simp [hd])
  have hcnone : select (· = .consumed) (c :: ds) = select (· = .consumed) ds := by
    rw [select_cons, hstate]
    rfl
  simp only [backlog, Backlog.withWaiting, hclaims, hcons, hsplit, hcapacity, hpatience, hnextSeq, hclosed,
    select_append, List.map_append, hcs, hds, hdnone, hcnone, List.nil_append]

private theorem backlog_put (hi : p.Invariant) (hsplit : p.claims = cs ++ c :: ds)
    (hstate : c.state = .allocated) (contents : Contents) (bytes : List UInt8) :
    (p.putAt c.offset bytes).backlog (contents.put c.seq bytes) =
      (p.backlog contents).withWaiting ((select ClaimState.waits cs).map (Claim.parcel contents) ++
        (c.parcel contents).put bytes ::
          (select ClaimState.waits ds).map (Claim.parcel contents)) := by
  have hafter (ticket : Nat) (hne : ticket ≠ c.seq) :
      contents.put c.seq bytes ticket = contents ticket := Contents.put_other hne
  have hreplace := backlog_replace (q := p.putAt c.offset bytes) hi hsplit hstate hsplit
    rfl rfl rfl rfl (by simp [hstate]) hafter
  rw [hreplace, select_single (hstate ▸ rfl), List.map_singleton, Claim.parcel_put]
  rfl

private theorem backlog_submit (hi : p.Invariant) (hsplit : p.claims = cs ++ c :: ds)
    (hstate : c.state = .allocated) {contents after : Contents}
    (hafter : ∀ ticket, ticket ≠ c.seq → after ticket = contents ticket) :
    (p.setState cs.length c .submitted).backlog after =
      (p.backlog contents).withWaiting ((select ClaimState.waits cs).map (Claim.parcel contents) ++
        (c.parcel after).submit ::
          (select ClaimState.waits ds).map (Claim.parcel contents)) := by
  rw [backlog_replace hi hsplit hstate (setState_of_split hsplit .submitted) rfl rfl rfl rfl
    (by simp) hafter, select_single rfl]
  rfl

private theorem backlog_giveBack (hi : p.Invariant) (hsplit : p.claims = cs ++ c :: ds)
    (hstate : c.state = .allocated) (contents : Contents) :
    (p.setState cs.length c .released).reclaim.backlog contents =
      (p.backlog contents).withWaiting ((select ClaimState.waits cs).map (Claim.parcel contents) ++
        (select ClaimState.waits ds).map (Claim.parcel contents)) := by
  have hgone : select ClaimState.waits [{ c with state := .released }] = [] := rfl
  rw [backlog_reclaim, backlog_replace hi hsplit hstate (setState_of_split hsplit .released)
    rfl rfl rfl rfl (by simp) fun _ _ => rfl, hgone]
  rfl

private theorem backlog_release (hsplit : p.claims = cs ++ c :: ds) (hstate : c.state = .consumed)
    (contents : Contents) :
    (p.setState cs.length c .released).reclaim.backlog contents =
      (p.backlog contents).withDelivered
        ((select (· = .consumed) cs).map (Claim.parcel contents) ++
          (select (· = .consumed) ds).map (Claim.parcel contents)) := by
  have hclaims := setState_of_split hsplit .released
  have hwaits : ClaimState.waits c.state = false := by rw [hstate]; rfl
  have hwaiting : select ClaimState.waits (p.setState cs.length c .released).claims =
      select ClaimState.waits p.claims := by
    rw [select_of_split hclaims rfl, select_of_split hsplit hwaits]
  have hdelivered : select (· = .consumed) (p.setState cs.length c .released).claims =
      select (· = .consumed) (cs ++ ds) := select_of_split hclaims rfl
  rw [backlog_reclaim]
  simp only [backlog, Backlog.withDelivered, hwaiting, hdelivered, select_append, List.map_append]
  rfl

/-- The consumer takes a submitted claim that only taken and released ones precede; or the oldest
claim that it has not taken is not ready. -/
theorem next_split (hi : p.Invariant) :
    (∃ k, p.next = ({ p with cursor := k }, none) ∧
      ∀ contents x, (p.backlog contents).waiting.head? = some x → x.ready = false) ∨
    (∃ cs c ds, p.claims = cs ++ c :: ds ∧ c.state = .submitted ∧
      (∀ e ∈ cs, e.state = .consumed ∨ e.state = .released) ∧
      (∀ e ∈ ds, e.state ≠ .consumed) ∧
      p.next = ({ p.setState cs.length c .consumed with cursor := cs.length + 1 },
        some (.ofClaim c))) := by
  obtain ⟨k, hlow, hhigh, hskipped, hcases⟩ := next_cases p hi.cursor
  have hpassed (e : Claim) (he : e ∈ p.claims.take k) : e.state = .consumed ∨ e.state = .released := by
    obtain ⟨i, hget⟩ := List.mem_iff_getElem?.mp he
    rw [List.getElem?_take] at hget
    split at hget
    · next hik =>
      by_cases hcursor : i < p.cursor
      · exact hi.passed i e hget hcursor
      · exact Or.inr (hskipped i e hget (Nat.le_of_not_lt hcursor) hik)
    · cases hget
  have hnone : select ClaimState.waits (p.claims.take k) = [] := by
    apply select_eq_nil
    intro e he
    rcases hpassed e he with hstate | hstate <;> rw [hstate] <;> rfl
  have hsplit {c : Claim} (hc : p.claims[k]? = some c) :
      p.claims = p.claims.take k ++ c :: p.claims.drop (k + 1) ∧ (p.claims.take k).length = k := by
    obtain ⟨hlt, rfl⟩ := List.getElem?_eq_some_iff.mp hc
    rw [List.getElem_cons_drop, List.take_append_drop, List.length_take]
    exact ⟨rfl, Nat.min_eq_left hhigh⟩
  rcases hcases with ⟨hend, hnext⟩ | ⟨c, hc, hheld, hsubmitted, hnext⟩ | ⟨c, hc, hsubmitted, hnext⟩
  · refine Or.inl ⟨k, hnext, ?_⟩
    intro contents x hx
    rw [hend, List.take_length] at hnone
    simp [backlog, hnone] at hx
  · refine Or.inl ⟨k, hnext, ?_⟩
    intro contents x hx
    have hstate : c.state = .allocated := by
      cases hcase : c.state with
      | allocated => rfl
      | submitted => exact absurd hcase hsubmitted
      | consumed => exact absurd hcase (hi.ahead k c hc hlow)
      | released => exact absurd hcase hheld
    rw [waiting_of_split (hsplit hc).1 (hstate ▸ rfl), hnone] at hx
    obtain rfl : c.parcel contents = x := by simpa using hx
    simp [Claim.parcel, hstate]
  · refine Or.inr ⟨p.claims.take k, c, p.claims.drop (k + 1), (hsplit hc).1, hsubmitted, hpassed,
      ?_, by rw [(hsplit hc).2]; exact hnext⟩
    intro e he
    obtain ⟨i, hget⟩ := List.mem_iff_getElem?.mp he
    rw [List.getElem?_drop] at hget
    exact hi.ahead _ e hget (by omega)

private theorem oldest_of_split {q : Pool} {d : Claim} (hsplit : p.claims = cs ++ c :: ds)
    (holdest : ∀ e, p.claims.head? = some e → e.state ≠ .released)
    (hclaims : q.claims = cs ++ d :: ds) (hd : d.state ≠ .released) :
    ∀ e, q.claims.head? = some e → e.state ≠ .released := by
  rw [hsplit] at holdest
  rw [hclaims]
  cases cs with
  | nil => simpa using hd
  | cons first rest => exact holdest

end Pool

namespace Traffic

variable {t : Traffic} {contents : Contents}

/-- A turn does to the pool what it may do to the backlog. -/
def FollowsBacklog (t : Traffic) (contents : Contents) (turn : Turn) : Prop :=
  ∃ after, (t.step turn).1.Models after ∧
    (t.pool.backlog contents).Step turn (t.step turn).2 ((t.step turn).1.pool.backlog after)

private theorem followsBacklog_of_step {turn : Turn} {next : Traffic} {reply : Reply}
    {after : Contents} (hstep : t.step turn = (next, reply)) (hmodels : next.Models after)
    (hbacklog : (t.pool.backlog contents).Step turn reply (next.pool.backlog after)) :
    t.FollowsBacklog contents turn := by
  rw [FollowsBacklog, hstep]
  exact ⟨after, hmodels, hbacklog⟩

private theorem Models.filling_cases (h : t.Models contents) (ticket : Nat) :
    (pointer? t.filling ticket = none ∧
      ∀ x ∈ (t.pool.backlog contents).waiting, x.ticket = ticket → x.ready = true) ∨
    (∃ cs c ds, t.pool.claims = cs ++ c :: ds ∧ c.state = .allocated ∧ c.seq = ticket ∧
      pointer? t.filling ticket = some (.ofClaim c)) := by
  cases hpointer : pointer? t.filling ticket with
  | none =>
    refine Or.inl ⟨rfl, ?_⟩
    intro x hx hticket
    obtain ⟨c, hc, rfl⟩ := List.mem_map.mp hx
    rw [h.filling] at hpointer
    have hother := pointer?_none hpointer c (mem_select.mp hc).1
    by_cases hstate : c.state = .allocated
    · exact absurd hticket (hother (decide_eq_true hstate))
    · exact decide_eq_true hstate
  | some pointer =>
    rw [h.filling] at hpointer
    obtain ⟨cs, c, ds, hsplit, hstate, hticket, rfl⟩ := pointer?_some hpointer
    exact Or.inr ⟨cs, c, ds, hsplit, of_decide_eq_true hstate, hticket, rfl⟩

private theorem Models.taken_cases (h : t.Models contents) (ticket : Nat) :
    (pointer? t.taken ticket = none ∧
      ∀ x ∈ (t.pool.backlog contents).delivered, x.ticket ≠ ticket) ∨
    (∃ cs c ds, t.pool.claims = cs ++ c :: ds ∧ c.state = .consumed ∧ c.seq = ticket ∧
      pointer? t.taken ticket = some (.ofClaim c)) := by
  cases hpointer : pointer? t.taken ticket with
  | none =>
    refine Or.inl ⟨rfl, ?_⟩
    intro x hx
    obtain ⟨c, hc, rfl⟩ := List.mem_map.mp hx
    rw [h.taken] at hpointer
    exact pointer?_none hpointer c (mem_select.mp hc).1 (mem_select.mp hc).2
  | some pointer =>
    rw [h.taken] at hpointer
    obtain ⟨cs, c, ds, hsplit, hstate, hticket, rfl⟩ := pointer?_some hpointer
    exact Or.inr ⟨cs, c, ds, hsplit, of_decide_eq_true hstate, hticket, rfl⟩

private theorem Models.length_contents {cs ds : List Claim} {c : Claim} (h : t.Models contents)
    (hsplit : t.pool.claims = cs ++ c :: ds) (hstate : c.state ≠ .released) :
    (contents c.seq).length = c.size :=
  (h.stores.carries c (by rw [hsplit]; simp) hstate).1

private theorem Models.usedUp {q : Pool} {after : Contents} {cs ds : List Claim} {c : Claim}
    (h : t.Models contents) (hsplit : t.pool.claims = cs ++ c :: ds)
    (hstate : c.state = .allocated) (hq : q.StoresContents after)
    (holdest : ∀ e, q.claims.head? = some e → e.state ≠ .released)
    (hselect : ∀ f : ClaimState → Bool, f .submitted = false → f .released = false →
      select f q.claims = select f (cs ++ ds)) :
    ({ t with pool := q, filling := without t.filling c.seq } : Traffic).Models after where
  stores := hq
  oldest := holdest
  filling := by
    rw [hselect _ rfl rfl, h.filling]
    exact without_select (Pool.seq_nodup h.stores.invariant) hsplit (by simp [hstate])
  taken := by
    rw [hselect _ rfl rfl, h.taken, select_of_split hsplit (by simp [hstate])]

theorem followsBacklog_write (h : t.Models contents) (ticket : Nat) (bytes : List UInt8) :
    t.FollowsBacklog contents (.write ticket bytes) := by
  rcases h.filling_cases ticket with ⟨hnone, hall⟩ | ⟨cs, c, ds, hsplit, hstate, rfl, hpointer⟩
  · exact followsBacklog_of_step (by simp [step, hnone]) h (.fillsNone rfl hall)
  · have hi := h.stores.invariant
    have hwaiting := Pool.waiting_of_split hsplit (hstate ▸ rfl) contents
    have hlength := h.length_contents hsplit (by simp [hstate])
    have hwrite := Pool.write_of_split hi hsplit hstate bytes
    have hready : (c.parcel contents).ready = false := by simp [Claim.parcel, hstate]
    by_cases hlen : bytes.length ≤ c.size
    · rw [if_pos hlen] at hwrite
      have hstep : t.step (.write c.seq bytes) =
          ({ t with pool := t.pool.putAt c.offset bytes }, .done) := by
        simp [step, hpointer, hwrite, Reply.ofResult]
      have hput := h.stores.put hsplit hstate hlen
      refine followsBacklog_of_step hstep ⟨hput, h.oldest, h.filling, h.taken⟩ ?_
      rw [Pool.backlog_put hi hsplit hstate]
      exact .write hwaiting hready (hlength ▸ hlen)
    · rw [if_neg hlen] at hwrite
      have hstep : t.step (.write c.seq bytes) =
          (t, .refused (.overflow bytes.length c.size)) := by
        simp [step, hpointer, hwrite, Reply.ofResult]
      refine followsBacklog_of_step hstep h ?_
      rw [← hlength]
      exact .writeRefused hwaiting hready (hlength ▸ Nat.lt_of_not_le hlen)

private theorem select_settled {f : ClaimState → Bool} {p : Pool} {cs ds : List Claim} {c : Claim}
    {state : ClaimState} (hsplit : p.claims = cs ++ c :: ds) (hf : f state = false) :
    select f (p.setState cs.length c state).claims = select f (cs ++ ds) :=
  select_of_split (Pool.setState_of_split hsplit state) hf

private theorem Models.submitted {after : Contents} {q : Pool} {cs ds : List Claim} {c : Claim}
    (h : t.Models contents) (hsplit : t.pool.claims = cs ++ c :: ds)
    (hstate : c.state = .allocated) (hq : q.StoresContents after) (hclaims : q.claims = t.pool.claims) :
    ({ t with
        pool := q.setState cs.length c .submitted
        filling := without t.filling c.seq } : Traffic).Models after := by
  have hqsplit := hclaims.trans hsplit
  refine h.usedUp hsplit hstate (hq.settle hqsplit hstate (by simp)) ?_ fun f hf _ => ?_
  · have holdest := h.oldest
    rw [← hclaims] at holdest
    exact Pool.oldest_of_split hqsplit holdest (Pool.setState_of_split hqsplit _) (by simp)
  · exact select_settled hqsplit hf

private theorem Models.givenBack {cs ds : List Claim} {c : Claim} (h : t.Models contents)
    (hsplit : t.pool.claims = cs ++ c :: ds) (hstate : c.state = .allocated) :
    ({ t with
        pool := (t.pool.setState cs.length c .released).reclaim
        filling := without t.filling c.seq } : Traffic).Models contents := by
  refine h.usedUp hsplit hstate (h.stores.settle hsplit hstate (by simp)).reclaim
    (reclaim_oldest _) fun f _ hf => ?_
  rw [select_reclaim _ hf]
  exact select_settled hsplit hf

theorem followsBacklog_submit (h : t.Models contents) (ticket : Nat) :
    t.FollowsBacklog contents (.submit ticket) := by
  rcases h.filling_cases ticket with ⟨hnone, hall⟩ | ⟨cs, c, ds, hsplit, hstate, rfl, hpointer⟩
  · exact followsBacklog_of_step (by simp [step, hnone]) h (.fillsNone rfl hall)
  · have hi := h.stores.invariant
    have hstep : t.step (.submit c.seq) =
        ({ t with
            pool := t.pool.setState cs.length c .submitted
            filling := without t.filling c.seq }, .done) := by
      simp [step, hpointer, Pool.submit_of_split hi hsplit hstate, Reply.ofResult]
    refine followsBacklog_of_step hstep (h.submitted hsplit hstate h.stores rfl) ?_
    rw [Pool.backlog_submit hi hsplit hstate fun _ _ => rfl]
    exact .submit (Pool.waiting_of_split hsplit (hstate ▸ rfl) contents)
      (by simp [Claim.parcel, hstate])

private theorem followsBacklog_commit (h : t.Models contents) (ticket : Nat) (bytes : List UInt8) :
    t.FollowsBacklog contents (.commit ticket bytes) := by
  rcases h.filling_cases ticket with ⟨hnone, hall⟩ | ⟨cs, c, ds, hsplit, hstate, rfl, hpointer⟩
  · exact followsBacklog_of_step (by simp [step, hnone]) h (.fillsNone rfl hall)
  · have hi := h.stores.invariant
    have hwaiting := Pool.waiting_of_split hsplit (hstate ▸ rfl) contents
    have hlength := h.length_contents hsplit (by simp [hstate])
    have hcommit := Pool.commit_of_split hi hsplit hstate bytes
    have hready : (c.parcel contents).ready = false := by simp [Claim.parcel, hstate]
    by_cases hlen : bytes.length ≤ c.size
    · rw [if_pos hlen] at hcommit
      have hput := h.stores.put hsplit hstate hlen
      have hstep : t.step (.commit c.seq bytes) =
          ({ t with
              pool := (t.pool.putAt c.offset bytes).setState cs.length c .submitted
              filling := without t.filling c.seq }, .done) := by
        simp [step, hpointer, hcommit, Reply.ofResult]
      refine followsBacklog_of_step hstep (h.submitted hsplit hstate hput rfl) ?_
      have hother (other : Nat) (hne : other ≠ c.seq) :
          contents.put c.seq bytes other = contents other := Contents.put_other hne
      have hsubmit := Pool.backlog_submit (p := t.pool.putAt c.offset bytes) hput.invariant hsplit
        hstate hother
      rw [hsubmit, Claim.parcel_put]
      exact .commit hwaiting hready (hlength ▸ hlen)
    · rw [if_neg hlen] at hcommit
      have hstep : t.step (.commit c.seq bytes) =
          ({ t with
              pool := (t.pool.setState cs.length c .released).reclaim
              filling := without t.filling c.seq },
            .refused (.overflow bytes.length c.size)) := by
        simp [step, hpointer, hcommit, Reply.ofResult]
      refine followsBacklog_of_step hstep (h.givenBack hsplit hstate) ?_
      rw [Pool.backlog_giveBack hi hsplit hstate, ← hlength]
      exact .commitRefused hwaiting hready (hlength ▸ Nat.lt_of_not_le hlen)

private theorem followsBacklog_abandon (h : t.Models contents) (ticket : Nat) :
    t.FollowsBacklog contents (.abandon ticket) := by
  rcases h.filling_cases ticket with ⟨hnone, hall⟩ | ⟨cs, c, ds, hsplit, hstate, rfl, hpointer⟩
  · exact followsBacklog_of_step (by simp [step, hnone]) h (.fillsNone rfl hall)
  · have hi := h.stores.invariant
    have hrelease := Pool.release_of_split hi hsplit (by simp [hstate])
    have hstep : t.step (.abandon c.seq) =
        ({ t with
            pool := (t.pool.setState cs.length c .released).reclaim
            filling := without t.filling c.seq }, .done) := by
      simp [step, hpointer, hrelease, Reply.ofResult]
    refine followsBacklog_of_step hstep (h.givenBack hsplit hstate) ?_
    rw [Pool.backlog_giveBack hi hsplit hstate]
    exact .abandon (Pool.waiting_of_split hsplit (hstate ▸ rfl) contents)
      (by simp [Claim.parcel, hstate])

theorem followsBacklog_close (h : t.Models contents) : t.FollowsBacklog contents .close := by
  have hi := h.stores.invariant
  have hclosed : t.pool.close.StoresContents contents :=
    ⟨⟨hi.layout, hi.start, hi.rounded, hi.seq, hi.inUse, hi.highWater, hi.cursor, hi.passed,
      hi.ahead⟩, h.stores.arena, h.stores.size, h.stores.carries⟩
  exact followsBacklog_of_step rfl ⟨hclosed, h.oldest, h.filling, h.taken⟩ .close

theorem followsBacklog_read (h : t.Models contents) (ticket : Nat) :
    t.FollowsBacklog contents (.read ticket) := by
  rcases h.taken_cases ticket with ⟨hnone, hall⟩ | ⟨cs, c, ds, hsplit, hstate, rfl, hpointer⟩
  · exact followsBacklog_of_step (by simp [step, hnone]) h (.tookNone rfl hall)
  · obtain ⟨bytes, hread, hlength, hbytes⟩ := h.stores.read hsplit (by simp [hstate])
    have hstep : t.step (.read c.seq) = (t, .bytes bytes) := by simp [step, hpointer, hread]
    have hmem : c.parcel contents ∈ (t.pool.backlog contents).delivered := by
      rw [Pool.delivered_of_split hsplit hstate]
      simp
    exact followsBacklog_of_step hstep h (.read hmem hlength hbytes)

theorem followsBacklog_release (h : t.Models contents) (ticket : Nat) :
    t.FollowsBacklog contents (.release ticket) := by
  rcases h.taken_cases ticket with ⟨hnone, hall⟩ | ⟨cs, c, ds, hsplit, hstate, rfl, hpointer⟩
  · exact followsBacklog_of_step (by simp [step, hnone]) h (.tookNone rfl hall)
  · have hi := h.stores.invariant
    have hheld : c.state ≠ .released := by simp [hstate]
    have hget : t.pool.claims[cs.length]? = some c := by
      rw [hsplit, List.getElem?_append_right (Nat.le_refl _), Nat.sub_self]
      rfl
    have hreleased := h.stores.mark hsplit hheld
      (Pool.setState_invariant hi hget (fun _ => Or.inr rfl) (by simp))
    have hstep : t.step (.release c.seq) =
        ({ t with
            pool := (t.pool.setState cs.length c .released).reclaim
            taken := without t.taken c.seq }, .done) := by
      simp [step, hpointer, Pool.release_of_split hi hsplit hheld, Reply.ofResult]
    have hmodels : ({ t with
        pool := (t.pool.setState cs.length c .released).reclaim
        taken := without t.taken c.seq } : Traffic).Models contents := by
      refine ⟨hreleased.reclaim, reclaim_oldest _, ?_, ?_⟩
      · rw [select_reclaim _ rfl, select_settled hsplit rfl, h.filling,
          select_of_split hsplit (by simp [hstate])]
      · rw [select_reclaim _ rfl, select_settled hsplit rfl, h.taken]
        exact without_select (Pool.seq_nodup hi) hsplit (by simp [hstate])
    refine followsBacklog_of_step hstep hmodels ?_
    rw [Pool.backlog_release hsplit hstate]
    exact .release (Pool.delivered_of_split hsplit hstate contents)

theorem followsBacklog_next (h : t.Models contents) : t.FollowsBacklog contents .next := by
  have hi := h.stores.invariant
  have hafter := Pool.next_invariant hi
  rcases Pool.next_split hi with ⟨k, hnext, hhead⟩ |
    ⟨cs, c, ds, hsplit, hstate, hpassed, hahead, hnext⟩
  · rw [hnext] at hafter
    have hholds : ({ t.pool with cursor := k } : Pool).StoresContents contents :=
      ⟨hafter, h.stores.arena, h.stores.size, h.stores.carries⟩
    have hstep : t.step .next = ({ t with pool := { t.pool with cursor := k } }, .nothing) := by
      simp [step, hnext]
    exact followsBacklog_of_step hstep ⟨hholds, h.oldest, h.filling, h.taken⟩
      (.nothing (hhead contents))
  · rw [hnext] at hafter
    have hholds := h.stores.mark hsplit (by simp [hstate]) hafter
    have hclaims := Pool.setState_of_split hsplit .consumed
    have hstep : t.step .next =
        ({ t with
            pool := { t.pool.setState cs.length c .consumed with cursor := cs.length + 1 }
            taken := t.taken ++ [.ofClaim c] }, .delivered c.seq) := by
      simp only [step, hnext]
      rfl
    have hwaits : select ClaimState.waits cs = [] := by
      apply select_eq_nil
      intro e he
      rcases hpassed e he with hstate | hstate <;> rw [hstate] <;> rfl
    have hnone : select (· = .consumed) ds = [] := select_eq_nil (by simpa using hahead)
    have htaken : select (· = .consumed) t.pool.claims = select (· = .consumed) cs := by
      rw [select_of_split hsplit (by simp [hstate]), select_append, hnone, List.append_nil]
    have hdelivered : select (· = .consumed) (t.pool.setState cs.length c .consumed).claims =
        select (· = .consumed) cs ++ [{ c with state := .consumed }] := by
      rw [hclaims, select_append, select_cons, hnone]
      rfl
    have hmodels : ({ t with
        pool := { t.pool.setState cs.length c .consumed with cursor := cs.length + 1 }
        taken := t.taken ++ [.ofClaim c] } : Traffic).Models contents := by
      refine ⟨hholds, Pool.oldest_of_split hsplit h.oldest hclaims (by simp), ?_, ?_⟩
      · rw [h.filling, select_of_split hsplit (by simp [hstate]), select_settled hsplit rfl]
      · rw [h.taken, htaken, hdelivered, List.map_append]
        rfl
    refine followsBacklog_of_step hstep hmodels ?_
    have hwaiting := Pool.waiting_of_split hsplit (hstate ▸ rfl) contents
    rw [hwaits] at hwaiting
    have hbacklog : Pool.backlog { t.pool.setState cs.length c .consumed with
        cursor := cs.length + 1 } contents =
        ((t.pool.backlog contents).withWaiting
          ((select ClaimState.waits ds).map (Claim.parcel contents))).withDelivered
            ((t.pool.backlog contents).delivered ++ [c.parcel contents]) := by
      have hparcel : Claim.parcel contents { c with state := .consumed } = c.parcel contents := by
        simp [Claim.parcel, hstate]
      have hrest : select ClaimState.waits (t.pool.setState cs.length c .consumed).claims =
          select ClaimState.waits ds := by
        rw [select_settled hsplit rfl, select_append, hwaits, List.nil_append]
      simp only [Pool.backlog, hrest, hdelivered, htaken, List.map_append, List.map_singleton, hparcel]
      rfl
    rw [hbacklog]
    exact .next hwaiting (by simp [Claim.parcel, hstate])

theorem Models.claims_nil (h : t.Models contents)
    (hwaiting : (t.pool.backlog contents).waiting = [])
    (hdelivered : (t.pool.backlog contents).delivered = []) : t.pool.claims = [] := by
  cases hclaims : t.pool.claims with
  | nil => rfl
  | cons oldest rest =>
    have hheld := h.oldest oldest (by rw [hclaims]; rfl)
    have hmem : oldest ∈ t.pool.claims := by rw [hclaims]; exact List.mem_cons_self
    cases hstate : oldest.state with
    | allocated | submitted =>
      have hselect : oldest ∈ select ClaimState.waits t.pool.claims :=
        mem_select.mpr ⟨hmem, by rw [hstate]; rfl⟩
      exact absurd (List.map_eq_nil_iff.mp hwaiting) (List.ne_nil_of_mem hselect)
    | consumed =>
      have hselect : oldest ∈ select (· = .consumed) t.pool.claims :=
        mem_select.mpr ⟨hmem, by rw [hstate]; rfl⟩
      exact absurd (List.map_eq_nil_iff.mp hdelivered) (List.ne_nil_of_mem hselect)
    | released => exact absurd hstate hheld

/-- Where a request finds no room though the pool is large enough, something is held. -/
theorem Models.held (h : t.Models contents) {rounded : Nat} (hrounded : rounded ≤ t.pool.capacity)
    (hfit : t.pool.fit? rounded = none) :
    (t.pool.backlog contents).waiting ≠ [] ∨ (t.pool.backlog contents).delivered ≠ [] := by
  by_contra hnone
  obtain ⟨hwaiting, hdelivered⟩ := not_or.mp hnone
  have hclaims := h.claims_nil (not_not.mp hwaiting) (not_not.mp hdelivered)
  rw [Pool.fit?, hclaims] at hfit
  simp [hrounded] at hfit

private theorem Models.refuse (h : t.Models contents) {bytes : Nat} {q : Pool} {e : PoolError}
    (hmeasures : t.pool.Measures bytes) (hallocate : t.pool.allocate bytes = (q, .error e)) :
    (t.pool.backlog contents).Refuses bytes e ∧ ({ t with pool := q } : Traffic).Models contents ∧
      q.backlog contents = t.pool.backlog contents := by
  have hi := h.stores.invariant
  have hcheck := Pool.checkRequest_eq hmeasures
  by_cases hfits : Backlog.reserve bytes ≤ t.pool.capacity
  · rw [if_pos hfits] at hcheck
    rcases Pool.allocate_cases t.pool bytes with ⟨_, _, _, _, _, hcase⟩ |
      ⟨rounded, hok, hopen, hfit, hcase⟩ | ⟨_, _, hclosed, hcase⟩ | ⟨herror, _⟩
    · rw [hcase] at hallocate
      cases hallocate
    · rw [hcase] at hallocate
      obtain ⟨rfl, rfl⟩ : _ ∧ PoolError.timeout t.pool.patience = e := by simpa using hallocate
      obtain rfl : Backlog.reserve bytes = rounded := by simpa [hcheck] using hok
      have hholds : ({ t.pool with
          tally.waits := t.pool.tally.waits + 1
          tally.timeouts := t.pool.tally.timeouts + 1 } : Pool).StoresContents contents :=
        ⟨⟨hi.layout, hi.start, hi.rounded, hi.seq, hi.inUse, hi.highWater, hi.cursor, hi.passed,
          hi.ahead⟩, h.stores.arena, h.stores.size, h.stores.carries⟩
      exact ⟨.timeout hfits hopen (h.held hfits hfit), ⟨hholds, h.oldest, h.filling, h.taken⟩, rfl⟩
    · rw [hcase] at hallocate
      obtain ⟨rfl, rfl⟩ : t.pool = q ∧ PoolError.closed = e := by simpa using hallocate
      exact ⟨.closed hfits hclosed, h, rfl⟩
    · rw [hcheck] at herror
      cases herror
  · rw [if_neg hfits] at hcheck
    have hrefused : t.pool.allocate bytes = (t.pool, .error (.tooLarge bytes t.pool.capacity)) := by
      rw [Pool.allocate, hcheck]
    obtain ⟨rfl, rfl⟩ : t.pool = q ∧ PoolError.tooLarge bytes t.pool.capacity = e := by
      simpa [hrefused] using hallocate
    exact ⟨.tooLarge (Nat.lt_of_not_le hfits), h, rfl⟩

/-- A request that is granted adds a claim behind all others. -/
theorem Models.grant (h : t.Models contents) {bytes : Nat} {q : Pool} {pointer : ClaimPointer}
    (hmeasures : t.pool.Measures bytes) (hallocate : t.pool.allocate bytes = (q, .ok pointer)) :
    ∃ (c : Claim) (after : Contents), pointer = .ofClaim c ∧ c.seq = t.pool.nextSeq ∧
      c.size = bytes ∧ c.state = .allocated ∧ q.claims = t.pool.claims ++ [c] ∧
      Backlog.reserve bytes ≤ t.pool.capacity ∧ t.pool.isClosed = false ∧
      ({ t with pool := q, filling := t.filling ++ [pointer] } : Traffic).Models after ∧
      q.backlog after = (t.pool.backlog contents).enqueue (.replicate bytes none) false := by
  have hcheck := Pool.checkRequest_eq hmeasures
  rcases Pool.allocate_cases t.pool bytes with ⟨rounded, offset, hok, hopen, hfit, hcase⟩ |
    ⟨_, _, _, _, hcase⟩ | ⟨_, _, _, hcase⟩ | ⟨_, hcase⟩
  · obtain ⟨rfl, rfl⟩ : _ ∧ _ := by simpa [hcase] using hallocate
    have hfits : Backlog.reserve bytes ≤ t.pool.capacity := by
      by_cases hfits : Backlog.reserve bytes ≤ t.pool.capacity
      · exact hfits
      · simp [hcheck, hfits] at hok
    let c : Claim := ⟨t.pool.nextSeq, offset, bytes, rounded, .allocated⟩
    have hclaims : (t.pool.claimAt bytes rounded offset).1.claims = t.pool.claims ++ [c] := rfl
    refine ⟨c, contents.assign t.pool.nextSeq (.replicate bytes none), rfl, rfl, rfl, rfl, hclaims,
      hfits, hopen, ⟨h.stores.claimAt hmeasures hok hfit, ?_, ?_, ?_⟩, ?_⟩
    · intro e he
      cases hold : t.pool.claims with
      | nil =>
        obtain rfl : c = e := by simpa [hclaims, hold] using he
        simp [c]
      | cons oldest rest =>
        have hsame : oldest = e := by simpa [hclaims, hold] using he
        exact h.oldest e (by simp [hold, hsame])
    · rw [hclaims, select_append, List.map_append, h.filling]
      rfl
    · have hnone : select (· = .consumed) [c] = [] := rfl
      rw [hclaims, select_append, hnone, List.append_nil]
      exact h.taken
    · have hother (e : Claim) (he : e ∈ t.pool.claims) :
          contents.assign t.pool.nextSeq (.replicate bytes none) e.seq = contents e.seq :=
        Contents.assign_other (Nat.ne_of_lt (Pool.seq_lt h.stores.invariant he))
      have hparcel : c.parcel (contents.assign t.pool.nextSeq (.replicate bytes none)) =
          ⟨t.pool.nextSeq, .replicate bytes none, false⟩ := by
        rw [Claim.parcel, Contents.assign_same]
        rfl
      have hnew : select ClaimState.waits [c] = [c] := rfl
      have hnone : select (· = .consumed) [c] = [] := rfl
      simp only [Pool.backlog, Backlog.enqueue, hclaims, select_append, List.map_append,
        map_parcel_congr hother, hnew, hnone, List.map_singleton, hparcel,
        List.append_nil]
      rfl
  all_goals
    rw [hcase] at hallocate
    cases hallocate

private theorem followsBacklog_allocate (h : t.Models contents) {bytes : Nat}
    (hmeasures : t.pool.Measures bytes) :
    t.FollowsBacklog contents (.allocate bytes) := by
  cases hallocate : t.pool.allocate bytes with
  | mk q result =>
    cases result with
    | error e =>
      obtain ⟨hrefuses, hmodels, hbacklog⟩ := h.refuse hmeasures hallocate
      have hstep : t.step (.allocate bytes) = ({ t with pool := q }, .refused e) := by
        simp [step, hallocate]
      refine followsBacklog_of_step hstep hmodels ?_
      rw [hbacklog]
      exact .allocateRefused hrefuses
    | ok pointer =>
      obtain ⟨c, after, hpointer, hseq, _, _, _, hfits, hopen, hmodels, hbacklog⟩ :=
        h.grant hmeasures hallocate
      have hstep : t.step (.allocate bytes) =
          ({ t with pool := q, filling := t.filling ++ [pointer] }, .claimed t.pool.nextSeq) := by
        simp [step, hallocate, hpointer, ClaimPointer.ofClaim, hseq]
      refine followsBacklog_of_step hstep hmodels ?_
      rw [hbacklog]
      exact .allocate hfits hopen

private theorem followsBacklog_push (h : t.Models contents) {bytes : List UInt8}
    (hmeasures : t.pool.Measures bytes.length) :
    t.FollowsBacklog contents (.push bytes) := by
  cases hallocate : t.pool.allocate bytes.length with
  | mk q result =>
    cases result with
    | error e =>
      obtain ⟨hrefuses, hmodels, hbacklog⟩ := h.refuse hmeasures hallocate
      have hstep : t.step (.push bytes) = ({ t with pool := q }, .refused e) := by
        simp [step, Pool.push, hallocate, Reply.ofResult]
      refine followsBacklog_of_step hstep hmodels ?_
      rw [hbacklog]
      exact .pushRefused hrefuses
    | ok pointer =>
      obtain ⟨c, after, rfl, hseq, hsize, hstate, hsplit, hfits, hopen, hmodels, hbacklog⟩ :=
        h.grant hmeasures hallocate
      have hi := hmodels.stores.invariant
      have hlen : bytes.length ≤ c.size := Nat.le_of_eq hsize.symm
      have hput := hmodels.stores.put hsplit hstate hlen
      have hcommit := Pool.commit_of_split hi hsplit hstate bytes
      rw [if_pos hlen] at hcommit
      have hstep : t.step (.push bytes) =
          ({ t with
              pool := (q.putAt c.offset bytes).setState t.pool.claims.length c .submitted },
            .done) := by
        simp [step, Pool.push, hallocate, hcommit, Reply.ofResult]
      -- The producer never sees the pointer, so that it has the same pointers as before.
      have hfilling : without (t.filling ++ [.ofClaim c]) c.seq = t.filling := by
        have hselect := without_select (f := (· = .allocated)) (Pool.seq_nodup hi) hsplit
          (by simp [hstate])
        rw [← hmodels.filling, List.append_nil, ← h.filling] at hselect
        exact hselect
      have hsubmitted := hmodels.submitted hsplit hstate hput rfl
      simp only [hfilling] at hsubmitted
      refine followsBacklog_of_step hstep hsubmitted ?_
      have hwaiting := Pool.waiting_of_split hsplit (hstate ▸ rfl) after
      rw [hbacklog] at hwaiting
      obtain ⟨hold, hnew⟩ := List.append_inj' hwaiting rfl
      have hparcel : c.parcel after = ⟨t.pool.nextSeq, .replicate bytes.length none, false⟩ :=
        (List.cons.inj hnew).1.symm
      have hother (other : Nat) (hne : other ≠ c.seq) :
          after.put c.seq bytes other = after other := Contents.put_other hne
      have hsubmit := Pool.backlog_submit (p := q.putAt c.offset bytes) hput.invariant hsplit
        hstate hother
      have hput : (q.putAt c.offset bytes).backlog after = q.backlog after := rfl
      rw [hsubmit, Claim.parcel_put, ← hold, hparcel, hput, hbacklog]
      have hcontents : bytes.map some ++ (List.replicate bytes.length none).drop bytes.length =
          bytes.map some := by
        simp
      simp only [Parcel.put, Parcel.submit, hcontents]
      exact .push hfits hopen

theorem followsBacklog (h : t.Models contents)
    (hcapacity : t.pool.capacity + Pool.alignment < Pool.wordLimit) (turn : Turn) :
    t.FollowsBacklog contents turn := by
  cases turn with
  | allocate bytes => exact followsBacklog_allocate h (Or.inr hcapacity)
  | write ticket bytes => exact followsBacklog_write h ticket bytes
  | submit ticket => exact followsBacklog_submit h ticket
  | commit ticket bytes => exact followsBacklog_commit h ticket bytes
  | push bytes => exact followsBacklog_push h (Or.inr hcapacity)
  | abandon ticket => exact followsBacklog_abandon h ticket
  | close => exact followsBacklog_close h
  | next => exact followsBacklog_next h
  | read ticket => exact followsBacklog_read h ticket
  | release ticket => exact followsBacklog_release h ticket

theorem run_followsBacklog {b : Backlog} {log : List (Turn × Reply)} (h : t.Models contents)
    (hcapacity : t.pool.capacity + Pool.alignment < Pool.wordLimit)
    (hlog : b.Run log (t.pool.backlog contents)) (turns : List Turn) :
    ∃ after, (t.run turns).1.Models after ∧
      b.Run (log ++ (t.run turns).2) ((t.run turns).1.pool.backlog after) := by
  induction turns generalizing t contents log with
  | nil => exact ⟨contents, h, by rw [run, List.append_nil]; exact hlog⟩
  | cons turn turns ih =>
    obtain ⟨after, hmodels, hstep⟩ := followsBacklog h hcapacity turn
    have hsame : (t.step turn).1.pool.capacity = t.pool.capacity := hstep.capacity
    obtain ⟨last, hlast, hrun⟩ := ih hmodels (hsame ▸ hcapacity) (.turn hlog hstep)
    refine ⟨last, hlast, ?_⟩
    rw [List.append_assoc] at hrun
    exact hrun

/-- A new pool serves its clients as a queue does: whatever turns they take, every answer is one
that a backlog gives, and the tickets delivered, followed by those that still wait, are all tickets
but the abandoned ones, in the order of allocation. No arena is so large that its size is not a
word. -/
theorem run_isFifo (bytes patience : Nat) (hbytes : bytes + Pool.alignment < Pool.wordLimit)
    (turns : List Turn) :
    ∃ b : Backlog,
      Backlog.Run ⟨Pool.roundedCapacity bytes, patience, [], [], 0, false⟩
        (run ⟨Pool.ofCapacity bytes patience, [], []⟩ turns).2 b ∧
      deliveries (run ⟨Pool.ofCapacity bytes patience, [], []⟩ turns).2 ++ b.waiting.map (·.ticket) =
        (List.range b.issued).filter
          (· ∉ abandoned (run ⟨Pool.ofCapacity bytes patience, [], []⟩ turns).2) := by
  let start : Traffic := ⟨Pool.ofCapacity bytes patience, [], []⟩
  have hstart : start.Models fun _ => [] :=
    ⟨Pool.storesContents_ofCapacity bytes patience _, by simp [start, Pool.ofCapacity], rfl, rfl⟩
  have hcapacity : Pool.roundedCapacity bytes + Pool.alignment < Pool.wordLimit :=
    Nat.lt_of_le_of_lt (Nat.add_le_add_right (Nat.div_mul_le_self _ _) _) hbytes
  obtain ⟨after, _, hrun⟩ := run_followsBacklog hstart hcapacity .start turns
  exact ⟨_, hrun, (Backlog.accounts_run hrun).tickets⟩

/-- A claim that is filled late holds back the one behind it. -/
theorem run_isFifo_late : 16 + Pool.alignment < Pool.wordLimit ∧
    ∃ b : Backlog,
      Backlog.Run ⟨Pool.roundedCapacity 16, 5, [], [], 0, false⟩
        (run ⟨Pool.ofCapacity 16 5, [], []⟩
          [.allocate 6, .push [7], .next, .commit 0 [1, 2], .next, .read 0, .release 0, .next]).2 b ∧
      deliveries (run ⟨Pool.ofCapacity 16 5, [], []⟩
          [.allocate 6, .push [7], .next, .commit 0 [1, 2], .next, .read 0, .release 0, .next]).2 ++
        b.waiting.map (·.ticket) =
        (List.range b.issued).filter
          (· ∉ abandoned (run ⟨Pool.ofCapacity 16 5, [], []⟩
            [.allocate 6, .push [7], .next, .commit 0 [1, 2], .next, .read 0, .release 0, .next]).2) :=
  ⟨by decide, run_isFifo 16 5 (by decide)
    [.allocate 6, .push [7], .next, .commit 0 [1, 2], .next, .read 0, .release 0, .next]⟩

end Traffic

end DisplayPipeline
