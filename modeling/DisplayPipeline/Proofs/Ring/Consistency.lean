import DisplayPipeline.Proofs.Ring.Invariant

/-!
# Every reachable pool is consistent

What a reader of a pool's state may rely on after any calls with any pointers: the claims share no
byte, follow one another in the arena, are numbered without a gap, and the counts agree with them.
-/

namespace DisplayPipeline

namespace Pool

/-- The claims, in the order of allocation, lie one behind the other. -/
def Ascends (p : Pool) : Prop := (p.claims.map (·.offset)).Pairwise (· < ·)

/-- The claims lie one behind the other, but for one of them that starts again at offset zero; it
and all that follow it lie before the older ones. -/
def Restarts (p : Pool) : Prop :=
  ∃ (older newer : List Claim) (turn : Claim), p.claims = older ++ turn :: newer ∧ older ≠ [] ∧
    turn.offset = 0 ∧ (older.map (·.offset)).Pairwise (· < ·) ∧
    ((turn :: newer).map (·.offset)).Pairwise (· < ·) ∧
    ∀ c ∈ turn :: newer, ∀ d ∈ older, c.offset < d.offset

/-- What the fields of a pool say about one another. -/
structure Consistent (p : Pool) : Prop where
  placed : ∀ c ∈ p.claims, alignment ∣ c.offset ∧ alignment ∣ c.rounded ∧ 0 < c.rounded ∧
    c.offset + c.rounded ≤ p.capacity
  apart : p.claims.Pairwise fun c d =>
    c.offset + c.rounded ≤ d.offset ∨ d.offset + d.rounded ≤ c.offset
  wrapped : p.wrapped = true ↔ p.Restarts
  straight : p.wrapped = false ↔ p.Ascends
  start : ∀ c, p.claims.head? = some c → p.start = c.offset
  stop : ∀ c, p.claims.getLast? = some c → p.stop = c.offset + c.rounded
  numbered : ∃ first, p.claims.map (·.seq) = List.range' first p.claims.length ∧
    first + p.claims.length = p.nextSeq
  inUse : p.inUse = (p.claims.map (·.rounded)).sum
  inUse_le : p.inUse ≤ p.capacity ∧ p.inUse ≤ p.tally.highWater
  cursor : p.cursor ≤ p.claims.length
  passed : ∀ c ∈ p.claims.take p.cursor, c.state = .consumed ∨ c.state = .released
  ahead : ∀ c ∈ p.claims.drop p.cursor, c.state ≠ .consumed

/-- A restart leads back, so that the two orders exclude each other. -/
theorem not_ascends_of_restarts {p : Pool} (h : p.Restarts) : ¬ p.Ascends := by
  obtain ⟨older, newer, turn, hsplit, hne, hturn, _, _, _⟩ := h
  intro hascends
  obtain ⟨oldest, rest, rfl⟩ := List.exists_cons_of_ne_nil hne
  rw [Ascends, hsplit, List.map_append, List.pairwise_append] at hascends
  have hlt := hascends.2.2 oldest.offset (by simp) turn.offset (by simp)
  omega

private theorem offsets_ascend {start stop : Nat} {claims : List Claim}
    (h : Extent.EndToEnd start (claims.map Claim.extent) stop)
    (hpos : ∀ c ∈ claims, 0 < c.rounded) : (claims.map (·.offset)).Pairwise (· < ·) := by
  have hpairs := Extent.endToEnd_pairwise h
  rw [List.pairwise_map] at hpairs ⊢
  refine hpairs.imp_of_mem fun {c d} hc _ hcd => ?_
  have := hpos c hc
  simp only [Extent.stop, Claim.extent] at hcd
  omega

private theorem order_of_invariant {p : Pool} (hp : p.Invariant) :
    if p.wrapped then p.Restarts else p.Ascends := by
  have hlayout := hp.layout
  have hpos (c : Claim) (hc : c ∈ p.claims) : 0 < c.rounded := (hp.rounded c hc).2
  generalize hextents : p.claims.map Claim.extent = xs at hlayout
  generalize hwrapped : p.wrapped = w at hlayout
  cases hlayout with
  | straight hrun _ _ =>
    subst hextents
    exact offsets_ascend hrun hpos
  | @wrapped _ _ older newer hold hnew holder _ hnewer hlow =>
    obtain ⟨early, late, hsplit, rfl, rfl⟩ := List.map_eq_append_iff.mp hextents
    obtain ⟨first, rest, rfl⟩ := List.exists_cons_of_ne_nil (mt List.map_eq_nil_iff.mpr hnew)
    have hbelow (c : Claim) (hc : c ∈ first :: rest) (d : Claim) (hd : d ∈ early) :
        c.offset < d.offset := by
      have hstop := (Extent.endToEnd_within hnewer _ (List.mem_map_of_mem hc)).2
      have hstart := (Extent.endToEnd_within holder _ (List.mem_map_of_mem hd)).1
      have := hpos c (hsplit ▸ List.mem_append_right _ hc)
      simp only [Extent.stop, Claim.extent] at hstop hstart
      omega
    refine ⟨early, rest, first, hsplit, mt List.map_eq_nil_iff.mpr hold,
      Extent.endToEnd_head hnewer, ?_, ?_, hbelow⟩
    · exact offsets_ascend holder fun c hc => hpos c (hsplit ▸ List.mem_append_left _ hc)
    · exact offsets_ascend hnewer fun c hc => hpos c (hsplit ▸ List.mem_append_right _ hc)

private theorem consistent_of_invariant {p : Pool} (hp : p.Invariant) : p.Consistent := by
  have horder := order_of_invariant hp
  have haligned := hp.layout.aligned hp.start fun x hx => by
    obtain ⟨c, hc, rfl⟩ := List.mem_map.mp hx
    exact (hp.rounded c hc).1
  exact {
    placed := fun c hc =>
      ⟨haligned.2 _ (List.mem_map_of_mem hc), (hp.rounded c hc).1, (hp.rounded c hc).2,
        hp.layout.within _ (List.mem_map_of_mem hc)⟩
    apart := List.pairwise_map.mp hp.layout.apart
    wrapped := by
      cases hw : p.wrapped with
      | true => simpa [hw] using horder
      | false =>
        simp only [hw, Bool.false_eq_true, if_false, false_iff] at horder ⊢
        exact fun h => not_ascends_of_restarts h horder
    straight := by
      cases hw : p.wrapped with
      | true =>
        simp only [hw, if_true, Bool.true_eq_false, false_iff] at horder ⊢
        exact not_ascends_of_restarts horder
      | false => simpa [hw] using horder
    start := fun c hc => hp.layout.head_offset (x := c.extent) (by simp [hc])
    stop := fun c hc => hp.layout.last_stop (x := c.extent) (by simp [List.getLast?_map, hc])
    numbered := ⟨_, seqs_of_invariant hp, Nat.sub_add_cancel (length_le_nextSeq hp)⟩
    inUse := hp.inUse
    inUse_le := by
      have hsum := hp.layout.sum_le
      rw [List.map_map] at hsum
      exact ⟨hp.inUse ▸ hsum, hp.highWater⟩
    cursor := hp.cursor
    passed := fun c hc => by
      obtain ⟨i, hi⟩ := List.mem_iff_getElem?.mp hc
      rw [List.getElem?_take] at hi
      split at hi
      · next hlt => exact hp.passed i c hi hlt
      · cases hi
    ahead := fun c hc => by
      obtain ⟨i, hi⟩ := List.mem_iff_getElem?.mp hc
      rw [List.getElem?_drop] at hi
      exact hp.ahead _ c hi (Nat.le_add_right _ _) }

/-- Whatever is asked of a new pool, with whatever pointers, its state stays consistent. -/
theorem serveAll_consistent (bytes patience : Nat) (calls : List PoolCall) :
    ((ofCapacity bytes patience).serveAll calls).Consistent :=
  consistent_of_invariant (serveAll_invariant (invariant_ofCapacity bytes patience) calls)

end Pool

end DisplayPipeline
