import DisplayPipeline.Proofs.Ring.Layout
import DisplayPipeline.Proofs.Ring.Operations

namespace DisplayPipeline

def Claim.extent (c : Claim) : Extent := ⟨c.offset, c.rounded⟩

namespace Pool

/-- What holds of a pool between calls. -/
structure Invariant (p : Pool) : Prop where
  layout : Layout p.capacity p.start p.stop p.wrapped (p.claims.map Claim.extent)
  start : alignment ∣ p.start
  rounded : ∀ c ∈ p.claims, alignment ∣ c.rounded ∧ 0 < c.rounded
  /-- Claims are numbered one after the other up to the next number. -/
  seq : ∀ i c, p.claims[i]? = some c → c.seq + p.claims.length = p.nextSeq + i
  inUse : p.inUse = (p.claims.map (·.rounded)).sum
  highWater : p.inUse ≤ p.tally.highWater
  cursor : p.cursor ≤ p.claims.length
  passed : ∀ i c, p.claims[i]? = some c → i < p.cursor →
    c.state = .consumed ∨ c.state = .released
  ahead : ∀ i c, p.claims[i]? = some c → p.cursor ≤ i → c.state ≠ .consumed

theorem invariant_ofCapacity (bytes patience : Nat) : (ofCapacity bytes patience).Invariant where
  layout := Layout.empty _
  start := Nat.dvd_zero _
  rounded := by simp [ofCapacity]
  seq := by simp [ofCapacity]
  inUse := rfl
  highWater := Nat.le_refl _
  cursor := Nat.le_refl _
  passed := by simp [ofCapacity]
  ahead := by simp [ofCapacity]

theorem length_le_nextSeq {p : Pool} (hp : p.Invariant) : p.claims.length ≤ p.nextSeq := by
  rcases Nat.eq_zero_or_pos p.claims.length with hzero | hpos
  · exact hzero ▸ Nat.zero_le _
  · have := hp.seq 0 _ (List.getElem?_eq_getElem hpos)
    omega

theorem seqs_of_invariant {p : Pool} (hp : p.Invariant) :
    p.claims.map (·.seq) = List.range' (p.nextSeq - p.claims.length) p.claims.length := by
  have hlen := length_le_nextSeq hp
  refine List.ext_getElem (by simp) fun i hi _ => ?_
  rw [List.length_map] at hi
  have := hp.seq i _ (List.getElem?_eq_getElem hi)
  rw [List.getElem_map, List.getElem_range', Nat.one_mul]
  omega

private theorem getElem?_push {α : Type} {xs : List α} {x y : α} {i : Nat}
    (h : (xs ++ [x])[i]? = some y) :
    (i < xs.length ∧ xs[i]? = some y) ∨ (i = xs.length ∧ y = x) := by
  rcases Nat.lt_or_ge i xs.length with hlt | hge
  · exact Or.inl ⟨hlt, List.getElem?_append_left hlt ▸ h⟩
  · rw [List.getElem?_append_right hge] at h
    obtain ⟨hi, rfl⟩ := List.getElem?_eq_some_iff.mp h
    rw [List.length_singleton] at hi
    exact Or.inr ⟨by omega, by simp⟩

/-- Rounding up gives whole units, at least one for a request that is not empty. -/
theorem alignUp_cases (value : Nat) :
    (value + 3 < wordLimit ∧ alignUp value alignment = (value + 3) / 4 * 4) ∨
      (wordLimit ≤ value + 3 ∧ alignUp value alignment = (wordLimit - 1) / 4 * 4) := by
  rcases Nat.lt_or_ge (value + 3) wordLimit with hlt | hge
  · exact Or.inl ⟨hlt, if_pos hlt⟩
  · exact Or.inr ⟨hge, if_neg (Nat.not_lt.mpr hge)⟩

theorem checkRequest_ok {p : Pool} {bytes rounded : Nat} (h : p.checkRequest bytes = .ok rounded) :
    alignment ∣ rounded ∧ 0 < rounded ∧ rounded ≤ p.capacity := by
  simp only [checkRequest] at h
  split at h
  · cases h
  · obtain rfl := Except.ok.inj h
    have hwide : 8 ≤ wordLimit := by decide
    rcases alignUp_cases (max bytes 1) with ⟨_, hround⟩ | ⟨_, hround⟩
    · exact ⟨hround ▸ Nat.dvd_mul_left _ _, by omega, by omega⟩
    · exact ⟨hround ▸ Nat.dvd_mul_left _ _, by omega, by omega⟩

private theorem fit?_cases {p : Pool} {rounded offset : Nat} (h : p.fit? rounded = some offset) :
    (p.claims = [] ∧ offset = 0 ∧ rounded ≤ p.capacity) ∨
    (p.claims ≠ [] ∧ p.wrapped = true ∧ offset = p.stop ∧ p.stop + rounded ≤ p.start) ∨
    (p.claims ≠ [] ∧ p.wrapped = false ∧ offset = p.stop ∧ p.stop + rounded ≤ p.capacity) ∨
    (p.claims ≠ [] ∧ p.wrapped = false ∧ offset = 0 ∧ rounded ≤ p.start) := by
  unfold fit? at h
  simp only [List.isEmpty_iff] at h
  split at h
  · next hempty => split at h <;> simp_all
  · next hheld =>
    split at h
    · next hwrapped => split at h <;> simp_all
    · next hwrapped =>
      split at h
      · simp_all
      · split at h <;> simp_all

private theorem claimAt_layout {p : Pool} {bytes rounded offset : Nat} (hp : p.Invariant)
    (hfit : p.fit? rounded = some offset) :
    Layout p.capacity (p.claimAt bytes rounded offset).1.start
      (p.claimAt bytes rounded offset).1.stop (p.claimAt bytes rounded offset).1.wrapped
      ((p.claimAt bytes rounded offset).1.claims.map Claim.extent) := by
  have hlayout := hp.layout
  have hmap (hne : p.claims ≠ []) : p.claims.map Claim.extent ≠ [] := by simpa using hne
  simp only [claimAt, List.map_append, List.map_cons, List.map_nil, Claim.extent,
    List.isEmpty_iff]
  rcases fit?_cases hfit with ⟨hnil, rfl, hroom⟩ | ⟨hne, hw, rfl, hroom⟩ |
    ⟨hne, hw, rfl, hroom⟩ | ⟨hne, hw, rfl, hroom⟩
  · simp only [hnil, if_true, List.map_nil, List.nil_append]
    exact Layout.single hroom
  · rw [hw] at hlayout
    simp only [hne, if_false, hw, Bool.true_or]
    exact hlayout.push_wrapped hroom
  · rw [hw] at hlayout
    have hstop : p.stop ≠ 0 := by
      cases hlayout with
      | straight hrun _ _ =>
        have := Extent.endToEnd_lt hrun (hmap hne) fun x hx => by
          obtain ⟨c, hc, rfl⟩ := List.mem_map.mp hx
          exact (hp.rounded c hc).2
        omega
    simp only [hne, if_false, hw, Bool.false_or, beq_eq_false_iff_ne.mpr hstop]
    exact hlayout.push_straight (hmap hne) hroom
  · rw [hw] at hlayout
    simp only [hne, if_false, hw, Bool.false_or, beq_self_eq_true]
    exact hlayout.push_restart (hmap hne) hroom

theorem claimAt_invariant {p : Pool} {bytes rounded offset : Nat} (hp : p.Invariant)
    (hcheck : p.checkRequest bytes = .ok rounded) (hfit : p.fit? rounded = some offset) :
    (p.claimAt bytes rounded offset).1.Invariant where
  layout := claimAt_layout hp hfit
  start := by
    simp only [claimAt]
    split
    · exact Nat.dvd_zero _
    · exact hp.start
  rounded := by
    intro c hc
    rcases List.mem_append.mp hc with hc | hc
    · exact hp.rounded c hc
    · obtain rfl := List.mem_singleton.mp hc
      exact ⟨(checkRequest_ok hcheck).1, (checkRequest_ok hcheck).2.1⟩
  seq := by
    intro i c hc
    simp only [claimAt, List.length_append, List.length_singleton] at hc ⊢
    rcases getElem?_push hc with ⟨_, hc⟩ | ⟨rfl, rfl⟩
    · have := hp.seq i c hc
      omega
    · exact (Nat.add_assoc _ _ _).symm.trans (Nat.add_right_comm _ _ _)
  inUse := by
    simp only [claimAt, List.map_append, List.sum_append_nat, hp.inUse]
    simp
  highWater := Nat.le_max_right _ _
  cursor := by
    have := hp.cursor
    simp only [claimAt, List.length_append]
    omega
  passed := by
    intro i c hc hi
    have hlt : i < p.claims.length := Nat.lt_of_lt_of_le hi hp.cursor
    simp only [claimAt, List.getElem?_append_left hlt] at hc
    exact hp.passed i c hc hi
  ahead := by
    intro i c hc hi
    rcases getElem?_push hc with ⟨_, hc⟩ | ⟨_, rfl⟩
    · exact hp.ahead i c hc hi
    · simp

private theorem mark_invariant {p : Pool} {i k : Nat} {c : Claim} {state : ClaimState}
    (hp : p.Invariant) (hc : p.claims[i]? = some c) (hk : k ≤ p.claims.length)
    (hpassed : ∀ j d, (p.setState i c state).claims[j]? = some d → j < k →
      d.state = .consumed ∨ d.state = .released)
    (hahead : ∀ j d, (p.setState i c state).claims[j]? = some d → k ≤ j → d.state ≠ .consumed) :
    ({ p.setState i c state with cursor := k } : Pool).Invariant := by
  have hsame {α : Type} (f : Claim → α) (hf : f { c with state } = f c) :
      (p.setState i c state).claims.map f = p.claims.map f := by
    obtain ⟨hi, rfl⟩ := List.getElem?_eq_some_iff.mp hc
    have hi' : i < (p.claims.map f).length := by rwa [List.length_map]
    rw [setState, List.map_set, hf, ← List.getElem_map (h := hi') f, List.set_getElem_self]
  have hlen : (p.setState i c state).claims.length = p.claims.length := List.length_set
  have hentry (j : Nat) (d : Claim) (hd : (p.setState i c state).claims[j]? = some d) :
      ∃ e, p.claims[j]? = some e ∧ d.seq = e.seq ∧ d.rounded = e.rounded := by
    have hseq := congrArg (·[j]?) (hsame (fun c => (c.seq, c.rounded)) rfl)
    simp only [List.getElem?_map, hd, Option.map_some] at hseq
    obtain ⟨e, he, heq⟩ := Option.map_eq_some_iff.mp hseq.symm
    exact ⟨e, he, (congrArg Prod.fst heq).symm, (congrArg Prod.snd heq).symm⟩
  exact {
    layout := (hsame Claim.extent rfl).symm ▸ hp.layout
    start := hp.start
    rounded := fun d hd => by
      obtain ⟨j, hj⟩ := List.mem_iff_getElem?.mp hd
      obtain ⟨e, he, _, hround⟩ := hentry j d hj
      exact hround ▸ hp.rounded e (List.mem_of_getElem? he)
    seq := fun j d hd => by
      obtain ⟨e, he, hseq, _⟩ := hentry j d hd
      rw [hseq, hlen]
      exact hp.seq j e he
    inUse := (hsame (·.rounded) rfl).symm ▸ hp.inUse
    highWater := hp.highWater
    cursor := hlen.symm ▸ hk
    passed := hpassed
    ahead := hahead }

theorem getElem?_setState {p : Pool} {i j : Nat} {c d : Claim} {state : ClaimState}
    (h : (p.setState i c state).claims[j]? = some d) :
    (i = j ∧ d = { c with state }) ∨ (i ≠ j ∧ p.claims[j]? = some d) := by
  by_cases hij : i = j
  · subst hij
    have hi := (List.getElem?_eq_some_iff.mp h).1
    rw [setState, List.length_set] at hi
    rw [setState, List.getElem?_set_self hi, Option.some.injEq] at h
    exact Or.inl ⟨rfl, h.symm⟩
  · exact Or.inr ⟨hij, by rwa [setState, List.getElem?_set_ne hij] at h⟩

theorem setState_invariant {p : Pool} {i : Nat} {c : Claim} {state : ClaimState}
    (hp : p.Invariant) (hc : p.claims[i]? = some c)
    (hpassed : i < p.cursor → state = .consumed ∨ state = .released)
    (hahead : p.cursor ≤ i → state ≠ .consumed) : (p.setState i c state).Invariant := by
  refine mark_invariant hp hc hp.cursor (fun j d hd hj => ?_) fun j d hd hj => ?_
  · rcases getElem?_setState hd with ⟨rfl, rfl⟩ | ⟨_, hd⟩
    · exact hpassed hj
    · exact hp.passed j d hd hj
  · rcases getElem?_setState hd with ⟨rfl, rfl⟩ | ⟨_, hd⟩
    · exact hahead hj
    · exact hp.ahead j d hd hj

theorem write_invariant {p : Pool} (hp : p.Invariant) (pointer : ClaimPointer)
    (bytes : List UInt8) : (p.write pointer bytes).1.Invariant := by
  rcases write_cases p pointer bytes with ⟨i, c, _, _, hwrite⟩ | ⟨_, hwrite⟩ | ⟨_, _, hwrite⟩
  · rw [hwrite]
    exact ⟨hp.layout, hp.start, hp.rounded, hp.seq, hp.inUse, hp.highWater, hp.cursor, hp.passed,
      hp.ahead⟩
  · exact hwrite ▸ hp
  · exact hwrite ▸ hp

theorem allocate_invariant {p : Pool} (hp : p.Invariant) (bytes : Nat) :
    (p.allocate bytes).1.Invariant := by
  rcases allocate_cases p bytes with ⟨rounded, offset, hcheck, _, hfit, hallocate⟩ |
    ⟨_, _, _, _, hallocate⟩ | ⟨_, _, _, hallocate⟩ | ⟨_, hallocate⟩
  · rw [hallocate]
    exact claimAt_invariant hp hcheck hfit
  · rw [hallocate]
    exact ⟨hp.layout, hp.start, hp.rounded, hp.seq, hp.inUse, hp.highWater, hp.cursor, hp.passed,
      hp.ahead⟩
  · exact hallocate ▸ hp
  · exact hallocate ▸ hp

theorem submit_invariant {p : Pool} (hp : p.Invariant) (pointer : ClaimPointer) :
    (p.submit pointer).1.Invariant := by
  unfold submit
  cases hfound : p.writable? pointer with
  | none => exact hp
  | some found =>
    obtain ⟨i, c⟩ := found
    obtain ⟨hlive, hallocated⟩ := writable?_eq_some hfound
    obtain ⟨_, _, hc, _, _, _⟩ := live?_eq_some hlive
    refine setState_invariant hp hc (fun hi => ?_) (by simp)
    -- A claim that may be written to is ahead of the cursor.
    have := hp.passed i c hc hi
    simp [hallocated] at this

theorem next_invariant {p : Pool} (hp : p.Invariant) : p.next.1.Invariant := by
  obtain ⟨k, hlow, hk, hskipped, hnext⟩ := next_cases p hp.cursor
  have hpassed (j : Nat) (d : Claim) (hd : p.claims[j]? = some d) (hj : j < k) :
      d.state = .consumed ∨ d.state = .released := by
    rcases Nat.lt_or_ge j p.cursor with hlt | hge
    · exact hp.passed j d hd hlt
    · exact Or.inr (hskipped j d hd hge hj)
  have hahead (j : Nat) (d : Claim) (hd : p.claims[j]? = some d) (hj : k ≤ j) :
      d.state ≠ .consumed := hp.ahead j d hd (Nat.le_trans hlow hj)
  have hmoved : ({ p with cursor := k } : Pool).Invariant :=
    ⟨hp.layout, hp.start, hp.rounded, hp.seq, hp.inUse, hp.highWater, hk, hpassed, hahead⟩
  rcases hnext with ⟨_, hnext⟩ | ⟨_, _, _, _, hnext⟩ | ⟨c, hc, _, hnext⟩
  · exact hnext ▸ hmoved
  · exact hnext ▸ hmoved
  · rw [hnext]
    have hlt := (List.getElem?_eq_some_iff.mp hc).1
    refine mark_invariant hp hc hlt (fun j d hd hj => ?_) fun j d hd hj => ?_
    · rcases getElem?_setState hd with ⟨rfl, rfl⟩ | ⟨hne, hd⟩
      · exact Or.inl rfl
      · exact hpassed j d hd (by omega)
    · rcases getElem?_setState hd with ⟨rfl, rfl⟩ | ⟨_, hd⟩
      · omega
      · exact hahead j d hd (by omega)

private theorem held_invariant {p : Pool} {freed held : List Claim} {start stop : Nat}
    {wrapped : Bool} (hp : p.Invariant) (hsplit : p.claims = freed ++ held)
    (hlayout : Layout p.capacity start stop wrapped (held.map Claim.extent))
    (hstart : alignment ∣ start) :
    ({ p with
        claims := held, cursor := p.cursor - freed.length
        inUse := p.inUse - (freed.map (·.rounded)).sum
        start := start, stop := stop, wrapped := wrapped } : Pool).Invariant := by
  have hentry (i : Nat) (c : Claim) (hc : held[i]? = some c) :
      p.claims[freed.length + i]? = some c := by
    rw [hsplit, List.getElem?_append_right (Nat.le_add_right _ _), Nat.add_sub_cancel_left]
    exact hc
  have hlen : p.claims.length = freed.length + held.length := by
    rw [hsplit, List.length_append]
  have hsum : p.inUse = (freed.map (·.rounded)).sum + (held.map (·.rounded)).sum := by
    rw [hp.inUse, hsplit, List.map_append, List.sum_append_nat]
  exact {
    layout := hlayout
    start := hstart
    rounded := fun c hc => hp.rounded c (hsplit ▸ List.mem_append_right _ hc)
    seq := fun i c hc => by
      have := hp.seq _ c (hentry i c hc)
      simp only
      omega
    inUse := by
      simp only
      omega
    highWater := Nat.le_trans (Nat.sub_le _ _) hp.highWater
    cursor := by
      have := hp.cursor
      simp only
      omega
    passed := fun i c hc hi => hp.passed _ c (hentry i c hc) (by simp only at hi; omega)
    ahead := fun i c hc hi => hp.ahead _ c (hentry i c hc) (by simp only at hi; omega) }

theorem reclaim_invariant {p : Pool} (hp : p.Invariant) : p.reclaim.Invariant := by
  obtain ⟨freed, _, ⟨hall, hreclaim⟩ | ⟨oldest, rest, hsplit, _, hreclaim⟩⟩ := reclaim_cases p
  · rw [hreclaim]
    exact held_invariant hp (hall.trans (List.append_nil _).symm) (Layout.empty _) (Nat.dvd_zero _)
  · rw [hreclaim]
    have hlength : ∀ x ∈ p.claims.map Claim.extent, alignment ∣ x.length ∧ 0 < x.length := by
      intro x hx
      obtain ⟨c, hc, rfl⟩ := List.mem_map.mp hx
      exact hp.rounded c hc
    have hlayout := hp.layout
    have haligned := hlayout.aligned hp.start fun x hx => (hlength x hx).1
    rw [hsplit, List.map_append, List.map_cons] at hlayout hlength haligned
    refine held_invariant hp hsplit (hlayout.drop fun x hx => (hlength x hx).2) ?_
    exact haligned.2 oldest.extent (by simp)

theorem release_invariant {p : Pool} (hp : p.Invariant) (pointer : ClaimPointer) :
    (p.release pointer).1.Invariant := by
  unfold release
  cases hfound : p.live? pointer with
  | none => exact hp
  | some found =>
    obtain ⟨_, _, hc, _⟩ := live?_eq_some hfound
    exact reclaim_invariant (setState_invariant hp hc (fun _ => Or.inr rfl) (by simp))

private theorem commit_invariant {p : Pool} (hp : p.Invariant) (pointer : ClaimPointer)
    (bytes : List UInt8) : (p.commit pointer bytes).1.Invariant := by
  have hwritten := write_invariant hp pointer bytes
  unfold commit
  cases hwrite : p.write pointer bytes with
  | mk q result =>
    rw [hwrite] at hwritten
    cases result with
    | error e => exact release_invariant hwritten pointer
    | ok _ => exact submit_invariant hwritten pointer

private theorem push_invariant {p : Pool} (hp : p.Invariant) (bytes : List UInt8) :
    (p.push bytes).1.Invariant := by
  have hclaimed := allocate_invariant hp bytes.length
  unfold push
  cases hallocate : p.allocate bytes.length with
  | mk q result =>
    rw [hallocate] at hclaimed
    cases result with
    | error e => exact hclaimed
    | ok pointer => exact commit_invariant hclaimed pointer bytes

theorem serve_invariant {p : Pool} (hp : p.Invariant) (call : PoolCall) :
    (p.serve call).Invariant := by
  cases call with
  | allocate bytes => exact allocate_invariant hp bytes
  | write pointer bytes => exact write_invariant hp pointer bytes
  | submit pointer => exact submit_invariant hp pointer
  | commit pointer bytes => exact commit_invariant hp pointer bytes
  | push bytes => exact push_invariant hp bytes
  | next => exact next_invariant hp
  | read _ => exact hp
  | release pointer => exact release_invariant hp pointer
  | close =>
    exact ⟨hp.layout, hp.start, hp.rounded, hp.seq, hp.inUse, hp.highWater, hp.cursor, hp.passed,
      hp.ahead⟩

theorem serveAll_invariant {p : Pool} (hp : p.Invariant) (calls : List PoolCall) :
    (p.serveAll calls).Invariant := by
  induction calls generalizing p with
  | nil => exact hp
  | cons call calls ih => exact ih (serve_invariant hp call)

end Pool

end DisplayPipeline
