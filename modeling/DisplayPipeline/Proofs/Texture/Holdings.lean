import DisplayPipeline.Proofs.Texture.Fetching
import Mathlib.Algebra.BigOperators.Group.List.Basic
import Mathlib.Data.List.Nodup
import Mathlib.Tactic.Ring

/-!
# What a texture cache holds

A cache that has a device for itself holds a texture there for each of its entries and no other one.
An entry that goes takes its texture with it, whichever way it goes, so that after any calls the
entries account for all textures and for all bytes. A single entry may exceed the budget; two or more
never do.
-/

namespace DisplayPipeline

def CachedTexture.onDevice (e : CachedTexture) : TextureHandle × DeviceTexture :=
  (e.handle, ⟨e.key.width.toNat, e.key.height.toNat, e.rgba⟩)

private theorem Device.length_of_textureFault?_none {d : Device} {width height length : Nat}
    (h : d.textureFault? width height length = none) : length = width * height * 4 := by
  unfold textureFault? at h
  split at h
  · cases h
  · split at h
    · cases h
    · split at h
      · cases h
      · rename_i hlength
        exact not_not.mp hlength

namespace TextureCache

theorem weight_append (es fs : List CachedTexture) : weight (es ++ fs) = weight es + weight fs := by
  simp [weight]

private theorem weight_perm {es fs : List CachedTexture} (h : es.Perm fs) : weight es = weight fs :=
  (h.map _).sum_eq

theorem exists_around {entries : List CachedTexture} (hkeys : (entries.map (·.key)).Nodup)
    {entry : CachedTexture} (hentry : entry ∈ entries) :
    ∃ before after, entries = before ++ entry :: after ∧
      entries.filter (fun e => e.key ≠ entry.key) = before ++ after := by
  obtain ⟨before, after, rfl⟩ := List.append_of_mem hentry
  refine ⟨before, after, rfl, ?_⟩
  rw [List.map_append, List.map_cons, List.nodup_append, List.nodup_cons] at hkeys
  obtain ⟨-, ⟨hafter, -⟩, hbefore⟩ := hkeys
  have hstays (e : CachedTexture) (he : e ∈ before ++ after) : e.key ≠ entry.key := by
    intro hsame
    rcases List.mem_append.mp he with he | he
    · exact hbefore _ (List.mem_map_of_mem he) _ List.mem_cons_self hsame
    · exact hafter (hsame ▸ List.mem_map_of_mem he)
  have hothers : (before ++ after).filter (fun e => e.key ≠ entry.key) = before ++ after := by
    rw [List.filter_eq_self]
    intro e he
    simp [hstays e he]
  rw [← hothers]
  simp [List.filter_append]

def without (c : TextureCache) (p : CachedTexture → Bool) : TextureCache :=
  { c with
    entries := c.entries.filter fun e => !p e
    bytes := c.bytes - weight (c.entries.filter p) }

private theorem dropAll_filter {c : TextureCache} (hkeys : (c.entries.map (·.key)).Nodup)
    (p : CachedTexture → Bool) (d : Device) :
    c.dropAll (c.entries.filter p) d = (c.without p, d.releaseAll (c.entries.filter p)) := by
  have hentries : (c.entries.filter fun e =>
      !(c.entries.filter p).any fun s => s.key = e.key) = c.entries.filter fun e => !p e := by
    apply List.filter_congr
    intro e he
    rw [Bool.not_inj_iff, Bool.eq_iff_iff, List.any_eq_true]
    constructor
    · rintro ⟨s, hs, hsame⟩
      obtain ⟨hs, hp⟩ := List.mem_filter.mp hs
      rwa [← List.inj_on_of_nodup_map hkeys hs he (of_decide_eq_true hsame)]
    · exact fun hp => ⟨e, List.mem_filter.mpr ⟨he, hp⟩, decide_eq_true rfl⟩
  have hbytes (stale : List CachedTexture) (n : Nat) :
      stale.foldl (fun n e => n - e.rgba.length) n = n - weight stale := by
    induction stale generalizing n with
    | nil => rfl
    | cons e rest ih =>
      rw [List.foldl_cons, ih]
      simp only [weight, List.map_cons, List.sum_cons]
      omega
  simp only [dropAll, hentries, hbytes]
  rfl

theorem clear_eq {c : TextureCache} (hkeys : (c.entries.map (·.key)).Nodup) (d : Device) :
    c.clear d = ({ c with entries := [], bytes := c.bytes - weight c.entries },
      d.releaseAll c.entries) := by
  have hall : c.entries.filter (fun _ => true) = c.entries := List.filter_true _
  have hdrop := dropAll_filter hkeys (fun _ => true) d
  rw [hall] at hdrop
  rw [clear, hdrop]
  simp [without, hall]

theorem invalidate_of_empty {c : TextureCache} {range : Span} (h : range.stop ≤ range.start)
    (d : Device) : c.invalidate range d = (c, d, 0) := by
  have hempty : range.isEmpty = true := decide_eq_true h
  rw [invalidate, if_pos hempty]

theorem invalidate_eq {c : TextureCache} (hkeys : (c.entries.map (·.key)).Nodup) {range : Span}
    (h : range.start < range.stop) (d : Device) :
    let stale := c.entries.filter fun e => e.source.overlaps range
    c.invalidate range d =
      ({ c.without fun e => e.source.overlaps range with
          invalidations := c.invalidations + stale.length },
        d.releaseAll stale, stale.length) := by
  have hsome : range.isEmpty = false := decide_eq_false (Nat.not_le_of_lt h)
  rw [invalidate, hsome]
  simp only [Bool.false_eq_true, if_false, dropAll_filter hkeys]
  rfl

end TextureCache

open TextureCache

/-- Entries of their own keys and handles, in the order of their last fetches, and a device that has
their textures and no others. -/
structure Held (entries : List CachedTexture) (d : Device) : Prop where
  keys : (entries.map (·.key)).Nodup
  handles : (entries.map (·.handle)).Nodup
  live : d.textures.Perm (entries.map (·.onDevice))
  issued : ∀ e ∈ entries, e.handle.id < d.nextTexture
  sizes : ∀ e ∈ entries, e.rgba.length = 4 * e.key.width.toNat * e.key.height.toNat
  recency : entries.Pairwise fun e f => e.lastUsed < f.lastUsed

namespace Held

variable {entries kept gone : List CachedTexture} {d : Device}

private theorem nil (spec : DeviceSpec) : Held [] (.ofSpec spec) :=
  ⟨.nil, .nil, .nil, nofun, nofun, .nil⟩

private theorem release (h : Held entries d) (hkept : kept.Sublist entries)
    (hparts : entries.Perm (gone ++ kept)) : Held kept (d.releaseAll gone) where
  keys := h.keys.sublist (hkept.map _)
  handles := h.handles.sublist (hkept.map _)
  live := by
    have hsplit : (gone.map (·.handle) ++ kept.map (·.handle)).Nodup := by
      rw [← List.map_append]
      exact (hparts.map _).nodup_iff.mp h.handles
    have hdisjoint := List.disjoint_of_nodup_append hsplit
    have hgone : (gone.map (·.onDevice)).filter (fun t => t.1 ∉ gone.map (·.handle)) = [] := by
      rw [List.filter_eq_nil_iff]
      intro t ht
      obtain ⟨e, he, rfl⟩ := List.mem_map.mp ht
      have hhandle : e.onDevice.1 ∈ gone.map (·.handle) := List.mem_map_of_mem he
      simp [hhandle]
    have hstay : (kept.map (·.onDevice)).filter (fun t => t.1 ∉ gone.map (·.handle)) =
        kept.map (·.onDevice) := by
      rw [List.filter_eq_self]
      intro t ht
      obtain ⟨e, he, rfl⟩ := List.mem_map.mp ht
      exact decide_eq_true fun hhandle => hdisjoint hhandle (List.mem_map_of_mem he)
    have hlive := (h.live.trans (hparts.map _)).filter fun t => t.1 ∉ gone.map (·.handle)
    rw [List.map_append, List.filter_append, hgone, hstay, List.nil_append] at hlive
    rw [Device.releaseAll_eq]
    exact hlive
  issued e he := by
    rw [Device.releaseAll_eq]
    exact h.issued e (hkept.subset he)
  sizes e he := h.sizes e (hkept.subset he)
  recency := h.recency.sublist hkept

private theorem touch (h : Held entries d) {entry : CachedTexture} (hentry : entry ∈ entries)
    (span : Span) {clock : Nat} (hclock : ∀ e ∈ entries, e.lastUsed < clock) :
    Held (entries.filter (fun e => e.key ≠ entry.key) ++
      [{ entry with lastUsed := clock, source := span }]) d := by
  obtain ⟨before, after, rfl, hothers⟩ := exists_around h.keys hentry
  rw [hothers]
  have hmoved : (before ++ entry :: after).Perm ((before ++ after) ++ [entry]) :=
    List.perm_middle.trans (List.perm_append_singleton _ _).symm
  have hmem {e : CachedTexture} (he : e ∈ before ++ after) : e ∈ before ++ entry :: after := by
    rcases List.mem_append.mp he with he | he
    · exact List.mem_append_left _ he
    · exact List.mem_append_right _ (List.mem_cons_of_mem _ he)
  have hlast {e : CachedTexture} (he : e ∈ [{ entry with lastUsed := clock, source := span }]) :
      e = { entry with lastUsed := clock, source := span } := List.mem_singleton.mp he
  refine ⟨?_, ?_, ?_, ?_, ?_, ?_⟩
  · have := (hmoved.map (·.key)).nodup_iff.mp h.keys
    simpa using this
  · have := (hmoved.map (·.handle)).nodup_iff.mp h.handles
    simpa using this
  · have := h.live.trans (hmoved.map (·.onDevice))
    simpa [CachedTexture.onDevice] using this
  · intro e he
    rcases List.mem_append.mp he with he | he
    · exact h.issued e (hmem he)
    · rw [hlast he]
      exact h.issued entry hentry
  · intro e he
    rcases List.mem_append.mp he with he | he
    · exact h.sizes e (hmem he)
    · rw [hlast he]
      exact h.sizes entry hentry
  · rw [List.pairwise_append]
    refine ⟨h.recency.sublist ?_, List.pairwise_singleton _ _, ?_⟩
    · exact (List.Sublist.refl before).append (List.sublist_cons_self entry after)
    · intro e he f hf
      rw [hlast hf]
      exact hclock e (hmem he)

private theorem take (h : Held entries d) {key : TextureKey} (hkey : ∀ e ∈ entries, e.key ≠ key)
    {rgba : List UInt8} (hsize : rgba.length = 4 * key.width.toNat * key.height.toNat) (span : Span)
    {clock : Nat} (hclock : ∀ e ∈ entries, e.lastUsed < clock) :
    Held (entries ++ [⟨key, ⟨d.nextTexture⟩, rgba, span, clock⟩])
      (d.take ⟨key.width.toNat, key.height.toNat, rgba⟩) where
  keys := by
    rw [List.map_append, List.map_singleton, List.nodup_append]
    refine ⟨h.keys, List.nodup_singleton _, ?_⟩
    rintro old hold new hnew rfl
    obtain ⟨e, he, hsame⟩ := List.mem_map.mp hold
    exact hkey e he (hsame.trans (List.mem_singleton.mp hnew))
  handles := by
    rw [List.map_append, List.map_singleton, List.nodup_append]
    refine ⟨h.handles, List.nodup_singleton _, ?_⟩
    rintro old hold new hnew rfl
    obtain ⟨e, he, rfl⟩ := List.mem_map.mp hold
    have hlt := h.issued e he
    rw [List.mem_singleton.mp hnew] at hlt
    exact lt_irrefl _ hlt
  live := by
    rw [List.map_append]
    exact h.live.append_right _
  issued e he := by
    rcases List.mem_append.mp he with he | he
    · exact lt_trans (h.issued e he) (Nat.lt_succ_self _)
    · rw [List.mem_singleton.mp he]
      exact Nat.lt_succ_self _
  sizes e he := by
    rcases List.mem_append.mp he with he | he
    · exact h.sizes e he
    · rw [List.mem_singleton.mp he]
      exact hsize
  recency := by
    rw [List.pairwise_append]
    refine ⟨h.recency, List.pairwise_singleton _ _, fun e he f hf => ?_⟩
    rw [List.mem_singleton.mp hf]
    exact hclock e he

end Held

/-- What holds of a cache, made with given limits, and of the device that it has for itself. -/
structure Holdings (spec : TextureCacheSpec) (c : TextureCache) (d : Device) : Prop where
  held : Held c.entries d
  budget : c.budget = spec.budget
  maxEntries : c.maxEntries = spec.maxEntries
  bytes : c.bytes = weight c.entries
  fits : c.bytes ≤ spec.budget ∨ c.entries.length = 1
  slots : spec.maxEntries ≠ 0 → c.entries.length ≤ spec.maxEntries
  clock : ∀ e ∈ c.entries, e.lastUsed ≤ c.clock
  fetches : c.hits + c.misses = c.clock

namespace Holdings

variable {spec : TextureCacheSpec} {c : TextureCache} {d : Device}

private theorem missed (h : Holdings spec c d) : Holdings spec c.missed d :=
  ⟨h.held, h.budget, h.maxEntries, h.bytes, h.fits, h.slots,
    fun e he => Nat.le_succ_of_le (h.clock e he), by
      have := h.fetches
      simp only [TextureCache.missed]
      omega⟩

private theorem failed (h : Holdings spec c d) : Holdings spec c.failed d :=
  have hmissed := h.missed
  ⟨hmissed.held, hmissed.budget, hmissed.maxEntries, hmissed.bytes, hmissed.fits, hmissed.slots,
    hmissed.clock, hmissed.fetches⟩

/-- Fewer entries hold no more than before; a single one that exceeds the budget stays or goes. -/
theorem release (h : Holdings spec c d) {kept gone : List CachedTexture}
    (hkept : kept.Sublist c.entries) (hparts : c.entries.Perm (gone ++ kept)) {after : TextureCache}
    (hafter : after = { c with
      entries := kept
      bytes := c.bytes - weight gone
      evictions := after.evictions
      invalidations := after.invalidations
      failures := after.failures }) :
    Holdings spec after (d.releaseAll gone) := by
  rw [hafter]
  have hweight := weight_perm hparts
  rw [weight_append] at hweight
  have hbytes : c.bytes - weight gone = weight kept := by
    have := h.bytes
    omega
  have hlength := hkept.length_le
  refine ⟨h.held.release hkept hparts, h.budget, h.maxEntries, hbytes, ?_, ?_, ?_, h.fetches⟩
  · dsimp only
    rcases h.fits with hfits | hone
    · exact Or.inl (le_trans (Nat.sub_le _ _) hfits)
    · cases hk : kept with
      | nil =>
        left
        rw [hbytes, hk]
        exact Nat.zero_le _
      | cons e rest =>
        right
        rw [hk, List.length_cons] at hlength
        rw [List.length_cons]
        omega
  · exact fun hslots => le_trans hlength (h.slots hslots)
  · exact fun e he => h.clock e (hkept.subset he)

private theorem evict (h : Holdings spec c d) {dropped kept : List CachedTexture}
    (hparts : c.entries = dropped ++ kept) :
    Holdings spec (c.evict dropped kept) (d.releaseAll dropped) :=
  h.release (hparts ▸ List.sublist_append_right _ _) (.of_eq hparts) rfl

private theorem take (h : Holdings spec c d) {key : TextureKey}
    (hkey : ∀ e ∈ c.entries, e.key ≠ key)
    {rgba : List UInt8} (hsize : rgba.length = 4 * key.width.toNat * key.height.toNat)
    (hclock : ∀ e ∈ c.entries, e.lastUsed < c.clock)
    (hroom : c.entries ≠ [] → c.isFull rgba.length = false) (span : Span) :
    Holdings spec
      { c with
        entries := c.entries ++ [⟨key, ⟨d.nextTexture⟩, rgba, span, c.clock⟩]
        bytes := c.bytes + rgba.length }
      (d.take ⟨key.width.toNat, key.height.toNat, rgba⟩) where
  held := h.held.take hkey hsize span hclock
  budget := h.budget
  maxEntries := h.maxEntries
  bytes := by
    rw [weight_append, ← h.bytes]
    simp [weight]
  fits := by
    cases hentries : c.entries with
    | nil => exact Or.inr rfl
    | cons e rest =>
      left
      have hfree := hroom (by rw [hentries]; exact List.cons_ne_nil e rest)
      simp only [isFull, Bool.or_eq_false_iff, decide_eq_false_iff_not] at hfree
      have := h.budget
      dsimp only
      omega
  slots hslots := by
    rw [List.length_append, List.length_singleton]
    by_cases hentries : c.entries = []
    · rw [hentries, List.length_nil]
      omega
    · have hfree := hroom hentries
      simp only [isFull, h.maxEntries, Bool.or_eq_false_iff, Bool.and_eq_false_iff, bne_eq_false_iff_eq,
        decide_eq_false_iff_not] at hfree
      omega
  clock e he := by
    rcases List.mem_append.mp he with he | he
    · exact h.clock e he
    · rw [List.mem_singleton.mp he]
  fetches := h.fetches

private theorem hit (h : Holdings spec c d) {entry : CachedTexture} (hentry : entry ∈ c.entries)
    (span : Span) :
    Holdings spec ({ ({ c with clock := c.clock + 1 }.touch entry span) with hits := c.hits + 1 }) d := by
  have hlate (e : CachedTexture) (he : e ∈ c.entries) : e.lastUsed < c.clock + 1 :=
    Nat.lt_succ_of_le (h.clock e he)
  have htouched := h.held.touch hentry span hlate
  obtain ⟨before, after, haround, hothers⟩ := exists_around h.held.keys hentry
  have hmoved : c.entries.Perm ((before ++ after) ++ [entry]) :=
    haround ▸ List.perm_middle.trans (List.perm_append_singleton _ _).symm
  have hlength : (before ++ after).length + 1 = c.entries.length := by
    have := hmoved.length_eq
    rw [List.length_append, List.length_singleton] at this
    exact this.symm
  refine ⟨htouched, h.budget, h.maxEntries, ?_, ?_, ?_, ?_, ?_⟩
  · have hweight := weight_perm hmoved
    simp only [touch, hothers, h.bytes, hweight, weight_append]
    rfl
  · simp only [touch, hothers, List.length_append, List.length_singleton] at hlength ⊢
    rw [hlength]
    exact h.fits
  · simp only [touch, hothers, List.length_append, List.length_singleton] at hlength ⊢
    rw [hlength]
    exact h.slots
  · intro e he
    rcases List.mem_append.mp he with he | he
    · exact le_of_lt (hlate e (List.mem_filter.mp he).1)
    · rw [List.mem_singleton.mp he]
      exact Nat.le_refl _
  · have := h.fetches
    simp only [touch]
    omega

end Holdings

def TextureCall.isFetch : TextureCall → Bool
  | .fetch _ => true
  | .invalidate _ | .clear => false

namespace TextureStock

variable {spec : TextureCacheSpec} {s : TextureStock}

theorem holdings_ofSpec {device : DeviceSpec} (h : ofSpec spec device = .ok s) :
    Holdings spec s.cache s.device ∧ s.cache.clock = 0 := by
  simp only [ofSpec, TextureCache.ofSpec] at h
  split at h
  · cases h
  · cases h
    exact ⟨⟨.nil device, rfl, rfl, rfl, Or.inl (Nat.zero_le _), fun _ => Nat.zero_le _, nofun, rfl⟩,
      rfl⟩

theorem holdings_fetch (h : Holdings spec s.cache s.device) (source : TextureSource) :
    Holdings spec (s.fetch source).1.cache (s.fetch source).1.device ∧
      (s.fetch source).1.cache.clock = s.cache.clock + 1 := by
  rcases s.cache.fetch_cases source s.device with
    ⟨entry, hfound, hfetch⟩ | ⟨cause, -, -, hfetch⟩ |
    ⟨rgba, dropped, kept, hnew, -, hyields, ⟨fault, -, hfetch⟩ | ⟨hsound, hfetch⟩⟩
  · simp only [fetch, hfetch]
    exact ⟨h.hit (List.mem_of_find?_eq_some hfound) source.span, rfl⟩
  · simp only [fetch, hfetch]
    exact ⟨h.failed, rfl⟩
  · simp only [fetch, hfetch]
    exact ⟨h.failed.evict hyields.parts, rfl⟩
  · simp only [fetch, hfetch]
    have hroom : Holdings spec (s.cache.missed.evict dropped kept) (s.device.releaseAll dropped) :=
      h.missed.evict hyields.parts
    have hkept {e : CachedTexture} (he : e ∈ kept) : e ∈ s.cache.entries :=
      hyields.parts ▸ List.mem_append_right _ he
    have hkey (e : CachedTexture) (he : e ∈ kept) : e.key ≠ source.key := by
      have := List.find?_eq_none.mp hnew e (hkept he)
      simpa using this
    have hsize : rgba.length = 4 * source.key.width.toNat * source.key.height.toNat := by
      rw [Device.length_of_textureFault?_none hsound, TextureSource.key]
      ring
    have htaken := hroom.take hkey hsize (fun e he => Nat.lt_succ_of_le (h.clock e (hkept he)))
      hyields.enough source.span
    have hnext : (s.device.releaseAll dropped).nextTexture = s.device.nextTexture := by
      rw [Device.releaseAll_eq]
    rw [hnext] at htaken
    exact ⟨htaken, rfl⟩

theorem holdings_serve (h : Holdings spec s.cache s.device) (call : TextureCall) :
    Holdings spec (s.serve call).cache (s.serve call).device ∧
      (s.serve call).cache.clock = s.cache.clock + call.isFetch.toNat := by
  cases call with
  | fetch source => exact holdings_fetch h source
  | invalidate range =>
    rcases Nat.lt_or_ge range.start range.stop with hsome | hempty
    · rw [serve, invalidate_eq h.held.keys hsome]
      exact ⟨h.release List.filter_sublist (List.filter_append_perm _ _).symm rfl, rfl⟩
    · rw [serve, invalidate_of_empty hempty]
      exact ⟨h, rfl⟩
  | clear =>
    simp only [serve, clear_eq h.held.keys]
    exact ⟨h.release (List.nil_sublist _) (by simp) rfl, rfl⟩

private theorem holdings_serveAll (h : Holdings spec s.cache s.device) (calls : List TextureCall) :
    Holdings spec (s.serveAll calls).cache (s.serveAll calls).device ∧
      (s.serveAll calls).cache.clock = s.cache.clock + calls.countP (·.isFetch) := by
  induction calls generalizing s with
  | nil => exact ⟨h, rfl⟩
  | cons call rest ih =>
    obtain ⟨hnext, hclock⟩ := holdings_serve h call
    obtain ⟨hlast, hcount⟩ := ih hnext
    refine ⟨hlast, hcount.trans ?_⟩
    rw [hclock, List.countP_cons, Nat.add_assoc, Nat.add_comm call.isFetch.toNat]
    cases call.isFetch <;> rfl

/-- After any calls, failed ones among them, the entries of a cache account for its bytes and for the
textures of its device, within the limits that it was made with. -/
theorem serveAll_accountsForAll {device : DeviceSpec} {start : TextureStock}
    (hstart : ofSpec spec device = .ok start) (calls : List TextureCall) :
    let after := start.serveAll calls
    let entries := after.cache.entries
    after.cache.bytes = (entries.map (·.rgba.length)).sum ∧
      (entries.map (·.handle)).Nodup ∧
      after.device.textures.Perm (entries.map fun e =>
        (e.handle, ⟨e.key.width.toNat, e.key.height.toNat, e.rgba⟩)) ∧
      (∀ e ∈ entries, e.rgba.length = 4 * e.key.width.toNat * e.key.height.toNat) ∧
      (after.cache.bytes ≤ spec.budget ∨ entries.length = 1) ∧
      (spec.maxEntries ≠ 0 → entries.length ≤ spec.maxEntries) ∧
      entries.Pairwise (fun e f => e.lastUsed < f.lastUsed) ∧
      after.cache.hits + after.cache.misses = calls.countP (·.isFetch) := by
  intro after entries
  obtain ⟨hopened, hzero⟩ := holdings_ofSpec hstart
  obtain ⟨h, hclock⟩ := holdings_serveAll hopened calls
  rw [hzero, Nat.zero_add] at hclock
  exact ⟨h.bytes, h.held.handles, h.held.live, h.held.sizes, h.fits, h.slots, h.held.recency,
    h.fetches.trans hclock⟩

/-- Two rows that fit, a row that is refused after both went, and an image that exceeds the budget. -/
def crowdingCalls : List TextureCall :=
  [.fetch (grayRow 1), .fetch (grayRow 2), .fetch (grayRow 8),
    .fetch { grayRow 4 with height := 2, bytes := List.replicate 8 0 }]

theorem serveAll_accountsForAll_oversized :
    ofSpec ⟨16, 0, .vectorized⟩ { width := 1, height := 1, maxTextureSide := 4 } = .ok rowStock ∧
      (rowStock.serveAll crowdingCalls).cache.evictions = 2 ∧
      (rowStock.serveAll crowdingCalls).cache.bytes = 32 ∧
      (rowStock.serveAll crowdingCalls).cache.entries.length = 1 ∧
      (rowStock.serveAll crowdingCalls).device.textures.Perm
        ((rowStock.serveAll crowdingCalls).cache.entries.map fun e =>
          (e.handle, ⟨e.key.width.toNat, e.key.height.toNat, e.rgba⟩)) := by
  have hstart : ofSpec ⟨16, 0, .vectorized⟩ { width := 1, height := 1, maxTextureSide := 4 } =
      .ok rowStock := rfl
  obtain ⟨-, -, hlive, -⟩ := serveAll_accountsForAll hstart crowdingCalls
  exact ⟨hstart, by decide +kernel, by decide +kernel, by decide +kernel, hlive⟩

end TextureStock

end DisplayPipeline
