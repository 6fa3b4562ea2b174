import DisplayPipeline.Texture.Cache
import Mathlib.Algebra.Ring.Nat
import Mathlib.Data.List.Basic

/-!
# What fetching a texture does

Room is made before a texture is uploaded, by dropping the least recently fetched entries, as few as
will do. `TextureCache.fetch_cases` lists all that a fetch can come to. From it follows what a failed
fetch leaves behind: it costs entries exactly where a decoded image did not fit beside them and was
refused by the device afterwards.
-/

namespace DisplayPipeline

namespace Device

def releaseAll (d : Device) (entries : List CachedTexture) : Device :=
  entries.foldl (fun d e => d.releaseTexture e.handle) d

@[simp] theorem releaseAll_nil (d : Device) : d.releaseAll [] = d := rfl

@[simp] theorem releaseAll_cons (d : Device) (e : CachedTexture) (rest : List CachedTexture) :
    d.releaseAll (e :: rest) = (d.releaseTexture e.handle).releaseAll rest := rfl

theorem releaseAll_eq (d : Device) (entries : List CachedTexture) :
    d.releaseAll entries =
      { d with textures := d.textures.filter fun t => t.1 ∉ entries.map (·.handle) } := by
  induction entries generalizing d with
  | nil => simp
  | cons e rest ih =>
    rw [releaseAll_cons, ih]
    simp only [releaseTexture, List.filter_filter, List.map_cons, List.mem_cons, not_or]
    congr 1
    apply List.filter_congr
    intro t _
    simp [Bool.and_comm]

def take (d : Device) (t : DeviceTexture) : Device :=
  { d with
    textures := d.textures ++ [(⟨d.nextTexture⟩, t)]
    nextTexture := d.nextTexture + 1 }

end Device

namespace TextureCache

def weight (entries : List CachedTexture) : Nat := (entries.map (·.rgba.length)).sum

/-- The cache after the entries `dropped` were dropped to make room, and `kept` stayed. -/
def evict (c : TextureCache) (dropped kept : List CachedTexture) : TextureCache :=
  { c with
    entries := kept
    bytes := c.bytes - weight dropped
    evictions := c.evictions + dropped.length }

private theorem evict_nil (c : TextureCache) : c.evict [] c.entries = c := rfl

private theorem evictFor_cases (c : TextureCache) (incoming : Nat) (d : Device) :
    ∃ dropped kept, c.entries = dropped ++ kept ∧
      evictFor incoming c.entries c d = (c.evict dropped kept, d.releaseAll dropped) ∧
      (∀ early late, dropped = early ++ late → late ≠ [] →
        (c.evict early (late ++ kept)).isFull incoming = true) ∧
      (kept ≠ [] → (c.evict dropped kept).isFull incoming = false) := by
  induction hentries : c.entries generalizing c d with
  | nil =>
    have hstays : c.evict [] [] = c := hentries ▸ c.evict_nil
    refine ⟨[], [], rfl, by rw [hstays]; rfl, ?_, fun hnone => absurd rfl hnone⟩
    intro early late happ hlate
    exact absurd (List.append_eq_nil_iff.mp happ.symm).2 hlate
  | cons oldest rest ih =>
    cases hfull : c.isFull incoming with
    | false =>
      have hstays : c.evict [] (oldest :: rest) = c := hentries ▸ c.evict_nil
      refine ⟨[], oldest :: rest, rfl, by simp [evictFor, hfull, hstays], ?_, ?_⟩
      · intro early late happ hlate
        exact absurd (List.append_eq_nil_iff.mp happ.symm).2 hlate
      · intro _
        rw [hstays, hfull]
    | true =>
      have hnext : c.evict [oldest] rest =
          { c with
            entries := rest
            bytes := c.bytes - oldest.rgba.length
            evictions := c.evictions + 1 } := by
        simp [evict, weight]
      have hmore (dropped kept : List CachedTexture) :
          (c.evict [oldest] rest).evict dropped kept = c.evict (oldest :: dropped) kept := by
        simp [evict, weight, Nat.sub_sub, Nat.add_assoc, Nat.add_comm 1]
      obtain ⟨dropped, kept, hrest, hresult, hearlier, hroom⟩ :=
        ih (c.evict [oldest] rest) (d.releaseTexture oldest.handle) rfl
      refine ⟨oldest :: dropped, kept, by rw [hrest]; rfl, ?_, ?_, ?_⟩
      · rw [evictFor, if_pos hfull, ← hnext, hresult, hmore, Device.releaseAll_cons]
      · intro early late happ hlate
        cases early with
        | nil =>
          have hall : late ++ kept = c.entries := by
            rw [hentries, hrest, ← List.cons_append, happ, List.nil_append]
          rw [hall, evict_nil, hfull]
        | cons first early =>
          obtain ⟨rfl, hdropped⟩ := List.cons.inj happ
          rw [← hmore]
          exact hearlier early late hdropped hlate
      · rw [← hmore]
        exact hroom

/-- The entries dropped to make room are the least recently fetched ones, and no more of them than
it takes. -/
theorem makeRoom_cases (c : TextureCache) (incoming : Nat) (d : Device) :
    ∃ dropped kept, c.entries = dropped ++ kept ∧
      c.makeRoom incoming d = (c.evict dropped kept, d.releaseAll dropped) ∧
      (∀ early late, dropped = early ++ late → late ≠ [] →
        (c.evict early (late ++ kept)).isFull incoming = true) ∧
      (kept ≠ [] → (c.evict dropped kept).isFull incoming = false) :=
  evictFor_cases c incoming d

def missed (c : TextureCache) : TextureCache :=
  { c with clock := c.clock + 1, misses := c.misses + 1 }

def failed (c : TextureCache) : TextureCache := { c.missed with failures := c.failures + 1 }

/-- The entries that go and those that stay when room is made for an image. -/
structure Yields (c : TextureCache) (rgba : List UInt8) (dropped kept : List CachedTexture) :
    Prop where
  parts : c.entries = dropped ++ kept
  needed : ∀ early late, dropped = early ++ late → late ≠ [] →
    (c.evict early (late ++ kept)).isFull rgba.length = true
  enough : kept ≠ [] → (c.evict dropped kept).isFull rgba.length = false

private theorem Yields.nothing_iff {c : TextureCache} {rgba : List UInt8}
    {dropped kept : List CachedTexture} (h : c.Yields rgba dropped kept) :
    dropped = [] ↔ c.entries = [] ∨ c.isFull rgba.length = false := by
  constructor
  · rintro rfl
    have hkept : kept = c.entries := h.parts.symm
    by_cases hnone : kept = []
    · exact Or.inl (hkept ▸ hnone)
    · right
      have := h.enough hnone
      rwa [hkept, evict_nil] at this
  · rintro (hnone | hfits)
    · exact (List.append_eq_nil_iff.mp (h.parts.symm.trans hnone)).1
    · by_contra hsome
      have := h.needed [] dropped rfl hsome
      rw [← h.parts, evict_nil, hfits] at this
      cases this

/-- A fetch finds its texture, or cannot decode its source, or makes room and then has the texture
refused or taken in. -/
theorem fetch_cases (c : TextureCache) (source : TextureSource) (d : Device) :
    (∃ entry, c.find? source.key = some entry ∧
      c.fetch source d =
        ({ ({ c with clock := c.clock + 1 }.touch entry source.span) with hits := c.hits + 1 }, d,
          .ok ⟨entry.handle, source.key, true⟩)) ∨
    (∃ cause, c.find? source.key = none ∧ source.decode = .error cause ∧
      c.fetch source d = (c.failed, d, .error (.decode cause))) ∨
    (∃ rgba dropped kept, c.find? source.key = none ∧ source.decode = .ok rgba ∧
      c.Yields rgba dropped kept ∧
      ((∃ fault, d.textureFault? source.width.toNat source.height.toNat rgba.length = some fault ∧
        c.fetch source d = (c.failed.evict dropped kept, d.releaseAll dropped,
          .error (.upload (.textureRejected source.width.toNat source.height.toNat fault)))) ∨
      (d.textureFault? source.width.toNat source.height.toNat rgba.length = none ∧
        c.fetch source d =
          ({ c.missed.evict dropped kept with
              entries := kept ++ [⟨source.key, ⟨d.nextTexture⟩, rgba, source.span, c.clock + 1⟩]
              bytes := c.bytes - weight dropped + rgba.length },
            (d.releaseAll dropped).take ⟨source.width.toNat, source.height.toNat, rgba⟩,
            .ok ⟨⟨d.nextTexture⟩, source.key, false⟩)))) := by
  cases hfound : c.find? source.key with
  | some entry =>
    left
    have hfound' : { c with clock := c.clock + 1 }.find? source.key = some entry := hfound
    exact ⟨entry, rfl, by simp [fetch, hfound', touch]⟩
  | none =>
    right
    have hfound' : { c with clock := c.clock + 1 }.find? source.key = none := hfound
    cases hdecode : source.decode with
    | error cause => exact Or.inl ⟨cause, rfl, rfl, by simp [fetch, hfound', hdecode, failed, missed]⟩
    | ok rgba =>
      right
      obtain ⟨dropped, kept, hparts, hroom, hneeded, henough⟩ :=
        makeRoom_cases c.missed rgba.length d
      refine ⟨rgba, dropped, kept, rfl, rfl, ⟨hparts, hneeded, henough⟩, ?_⟩
      have hroom' : { c with clock := c.clock + 1, misses := c.misses + 1 }.makeRoom rgba.length d =
          (c.missed.evict dropped kept, d.releaseAll dropped) := hroom
      have hfault : (d.releaseAll dropped).textureFault? source.width.toNat source.height.toNat
          rgba.length = d.textureFault? source.width.toNat source.height.toNat rgba.length := by
        rw [Device.releaseAll_eq]
        rfl
      have hnext : (d.releaseAll dropped).nextTexture = d.nextTexture := by
        rw [Device.releaseAll_eq]
      cases hrefused : d.textureFault? source.width.toNat source.height.toNat rgba.length with
      | some fault =>
        left
        refine ⟨fault, rfl, ?_⟩
        simp [fetch, hfound', hdecode, hroom', Device.upload, hfault, hrefused, failed, missed,
          evict]
      | none =>
        right
        refine ⟨rfl, ?_⟩
        simp [fetch, hfound', hdecode, hroom', Device.upload, Device.take, hfault, hrefused, hnext,
          missed, evict]

end TextureCache

inductive TextureCall where
  | fetch (source : TextureSource)
  | invalidate (range : Span)
  | clear
deriving DecidableEq, Repr

/-- A texture cache with the device that holds its textures. -/
structure TextureStock where
  cache : TextureCache
  device : Device

namespace TextureStock

def ofSpec (spec : TextureCacheSpec) (device : DeviceSpec) : Except TextureError TextureStock :=
  (TextureCache.ofSpec spec).map fun cache => ⟨cache, .ofSpec device⟩

def fetch (s : TextureStock) (source : TextureSource) :
    TextureStock × Except TextureError FetchedTexture :=
  let (cache, device, reply) := s.cache.fetch source s.device
  (⟨cache, device⟩, reply)

def serve (s : TextureStock) : TextureCall → TextureStock
  | .fetch source => (s.fetch source).1
  | .invalidate range =>
    let (cache, device, _) := s.cache.invalidate range s.device
    ⟨cache, device⟩
  | .clear =>
    let (cache, device) := s.cache.clear s.device
    ⟨cache, device⟩

def serveAll (s : TextureStock) (calls : List TextureCall) : TextureStock := calls.foldl serve s

/-- A failed fetch drops the entries that room was made of, and changes nothing else but counts. So
it leaves entries and device as they were exactly where nothing was decoded, nothing was held, or
the image fits beside all that is held. -/
theorem failedFetch_unharmed_iff {s : TextureStock} {source : TextureSource}
    {cause : TextureError} (h : (s.fetch source).2 = .error cause) :
    ((s.fetch source).1 = ⟨s.cache.failed, s.device⟩ ↔
      ∀ rgba, source.decode = .ok rgba →
        s.cache.entries = [] ∨ s.cache.isFull rgba.length = false) ∧
    ∃ dropped kept, s.cache.entries = dropped ++ kept ∧
      (s.fetch source).1 = ⟨s.cache.failed.evict dropped kept, s.device.releaseAll dropped⟩ ∧
      (dropped ≠ [] → ∃ rgba, source.decode = .ok rgba ∧ s.cache.Yields rgba dropped kept) := by
  rcases s.cache.fetch_cases source s.device with
    ⟨entry, -, hfetch⟩ | ⟨cause, -, hdecode, hfetch⟩ |
    ⟨rgba, dropped, kept, -, hdecode, hyields, ⟨fault, -, hfetch⟩ | ⟨-, hfetch⟩⟩
  · simp [fetch, hfetch] at h
  · have hafter : (s.fetch source).1 = ⟨s.cache.failed, s.device⟩ := by simp [fetch, hfetch]
    refine ⟨iff_of_true hafter fun rgba hrgba => ?_, [], s.cache.entries, rfl, hafter, ?_⟩
    · rw [hdecode] at hrgba
      cases hrgba
    · intro hnone
      exact absurd rfl hnone
  · have hafter : (s.fetch source).1 =
        ⟨s.cache.failed.evict dropped kept, s.device.releaseAll dropped⟩ := by simp [fetch, hfetch]
    have hsame : (s.fetch source).1 = ⟨s.cache.failed, s.device⟩ ↔ dropped = [] := by
      rw [hafter]
      constructor
      · intro hsame
        have hkept : kept = s.cache.entries :=
          congrArg (fun after : TextureStock => after.cache.entries) hsame
        simpa [hkept] using hyields.parts
      · intro hnone
        have hkept : kept = s.cache.entries := by simp [hyields.parts, hnone]
        rw [hnone, hkept]
        rfl
    refine ⟨?_, dropped, kept, hyields.parts, hafter, fun _ => ⟨rgba, hdecode, hyields⟩⟩
    rw [hsame, hyields.nothing_iff, hdecode]
    simp
  · simp [fetch, hfetch] at h

def grayRow (width : UInt32) : TextureSource :=
  ⟨0, width, .i8, width, 1, none, List.replicate width.toNat 0⟩

/-- A cache that has room for one row of four texels, on a device that takes none longer. -/
def rowStock : TextureStock :=
  ⟨{ budget := 16, maxEntries := 0 }, .ofSpec { width := 1, height := 1, maxTextureSide := 4 }⟩

/-- A row that the device refuses has cost the one that was held. -/
theorem longRow_evicts :
    TextureStock.ofSpec ⟨16, 0, .vectorized⟩ { width := 1, height := 1, maxTextureSide := 4 } =
      .ok rowStock ∧
    let before := rowStock.serveAll [.fetch (grayRow 4)]
    (before.fetch (grayRow 8)).2 = .error (.upload (.textureRejected 8 1 .tooLarge)) ∧
      before.cache.entries.length = 1 ∧ before.device.textures.length = 1 ∧
      (before.fetch (grayRow 8)).1.cache.entries = [] ∧
      (before.fetch (grayRow 8)).1.device.textures = [] := by
  refine ⟨rfl, ?_⟩
  decide +kernel

theorem failedFetch_unharmed_iff_longRow :
    let before := rowStock.serveAll [.fetch (grayRow 4)]
    (before.fetch (grayRow 8)).2 = .error (.upload (.textureRejected 8 1 .tooLarge)) ∧
      (before.fetch (grayRow 8)).1 ≠ ⟨before.cache.failed, before.device⟩ := by
  intro before
  have hrefused : (before.fetch (grayRow 8)).2 =
      .error (.upload (.textureRejected 8 1 .tooLarge)) := by decide +kernel
  refine ⟨hrefused, fun hsame => ?_⟩
  have hroom := (failedFetch_unharmed_iff hrefused).1.mp hsame ((List.range 8).flatMap
    fun _ => [0, 0, 0, 0]) (by decide +kernel)
  revert hroom
  decide +kernel

end TextureStock

end DisplayPipeline
