import DisplayPipeline.Texture.Source
import DisplayPipeline.Device.Basic
import DisplayPipeline.Event

/-!
# The texture cache

Decoded textures that a device holds, from the least to the most recently fetched. The cache keeps
within a budget of bytes and a number of entries by dropping entries from the front.
-/

namespace DisplayPipeline

/-- Why a texture cannot be had. -/
inductive TextureError where
  | decode (cause : ConvertError)
  | upload (cause : DeviceError)
  | zeroBudget
deriving DecidableEq, Repr

namespace TextureError

def message : TextureError → String
  | decode cause => "texture decode failed: " ++ cause.message
  | upload cause => "texture upload failed: " ++ cause.message
  | zeroBudget => "invalid texture cache configuration: budget_bytes must be > 0"

/-- The failure to fetch a texture, reported. -/
def report (source : TextureSource) : TextureError → Report
  | decode cause =>
    ⟨.warning, "texture decode failed",
      [("address", toString source.address.toNat), ("format", source.format.name),
        ("err", cause.message)]⟩
  | upload cause =>
    ⟨.warning, "texture upload failed; drawing untextured",
      [("address", toString source.address.toNat), ("err", cause.message)]⟩
  | zeroBudget => ⟨.warning, zeroBudget.message, []⟩

end TextureError

/-- How a cache is limited. -/
structure TextureCacheSpec where
  budget : Nat := 33554432
  /-- The number of entries allowed; zero sets no limit. -/
  maxEntries : Nat := 0
  digest : Digest.Route := .vectorized
deriving DecidableEq, Repr

/-- A texture in the cache. -/
structure CachedTexture where
  key : TextureKey
  handle : TextureHandle
  /-- The canonical pixels. -/
  rgba : List UInt8
  source : Span
  /-- The number of the fetch that last asked for the texture. -/
  lastUsed : Nat
deriving DecidableEq, Repr

/-- The cached textures, and counts of what happened. -/
structure TextureCache where
  budget : Nat
  maxEntries : Nat
  /-- The entries, the least recently fetched first. -/
  entries : List CachedTexture := []
  /-- The bytes of canonical pixels held. -/
  bytes : Nat := 0
  /-- The number of fetches. -/
  clock : Nat := 0
  hits : Nat := 0
  misses : Nat := 0
  evictions : Nat := 0
  invalidations : Nat := 0
  failures : Nat := 0
deriving Repr

/-- What a successful fetch gives. -/
structure FetchedTexture where
  handle : TextureHandle
  key : TextureKey
  hit : Bool
deriving DecidableEq, Repr

namespace TextureCache

def ofSpec (spec : TextureCacheSpec) : Except TextureError TextureCache :=
  if spec.budget = 0 then .error .zeroBudget
  else .ok { budget := spec.budget, maxEntries := spec.maxEntries }

def find? (c : TextureCache) (key : TextureKey) : Option CachedTexture :=
  c.entries.find? fun e => e.key = key

/-- Whether `incoming` more bytes or one more entry would be too much. -/
def isFull (c : TextureCache) (incoming : Nat) : Bool :=
  c.budget < c.bytes + incoming || (c.maxEntries != 0 && c.maxEntries ≤ c.entries.length)

/-- Drops from the list of entries until `incoming` more bytes fit. -/
def evictFor (incoming : Nat) :
    List CachedTexture → TextureCache → Device → TextureCache × Device
  | [], c, d => (c, d)
  | oldest :: rest, c, d =>
    if c.isFull incoming then
      evictFor incoming rest
        { c with
          entries := rest
          bytes := c.bytes - oldest.rgba.length
          evictions := c.evictions + 1 }
        (d.releaseTexture oldest.handle)
    else (c, d)

/-- Drops entries from the front until `incoming` more bytes and one more entry fit, or until none
is left. -/
def makeRoom (c : TextureCache) (incoming : Nat) (d : Device) : TextureCache × Device :=
  evictFor incoming c.entries c d

/-- Moves the entry of a key to the end, as fetched now from `span`. -/
def touch (c : TextureCache) (entry : CachedTexture) (span : Span) : TextureCache :=
  { c with
    entries := c.entries.filter (fun e => e.key ≠ entry.key) ++
      [{ entry with lastUsed := c.clock, source := span }] }

/-- The texture of a source, decoded and uploaded unless the cache has it. Where that fails,
nothing is added. -/
def fetch (c : TextureCache) (source : TextureSource) (d : Device) :
    TextureCache × Device × Except TextureError FetchedTexture :=
  let key := source.key
  let c := { c with clock := c.clock + 1 }
  match c.find? key with
  | some entry =>
    ({ c.touch entry source.span with hits := c.hits + 1 }, d, .ok ⟨entry.handle, key, true⟩)
  | none =>
    let c := { c with misses := c.misses + 1 }
    match source.decode with
    | .error cause => ({ c with failures := c.failures + 1 }, d, .error (.decode cause))
    | .ok rgba =>
      let (c, d) := c.makeRoom rgba.length d
      match d.upload source.width.toNat source.height.toNat rgba with
      | (d, .error cause) => ({ c with failures := c.failures + 1 }, d, .error (.upload cause))
      | (d, .ok handle) =>
        let entry : CachedTexture :=
          { key, handle, rgba, source := source.span, lastUsed := c.clock }
        ({ c with entries := c.entries ++ [entry], bytes := c.bytes + rgba.length }, d,
          .ok ⟨handle, key, false⟩)

def dropAll (c : TextureCache) (stale : List CachedTexture) (d : Device) :
    TextureCache × Device :=
  ({ c with
      entries := c.entries.filter fun e => !stale.any (fun s => s.key = e.key)
      bytes := stale.foldl (fun n e => n - e.rgba.length) c.bytes },
    stale.foldl (fun d e => d.releaseTexture e.handle) d)

/-- Drops the entries that came from a range of console memory, and counts them. -/
def invalidate (c : TextureCache) (range : Span) (d : Device) : TextureCache × Device × Nat :=
  if range.isEmpty then (c, d, 0)
  else
    let stale := c.entries.filter fun e => e.source.overlaps range
    let (c, d) := c.dropAll stale d
    ({ c with invalidations := c.invalidations + stale.length }, d, stale.length)

def clear (c : TextureCache) (d : Device) : TextureCache × Device := c.dropAll c.entries d

end TextureCache

end DisplayPipeline
