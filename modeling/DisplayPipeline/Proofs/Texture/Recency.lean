import DisplayPipeline.Proofs.Texture.Holdings

/-!
# The list that a texture cache is to its users

Textures from the least to the most recently fetched, and how many were dropped. `Shelf.Step` tells
what each call does to the list. As long as the device takes in all images, a cache answers as the
list does and comes to the same textures.
-/

namespace DisplayPipeline

/-- A texture as the users of a cache see it. -/
structure Shelved where
  key : TextureKey
  handle : TextureHandle
  rgba : List UInt8
  source : Span

structure Shelf where
  /-- The least recently fetched first. -/
  items : List Shelved := []
  evictions : Nat := 0
  invalidations : Nat := 0

inductive TextureReply where
  | fetched (result : Except TextureError FetchedTexture)
  | dropped (count : Nat)
  | cleared

namespace Shelf

/-- Whether so many more bytes and one more texture are within the limits. -/
def Admits (spec : TextureCacheSpec) (items : List Shelved) (incoming : Nat) : Prop :=
  (items.map (·.rgba.length)).sum + incoming ≤ spec.budget ∧
    (spec.maxEntries ≠ 0 → items.length + 1 ≤ spec.maxEntries)

def isFrom (range : Span) (t : Shelved) : Bool :=
  t.source.start < range.stop && range.start < t.source.stop

/-- What a call may be answered, and the list then. The handle of a new texture is the device's. -/
inductive Step (spec : TextureCacheSpec) (s : Shelf) :
    TextureCall → TextureReply → Shelf → Prop where
  | hit {source : TextureSource} {before after : List Shelved} {t : Shelved} :
      s.items = before ++ t :: after → t.key = source.key →
      (∀ other ∈ before ++ after, other.key ≠ source.key) →
      Step spec s (.fetch source) (.fetched (.ok ⟨t.handle, source.key, true⟩))
        { s with items := before ++ after ++ [{ t with source := source.span }] }
  | undecodable {source : TextureSource} {cause : ConvertError} :
      (∀ t ∈ s.items, t.key ≠ source.key) → source.decode = .error cause →
      Step spec s (.fetch source) (.fetched (.error (.decode cause))) s
  /-- The shortest part from the front goes that leaves room, or all. -/
  | miss {source : TextureSource} {rgba : List UInt8} {dropped kept : List Shelved}
      {handle : TextureHandle} :
      (∀ t ∈ s.items, t.key ≠ source.key) → source.decode = .ok rgba →
      s.items = dropped ++ kept → kept = [] ∨ Admits spec kept rgba.length →
      (∀ early late, dropped = early ++ late → late ≠ [] →
        ¬ Admits spec (late ++ kept) rgba.length) →
      Step spec s (.fetch source) (.fetched (.ok ⟨handle, source.key, false⟩))
        { s with
          items := kept ++ [⟨source.key, handle, rgba, source.span⟩]
          evictions := s.evictions + dropped.length }
  | invalidate {range : Span} : range.start < range.stop →
      Step spec s (.invalidate range) (.dropped (s.items.countP (isFrom range)))
        { s with
          items := s.items.filter fun t => !isFrom range t
          invalidations := s.invalidations + s.items.countP (isFrom range) }
  | invalidateNothing {range : Span} : range.stop ≤ range.start →
      Step spec s (.invalidate range) (.dropped 0) s
  | clear : Step spec s .clear .cleared { s with items := [] }

/-- Calls with their answers, one after the other. -/
inductive Run (spec : TextureCacheSpec) :
    Shelf → List (TextureCall × TextureReply) → Shelf → Prop where
  | done {s : Shelf} : Run spec s [] s
  | call {s t u : Shelf} {call : TextureCall} {reply : TextureReply}
      {rest : List (TextureCall × TextureReply)} :
      s.Step spec call reply t → Run spec t rest u → Run spec s ((call, reply) :: rest) u

end Shelf

def CachedTexture.shelved (e : CachedTexture) : Shelved := ⟨e.key, e.handle, e.rgba, e.source⟩

/-- The list that a cache stands for. -/
def TextureCache.shelf (c : TextureCache) : Shelf :=
  ⟨c.entries.map (·.shelved), c.evictions, c.invalidations⟩

def TextureReply.isRefusal : TextureReply → Bool
  | .fetched (.error (.upload _)) => true
  | _ => false

namespace TextureStock

def answer (s : TextureStock) : TextureCall → TextureReply
  | .fetch source => .fetched (s.fetch source).2
  | .invalidate range => .dropped (s.cache.invalidate range s.device).2.2
  | .clear => .cleared

def transcript (s : TextureStock) : List TextureCall → List (TextureCall × TextureReply)
  | [] => []
  | call :: rest => (call, s.answer call) :: (s.serve call).transcript rest

end TextureStock

namespace TextureCache

variable {c : TextureCache} {spec : TextureCacheSpec} {d : Device}

private theorem isFull_evict_iff (h : Holdings spec c d) {gone rest : List CachedTexture}
    (hparts : c.entries = gone ++ rest) (incoming : Nat) :
    (c.evict gone rest).isFull incoming = false ↔
      Shelf.Admits spec (rest.map (·.shelved)) incoming := by
  have hbytes : c.bytes - weight gone = weight rest := by
    have := h.bytes
    rw [hparts, weight_append] at this
    omega
  have hweight : ((rest.map (·.shelved)).map (·.rgba.length)).sum = weight rest := by
    rw [List.map_map]
    rfl
  simp only [isFull, evict, Shelf.Admits, hbytes, hweight, h.budget, h.maxEntries, List.length_map,
    Bool.or_eq_false_iff, Bool.and_eq_false_iff, bne_eq_false_iff_eq, decide_eq_false_iff_not]
  constructor
  · rintro ⟨hfits, hslots⟩
    exact ⟨by omega, fun hlimit => by omega⟩
  · rintro ⟨hfits, hslots⟩
    exact ⟨by omega, by omega⟩

private theorem key_ne_of_find?_none {key : TextureKey} (hnew : c.find? key = none) :
    ∀ t ∈ c.shelf.items, t.key ≠ key := by
  intro t ht
  obtain ⟨e, he, rfl⟩ := List.mem_map.mp ht
  exact fun hsame => List.find?_eq_none.mp hnew e he (decide_eq_true hsame)

private theorem exists_shelf_touch {key : TextureKey} {entry : CachedTexture}
    (hkeys : (c.entries.map (·.key)).Nodup) (hfound : c.find? key = some entry) (span : Span) :
    entry.key = key ∧ ∃ before after, c.shelf.items = before ++ entry.shelved :: after ∧
      (∀ other ∈ before ++ after, other.key ≠ key) ∧
      (c.touch entry span).shelf =
        { c.shelf with items := before ++ after ++ [{ entry.shelved with source := span }] } := by
  have hkey : entry.key = key := by simpa using List.find?_some hfound
  obtain ⟨before, after, haround, hothers⟩ :=
    exists_around hkeys (List.mem_of_find?_eq_some hfound)
  refine ⟨hkey, before.map (·.shelved), after.map (·.shelved), ?_, ?_, ?_⟩
  · simp [shelf, haround]
  · intro other hother
    rw [← List.map_append, ← hothers] at hother
    obtain ⟨e, he, rfl⟩ := List.mem_map.mp hother
    rw [← hkey]
    exact of_decide_eq_true (List.mem_filter.mp he).2
  · simp only [shelf, touch, hothers, List.map_append, List.map_singleton]
    rfl

/-- What stays leaves room. -/
theorem admits_of_yields (h : Holdings spec c d) {rgba : List UInt8}
    {dropped kept : List CachedTexture} (hyields : c.Yields rgba dropped kept) :
    kept.map (·.shelved) = [] ∨ Shelf.Admits spec (kept.map (·.shelved)) rgba.length := by
  by_cases hnone : kept = []
  · exact Or.inl (by rw [hnone, List.map_nil])
  · exact Or.inr ((isFull_evict_iff h hyields.parts _).mp (hyields.enough hnone))

/-- Had less been dropped, there would be no room. -/
theorem not_admits_of_yields (h : Holdings spec c d) {rgba : List UInt8}
    {dropped kept : List CachedTexture} (hyields : c.Yields rgba dropped kept)
    (early late : List Shelved) (happ : dropped.map (·.shelved) = early ++ late)
    (hlate : late ≠ []) : ¬ Shelf.Admits spec (late ++ kept.map (·.shelved)) rgba.length := by
  intro hadmits
  obtain ⟨first, second, rfl, rfl, rfl⟩ := List.map_eq_append_iff.mp happ
  have hparts : c.entries = first ++ (second ++ kept) := by
    rw [← List.append_assoc, hyields.parts]
  have hsecond : second ≠ [] := fun hnone => hlate (by rw [hnone, List.map_nil])
  have hfull := hyields.needed first second rfl hsecond
  rw [← List.map_append, ← isFull_evict_iff h hparts, hfull] at hadmits
  cases hadmits

end TextureCache

namespace TextureStock

open TextureCache

variable {spec : TextureCacheSpec} {s : TextureStock}

private theorem step_fetch (h : Holdings spec s.cache s.device) {source : TextureSource}
    (htaken : (s.answer (.fetch source)).isRefusal = false) :
    s.cache.shelf.Step spec (.fetch source) (s.answer (.fetch source))
      (s.serve (.fetch source)).cache.shelf := by
  rcases s.cache.fetch_cases source s.device with
    ⟨entry, hfound, hfetch⟩ | ⟨cause, hnew, hdecode, hfetch⟩ |
    ⟨rgba, dropped, kept, hnew, hdecode, hyields, ⟨fault, -, hfetch⟩ | ⟨-, hfetch⟩⟩
  · obtain ⟨hkey, before, after, hitems, hothers, htouched⟩ :=
      exists_shelf_touch h.held.keys hfound source.span
    have hmoved : (s.serve (.fetch source)).cache.shelf =
        { s.cache.shelf with
          items := before ++ after ++ [{ entry.shelved with source := source.span }] } := by
      rw [← htouched]
      simp only [serve, fetch, hfetch, shelf, touch, List.map_append]
      rfl
    have hanswer : s.answer (.fetch source) =
        .fetched (.ok ⟨entry.shelved.handle, source.key, true⟩) := by
      rw [answer, fetch, hfetch]
      rfl
    rw [hmoved, hanswer]
    exact .hit hitems hkey hothers
  · have hanswer : s.answer (.fetch source) = .fetched (.error (.decode cause)) := by
      rw [answer, fetch, hfetch]
    have hsame : (s.serve (.fetch source)).cache.shelf = s.cache.shelf := by
      rw [serve, fetch, hfetch]
      rfl
    rw [hanswer, hsame]
    exact .undecodable (key_ne_of_find?_none hnew) hdecode
  · simp [answer, fetch, hfetch, TextureReply.isRefusal] at htaken
  · have hitems : s.cache.shelf.items = dropped.map (·.shelved) ++ kept.map (·.shelved) := by
      simp [shelf, hyields.parts]
    have hadded : (s.serve (.fetch source)).cache.shelf =
        { s.cache.shelf with
          items := kept.map (·.shelved) ++ [⟨source.key, ⟨s.device.nextTexture⟩, rgba, source.span⟩]
          evictions := s.cache.shelf.evictions + (dropped.map (·.shelved)).length } := by
      simp [serve, fetch, hfetch, shelf, evict, missed, CachedTexture.shelved]
    have hanswer : s.answer (.fetch source) =
        .fetched (.ok ⟨⟨s.device.nextTexture⟩, source.key, false⟩) := by
      rw [answer, fetch, hfetch]
    rw [hadded, hanswer]
    exact .miss (key_ne_of_find?_none hnew) hdecode hitems (admits_of_yields h hyields)
      (not_admits_of_yields h hyields)

private theorem step_invalidate (h : Holdings spec s.cache s.device) (range : Span) :
    s.cache.shelf.Step spec (.invalidate range) (s.answer (.invalidate range))
      (s.serve (.invalidate range)).cache.shelf := by
  rcases Nat.lt_or_ge range.start range.stop with hsome | hempty
  · have hcount : (s.cache.entries.filter fun e => e.source.overlaps range).length =
        s.cache.shelf.items.countP (Shelf.isFrom range) := by
      rw [shelf, List.countP_map, List.countP_eq_length_filter]
      rfl
    have hkept : (s.cache.entries.filter fun e => !e.source.overlaps range).map (·.shelved) =
        s.cache.shelf.items.filter fun t => !Shelf.isFrom range t := by
      rw [shelf, List.filter_map]
      rfl
    have hanswer : s.answer (.invalidate range) =
        .dropped (s.cache.shelf.items.countP (Shelf.isFrom range)) := by
      rw [answer, invalidate_eq h.held.keys hsome, hcount]
    have hleft : (s.serve (.invalidate range)).cache.shelf =
        { s.cache.shelf with
          items := s.cache.shelf.items.filter fun t => !Shelf.isFrom range t
          invalidations :=
            s.cache.shelf.invalidations + s.cache.shelf.items.countP (Shelf.isFrom range) } := by
      rw [serve, invalidate_eq h.held.keys hsome, ← hkept, ← hcount]
      rfl
    rw [hanswer, hleft]
    exact .invalidate hsome
  · rw [answer, serve, invalidate_of_empty hempty]
    exact .invalidateNothing hempty

private theorem step_clear (h : Holdings spec s.cache s.device) :
    s.cache.shelf.Step spec .clear (s.answer .clear) (s.serve .clear).cache.shelf := by
  have hcleared : (s.serve .clear).cache.shelf = { s.cache.shelf with items := [] } := by
    rw [serve, clear_eq h.held.keys]
    rfl
  rw [hcleared]
  exact .clear

private theorem step_serve (h : Holdings spec s.cache s.device) {call : TextureCall}
    (htaken : (s.answer call).isRefusal = false) :
    s.cache.shelf.Step spec call (s.answer call) (s.serve call).cache.shelf := by
  cases call with
  | fetch source => exact step_fetch h htaken
  | invalidate range => exact step_invalidate h range
  | clear => exact step_clear h

private theorem run_serveAll (h : Holdings spec s.cache s.device) (calls : List TextureCall)
    (htaken : ∀ said ∈ s.transcript calls, said.2.isRefusal = false) :
    Shelf.Run spec s.cache.shelf (s.transcript calls) (s.serveAll calls).cache.shelf := by
  induction calls generalizing s with
  | nil => exact .done
  | cons call rest ih =>
    have hstep := step_serve h (htaken _ List.mem_cons_self)
    have hrest := ih (holdings_serve h call).1 fun said hsaid =>
      htaken said (List.mem_cons_of_mem _ hsaid)
    exact .call hstep hrest

/-- Where no image is refused, a new cache answers any calls as the list does that is empty at first,
and then stands for the same textures and the same counts. -/
theorem serveAll_keepsRecencyOrder {device : DeviceSpec} {start : TextureStock}
    (hstart : ofSpec spec device = .ok start) (calls : List TextureCall)
    (htaken : ∀ said ∈ start.transcript calls, said.2.isRefusal = false) :
    Shelf.Run spec {} (start.transcript calls) (start.serveAll calls).cache.shelf := by
  have hempty : start.cache.shelf = {} := by
    simp only [ofSpec, TextureCache.ofSpec] at hstart
    split at hstart
    · cases hstart
    · cases hstart
      rfl
  have hrun := run_serveAll (holdings_ofSpec hstart).1 calls htaken
  rwa [hempty] at hrun

/-- A row of one texel is fetched again before one of three needs the room of the oldest. -/
def returningCalls : List TextureCall :=
  [.fetch (grayRow 1), .fetch (grayRow 2), .fetch (grayRow 1), .fetch (grayRow 3),
    .invalidate ⟨3, 9⟩]

theorem serveAll_keepsRecencyOrder_returning :
    ofSpec ⟨16, 0, .vectorized⟩ { width := 1, height := 1, maxTextureSide := 4 } = .ok rowStock ∧
      (∀ said ∈ rowStock.transcript returningCalls, said.2.isRefusal = false) ∧
      Shelf.Run ⟨16, 0, .vectorized⟩ {} (rowStock.transcript returningCalls)
        (rowStock.serveAll returningCalls).cache.shelf ∧
      (rowStock.serveAll returningCalls).cache.shelf.items.map (·.handle) = [⟨1⟩, ⟨3⟩] ∧
      (rowStock.serveAll returningCalls).cache.shelf.evictions = 1 := by
  have hstart : ofSpec ⟨16, 0, .vectorized⟩ { width := 1, height := 1, maxTextureSide := 4 } =
      .ok rowStock := rfl
  have htaken : ∀ said ∈ rowStock.transcript returningCalls, said.2.isRefusal = false := by
    decide +kernel
  exact ⟨hstart, htaken, serveAll_keepsRecencyOrder hstart returningCalls htaken, by decide +kernel,
    by decide +kernel⟩

end TextureStock

end DisplayPipeline
