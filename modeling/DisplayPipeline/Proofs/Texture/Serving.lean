import DisplayPipeline.Proofs.Texture.Fetching
import DisplayPipeline.Proofs.Texture.Identity
import Mathlib.Data.List.Nodup

/-!
# Whose pixels a fetch serves

Every entry of a texture cache holds the decoded image of a source that was fetched under its key,
and so does the device under the handle of the entry. A fetch serves the pixels of that supplier.
As identities do not tell where texels end, these need not be the pixels of the source that was
asked for, even if no two identities share a digest.
-/

namespace DisplayPipeline

namespace Device

private theorem texture?_releaseAll {d : Device} {entries : List CachedTexture}
    {handle : TextureHandle} (h : handle ∉ entries.map (·.handle)) :
    (d.releaseAll entries).texture? handle = d.texture? handle := by
  rw [releaseAll_eq]
  simp only [texture?]
  induction d.textures with
  | nil => rfl
  | cons t rest ih =>
    obtain ⟨other, t⟩ := t
    by_cases hgone : other ∈ entries.map (·.handle)
    · have hother : (handle == other) = false := by
        rw [beq_eq_false_iff_ne]
        rintro rfl
        exact h hgone
      simp only [List.filter_cons, hgone, not_true, decide_false, Bool.false_eq_true, if_false,
        List.lookup_cons, hother]
      exact ih
    · simp only [List.filter_cons, hgone, not_false_iff, decide_true, if_true, List.lookup_cons]
      rw [ih]

private theorem mem_of_texture? {d : Device} {handle : TextureHandle} {t : DeviceTexture}
    (h : d.texture? handle = some t) : (handle, t) ∈ d.textures := by
  obtain ⟨before, after, hsplit, -⟩ := List.lookup_eq_some_iff.mp h
  rw [hsplit]
  exact List.mem_append_right _ List.mem_cons_self

private theorem texture?_take {d : Device} {handle : TextureHandle} {t : DeviceTexture}
    (more : DeviceTexture) (h : d.texture? handle = some t) :
    (d.take more).texture? handle = some t := by
  rw [texture?, take, List.lookup_append, show d.textures.lookup handle = some t from h]
  rfl

private theorem texture?_taken {d : Device} (hissued : ∀ t ∈ d.textures, t.1.id < d.nextTexture)
    (t : DeviceTexture) : (d.take t).texture? ⟨d.nextTexture⟩ = some t := by
  have hnew : d.textures.lookup ⟨d.nextTexture⟩ = none := by
    rw [List.lookup_eq_none_iff]
    intro old hold
    have hlt := hissued old hold
    rw [bne_iff_ne]
    rintro hsame
    rw [← hsame] at hlt
    exact lt_irrefl _ hlt
  rw [texture?, take, List.lookup_append, hnew]
  simp

end Device

/-- What ties the entries of a cache to its device and to the sources `asked` for so far: each entry
is the decoded image of one of them, under a handle of its own. -/
structure Supplied (asked : List TextureSource) (entries : List CachedTexture) (d : Device) :
    Prop where
  handles : (entries.map (·.handle)).Nodup
  issued : ∀ t ∈ d.textures, t.1.id < d.nextTexture
  suppliers : ∀ e ∈ entries, ∃ supplier ∈ asked, supplier.key = e.key ∧
    supplier.decode = .ok e.rgba ∧
    d.texture? e.handle = some ⟨supplier.width.toNat, supplier.height.toNat, e.rgba⟩

namespace Supplied

variable {asked : List TextureSource} {entries : List CachedTexture} {d : Device}

private theorem nil (asked : List TextureSource) (spec : DeviceSpec) : Supplied asked []
    (.ofSpec spec) :=
  ⟨List.nodup_nil, fun _ hmem => (nomatch hmem), fun _ hmem => (nomatch hmem)⟩

private theorem ask (h : Supplied asked entries d) (source : TextureSource) :
    Supplied (asked ++ [source]) entries d where
  handles := h.handles
  issued := h.issued
  suppliers e he := by
    obtain ⟨supplier, hasked, hrest⟩ := h.suppliers e he
    exact ⟨supplier, List.mem_append_left _ hasked, hrest⟩

private theorem handle_lt (h : Supplied asked entries d) {e : CachedTexture} (he : e ∈ entries) :
    e.handle.id < d.nextTexture := by
  obtain ⟨supplier, -, -, -, htexture⟩ := h.suppliers e he
  exact h.issued _ (Device.mem_of_texture? htexture)

private theorem eq_of_handle (h : Supplied asked entries d) {e f : CachedTexture} (he : e ∈ entries)
    (hf : f ∈ entries) (hsame : e.handle = f.handle) : e = f :=
  List.inj_on_of_nodup_map h.handles he hf hsame

private theorem release (h : Supplied asked entries d) {kept gone : List CachedTexture}
    (hkept : kept.Sublist entries) (hgone : ∀ e ∈ kept, e.handle ∉ gone.map (·.handle)) :
    Supplied asked kept (d.releaseAll gone) where
  handles := h.handles.sublist (hkept.map _)
  issued t ht := by
    rw [Device.releaseAll_eq] at ht ⊢
    exact h.issued t (List.mem_filter.mp ht).1
  suppliers e he := by
    obtain ⟨supplier, hasked, hkey, hdecode, htexture⟩ := h.suppliers e (hkept.subset he)
    refine ⟨supplier, hasked, hkey, hdecode, ?_⟩
    rw [Device.texture?_releaseAll (hgone e he), htexture]

private theorem evict (h : Supplied asked entries d) {dropped kept : List CachedTexture}
    (hparts : entries = dropped ++ kept) : Supplied asked kept (d.releaseAll dropped) := by
  subst hparts
  refine h.release (List.sublist_append_right _ _) fun e he hgone => ?_
  have hnodup := h.handles
  rw [List.map_append] at hnodup
  exact List.disjoint_of_nodup_append hnodup hgone (List.mem_map_of_mem he)

private theorem take (h : Supplied asked entries d) {source : TextureSource} {rgba : List UInt8}
    (hasked : source ∈ asked) (hdecode : source.decode = .ok rgba) (span : Span) (clock : Nat) :
    Supplied asked (entries ++ [⟨source.key, ⟨d.nextTexture⟩, rgba, span, clock⟩])
      (d.take ⟨source.width.toNat, source.height.toNat, rgba⟩) where
  handles := by
    rw [List.map_append, List.map_singleton, List.nodup_append]
    refine ⟨h.handles, List.nodup_singleton _, ?_⟩
    rintro handle hold new hnew rfl
    obtain ⟨e, he, rfl⟩ := List.mem_map.mp hold
    have hlt := h.handle_lt he
    rw [List.mem_singleton.mp hnew] at hlt
    exact lt_irrefl _ hlt
  issued t ht := by
    rcases List.mem_append.mp ht with hold | hnew
    · exact lt_trans (h.issued t hold) (Nat.lt_succ_self _)
    · rw [List.mem_singleton.mp hnew]
      exact Nat.lt_succ_self _
  suppliers e he := by
    rcases List.mem_append.mp he with hold | hnew
    · obtain ⟨supplier, hasked', hkey, hdecode', htexture⟩ := h.suppliers e hold
      exact ⟨supplier, hasked', hkey, hdecode', Device.texture?_take _ htexture⟩
    · rw [List.mem_singleton.mp hnew]
      exact ⟨source, hasked, rfl, hdecode, Device.texture?_taken h.issued _⟩

private theorem touch (h : Supplied asked entries d) {entry : CachedTexture}
    (hentry : entry ∈ entries) (span : Span) (clock : Nat) :
    Supplied asked (entries.filter (fun e => e.key ≠ entry.key) ++
      [{ entry with lastUsed := clock, source := span }]) d where
  handles := by
    rw [List.map_append, List.map_singleton, List.nodup_append]
    refine ⟨h.handles.sublist (List.filter_sublist.map _), List.nodup_singleton _, ?_⟩
    rintro handle hold new hnew rfl
    obtain ⟨e, he, hsame⟩ := List.mem_map.mp hold
    obtain ⟨hmem, hkey⟩ := List.mem_filter.mp he
    rw [List.mem_singleton.mp hnew] at hsame
    rw [h.eq_of_handle hmem hentry hsame] at hkey
    simp at hkey
  issued := h.issued
  suppliers e he := by
    rcases List.mem_append.mp he with hold | hnew
    · exact h.suppliers e (List.mem_filter.mp hold).1
    · rw [List.mem_singleton.mp hnew]
      exact h.suppliers entry hentry

end Supplied

def TextureCall.source? : TextureCall → Option TextureSource
  | .fetch source => some source
  | .invalidate _ | .clear => none

/-- Different identities among those of the sources have different digests. -/
def DigestsDiffer (sources : List TextureSource) : Prop :=
  ∀ s ∈ sources, ∀ t ∈ sources,
    Digest.ofBytes s.identity = Digest.ofBytes t.identity → s.identity = t.identity

private theorem digestsDiffer_pair {s t : TextureSource} (h : s.identity = t.identity) :
    DigestsDiffer [s, t] := by
  intro u hu v hv _
  simp only [List.mem_cons, List.not_mem_nil, or_false] at hu hv
  rcases hu with rfl | rfl <;> rcases hv with rfl | rfl <;> simp [h]

namespace TextureStock

variable {asked : List TextureSource} {s : TextureStock}

private theorem supplied_fetch (h : Supplied asked s.cache.entries s.device)
    (source : TextureSource) :
    Supplied (asked ++ [source]) (s.fetch source).1.cache.entries (s.fetch source).1.device := by
  have hmore := h.ask source
  rcases s.cache.fetch_cases source s.device with
    ⟨entry, hfound, hfetch⟩ | ⟨cause, -, hdecode, hfetch⟩ |
    ⟨rgba, dropped, kept, -, hdecode, hyields, ⟨fault, -, hfetch⟩ | ⟨-, hfetch⟩⟩
  · simp only [fetch, hfetch]
    exact hmore.touch (List.mem_of_find?_eq_some hfound) _ _
  · simp only [fetch, hfetch]
    exact hmore
  · simp only [fetch, hfetch]
    exact hmore.evict hyields.parts
  · simp only [fetch, hfetch]
    have htaken := (hmore.evict hyields.parts).take (List.mem_append_right _ List.mem_cons_self)
      hdecode source.span (s.cache.clock + 1)
    rwa [Device.releaseAll_eq] at htaken ⊢

private theorem supplied_dropAll (h : Supplied asked s.cache.entries s.device)
    {stale : List CachedTexture} (hstale : stale.Sublist s.cache.entries) :
    Supplied asked (s.cache.dropAll stale s.device).1.entries
      (s.cache.dropAll stale s.device).2 := by
  refine h.release List.filter_sublist fun e he hgone => ?_
  obtain ⟨hmem, hkey⟩ := List.mem_filter.mp he
  obtain ⟨f, hf, hsame⟩ := List.mem_map.mp hgone
  rw [h.eq_of_handle (hstale.subset hf) hmem hsame] at hf
  simp only [Bool.not_eq_true', List.any_eq_false, decide_eq_true_eq] at hkey
  exact hkey e hf rfl

private theorem supplied_serve (h : Supplied asked s.cache.entries s.device) (call : TextureCall) :
    Supplied (asked ++ call.source?.toList) (s.serve call).cache.entries (s.serve call).device := by
  cases call with
  | fetch source => exact supplied_fetch h source
  | invalidate range =>
    rw [TextureCall.source?, Option.toList_none, List.append_nil]
    cases hempty : range.isEmpty with
    | true => simpa only [serve, TextureCache.invalidate, hempty, if_true] using h
    | false =>
      have hstale : (s.cache.entries.filter fun e => e.source.overlaps range).Sublist
          s.cache.entries := List.filter_sublist
      simpa [serve, TextureCache.invalidate, hempty] using supplied_dropAll h hstale
  | clear =>
    rw [TextureCall.source?, Option.toList_none, List.append_nil]
    exact supplied_dropAll h (List.Sublist.refl _)

/-- After any calls, every entry is the decoded image of a source that was fetched. -/
theorem supplied_serveAll (h : Supplied asked s.cache.entries s.device)
    (calls : List TextureCall) :
    Supplied (asked ++ calls.filterMap (·.source?)) (s.serveAll calls).cache.entries
      (s.serveAll calls).device := by
  induction calls generalizing asked s with
  | nil => simpa [serveAll] using h
  | cons call rest ih =>
    have hrest := ih (supplied_serve h call)
    cases hcall : call.source? <;> simpa [serveAll, hcall] using hrest

/-- A successful fetch serves pixels of the source fetched, if it was not found, and else of one
that was fetched before under the same key. -/
theorem fetch_served (h : Supplied asked s.cache.entries s.device) {source : TextureSource}
    {fetched : FetchedTexture} (hok : (s.fetch source).2 = .ok fetched) :
    fetched.key = source.key ∧
    ∃ supplier ∈ asked ++ [source], ∃ entry,
      (s.fetch source).1.cache.find? fetched.key = some entry ∧
      entry.handle = fetched.handle ∧ supplier.key = source.key ∧
      supplier.decode = .ok entry.rgba ∧
      (s.fetch source).1.device.texture? fetched.handle =
        some ⟨supplier.width.toNat, supplier.height.toNat, entry.rgba⟩ ∧
      (fetched.hit = false → supplier = source) := by
  rcases s.cache.fetch_cases source s.device with
    ⟨entry, hfound, hfetch⟩ | ⟨cause, -, hdecode, hfetch⟩ |
    ⟨rgba, dropped, kept, hnew, hdecode, hyields, ⟨fault, -, hfetch⟩ | ⟨-, hfetch⟩⟩
  · simp only [fetch, hfetch, Except.ok.injEq] at hok ⊢
    subst hok
    have hkey : entry.key = source.key := by simpa using List.find?_some hfound
    have hothers : (s.cache.entries.filter fun e => e.key ≠ entry.key).find?
        (fun e => e.key = source.key) = none := by
      rw [List.find?_eq_none]
      intro e he
      simpa [hkey] using (List.mem_filter.mp he).2
    obtain ⟨supplier, hasked, hsame, hdecode, htexture⟩ :=
      h.suppliers entry (List.mem_of_find?_eq_some hfound)
    refine ⟨rfl, supplier, List.mem_append_left _ hasked,
      { entry with lastUsed := s.cache.clock + 1, source := source.span }, ?_, rfl,
      hsame.trans hkey, hdecode, htexture, fun hhit => by cases hhit⟩
    simp only [TextureCache.find?, TextureCache.touch, List.find?_append, hothers]
    simp [hkey]
  · simp [fetch, hfetch] at hok
  · simp [fetch, hfetch] at hok
  · have hmem : source ∈ asked ++ [source] := List.mem_append_right _ List.mem_cons_self
    have htaken := ((h.ask source).evict hyields.parts).take hmem hdecode source.span
      (s.cache.clock + 1)
    simp only [fetch, hfetch, Except.ok.injEq] at hok ⊢
    subst hok
    have hissued := ((h.ask source).evict hyields.parts).issued
    have htexture := Device.texture?_taken hissued
      ⟨source.width.toNat, source.height.toNat, rgba⟩
    rw [Device.releaseAll_eq] at htexture
    refine ⟨rfl, source, hmem, ⟨source.key, ⟨s.device.nextTexture⟩, rgba, source.span,
      s.cache.clock + 1⟩, ?_, rfl, rfl, hdecode, ?_, fun _ => rfl⟩
    · have hkept : kept.find? (fun e => e.key = source.key) = none := by
        rw [TextureCache.find?, hyields.parts, List.find?_append] at hnew
        exact (Option.or_eq_none_iff.mp hnew).2
      simp [TextureCache.find?, List.find?_append, hkept]
    · rw [Device.releaseAll_eq]
      exact htexture

/-- Where no two identities that were digested have one digest, a successful fetch serves the
decoded image of a supplier with the identity of the source. It is the image of the source exactly
if the source holds an image and colors the texels of the supplier as that one does; so it is where
the two have equally many bytes of texels, and where the source has no palette. -/
theorem fetch_servesSupplier {spec : TextureCacheSpec} {device : DeviceSpec} {start : TextureStock}
    (hstart : ofSpec spec device = .ok start) (calls : List TextureCall) {source : TextureSource}
    {fetched : FetchedTexture}
    (hdigest : DigestsDiffer (calls.filterMap (·.source?) ++ [source]))
    (hok : ((start.serveAll calls).fetch source).2 = .ok fetched) :
    let after := ((start.serveAll calls).fetch source).1
    ∃ supplier ∈ calls.filterMap (·.source?) ++ [source], ∃ entry,
      supplier.identity = source.identity ∧ supplier.key = source.key ∧
      (fetched.hit = false → supplier = source) ∧
      supplier.decode = .ok entry.rgba ∧
      after.cache.find? fetched.key = some entry ∧ entry.handle = fetched.handle ∧
      after.device.texture? fetched.handle =
        some ⟨source.width.toNat, source.height.toNat, entry.rgba⟩ ∧
      (source.decode = .ok entry.rgba ↔ source.HoldsImage ∧ ∀ texel ∈ supplier.texels,
        source.format.color source.palette texel = source.format.color supplier.palette texel) ∧
      (source.bytes.length = supplier.bytes.length ∨ source.palette = none →
        source.decode = .ok entry.rgba) := by
  intro after
  have hopened : Supplied [] start.cache.entries start.device := by
    simp only [ofSpec, TextureCache.ofSpec] at hstart
    split at hstart
    · cases hstart
    · cases hstart
      exact Supplied.nil [] device
  have hserved := fetch_served (supplied_serveAll hopened calls) hok
  rw [List.nil_append] at hserved
  obtain ⟨-, supplier, hasked, entry, hfound, hhandle, hkey, hdecode, htexture, hnew⟩ := hserved
  have hparts := hkey
  simp only [TextureSource.key, TextureKey.mk.injEq] at hparts
  obtain ⟨hsame, hformat, hwidth, hheight⟩ := hparts
  have hidentity : supplier.identity = source.identity :=
    hdigest supplier hasked source (List.mem_append_right _ List.mem_cons_self) hsame
  refine ⟨supplier, hasked, entry, hidentity, hkey, hnew, hdecode, hfound, hhandle, ?_, ?_, ?_⟩
  · rw [← hwidth, ← hheight]
    exact htexture
  · have hiff := TextureSource.decode_iff_of_identity hkey.symm hidentity.symm hdecode
    rwa [hformat] at hiff
  · intro hends
    have hlength : source.bytes.length = supplier.bytes.length :=
      hends.elim id (TextureSource.length_of_palette_none hidentity.symm)
    rw [TextureSource.decode_of_length hkey.symm hidentity.symm hlength, hdecode]

def indexedRow (width : UInt32) (bytes : List UInt8) (entries : Array UInt16) : TextureSource :=
  ⟨0, width, .ci8, width, 1, some ⟨.rgba5551, entries⟩, bytes⟩

def emptyStock : TextureStock := ⟨{ budget := 33554432, maxEntries := 0 }, .ofSpec {}⟩

/-- Two more bytes of texels and one palette entry less make the same identity. -/
theorem fetch_servesSupplier_otherColor :
    let red := indexedRow 1 [0x00] #[0xF801, 0x07C1]
    let green := indexedRow 1 [0x00, 0xF8, 0x01] #[0x07C1]
    let after := ((emptyStock.serveAll [.fetch red]).fetch green).1
    DigestsDiffer [red, green] ∧
      ((emptyStock.serveAll [.fetch red]).fetch green).2 = .ok ⟨⟨1⟩, green.key, true⟩ ∧
      green.decode = .ok [0, 255, 0, 255] ∧
      ∃ supplier ∈ [red, green], ∃ entry,
        supplier.identity = green.identity ∧ supplier.decode = .ok entry.rgba ∧
        after.cache.find? green.key = some entry ∧ entry.rgba = [255, 0, 0, 255] := by
  intro red green after
  have hstart : ofSpec {} {} = .ok emptyStock := rfl
  have hdigest : DigestsDiffer [red, green] := digestsDiffer_pair (by decide +kernel)
  have hok : ((emptyStock.serveAll [.fetch red]).fetch green).2 =
      .ok ⟨⟨1⟩, green.key, true⟩ := by decide +kernel
  have hpixels : (after.cache.find? green.key).map (·.rgba) = some [255, 0, 0, 255] := by
    decide +kernel
  refine ⟨hdigest, hok, by decide +kernel, ?_⟩
  obtain ⟨supplier, hasked, entry, hidentity, -, -, hdecode, hfound, -⟩ :=
    fetch_servesSupplier hstart [.fetch red] hdigest hok
  rw [show after.cache.find? green.key = some entry from hfound] at hpixels
  exact ⟨supplier, hasked, entry, hidentity, hdecode, hfound, Option.some.inj hpixels⟩

/-- A row without any texels is served as the one that it shares its identity with. -/
theorem emptyRow_isServed :
    let full := indexedRow 2 [0x00, 0x01] #[0xF801]
    let empty := indexedRow 2 [] #[0x0001, 0xF801]
    ofSpec {} {} = .ok emptyStock ∧ DigestsDiffer [full, empty] ∧
      ((emptyStock.serveAll [.fetch full]).fetch empty).2 = .ok ⟨⟨1⟩, empty.key, true⟩ ∧
      empty.decode = .error (.sourceTooShort 2 0) :=
  ⟨rfl, digestsDiffer_pair (by decide +kernel), by decide +kernel, by decide +kernel⟩

end TextureStock

end DisplayPipeline
