import DisplayPipeline.Proofs.WordBytes
import DisplayPipeline.Texture.Source
import Mathlib.Data.Nat.Basic

namespace DisplayPipeline

namespace TexelDepth

private theorem runs_append {α : Type} (size count : Nat) (bytes rest : List α)
    (h : size * count ≤ bytes.length) : runs size count (bytes ++ rest) = runs size count bytes := by
  induction count generalizing bytes with
  | zero => rfl
  | succ count ih =>
    have hfirst : size ≤ bytes.length := le_trans (Nat.le_mul_of_pos_right size count.succ_pos) h
    have hlater : size * count ≤ (bytes.drop size).length := by
      rw [List.length_drop]
      rw [Nat.mul_succ] at h
      omega
    rw [runs, runs, List.take_append_of_le_length hfirst, List.drop_append_of_le_length hfirst,
      ih _ hlater]

end TexelDepth

private theorem Color.flatten_injective : Function.Injective Color.flatten := by
  intro these
  induction these with
  | nil =>
    intro those h
    cases those with
    | nil => rfl
    | cons c those => simp [Color.flatten, Color.bytes] at h
  | cons b these ih =>
    intro those h
    cases those with
    | nil => simp [Color.flatten, Color.bytes] at h
    | cons c those =>
      simp only [Color.flatten, Color.bytes, List.flatMap_cons, List.cons_append, List.nil_append,
        List.cons.injEq] at h
      obtain ⟨hred, hgreen, hblue, halpha, hrest⟩ := h
      rw [ih hrest]
      congr 1
      cases b
      cases c
      simp_all

private theorem Palette.bytes_injective {these those : Palette}
    (hformat : these.format = those.format)
    (hbytes : these.bytes = those.bytes) : these = those := by
  have hword {v w : UInt16} (h : Word.be16 v = Word.be16 w) : v = w := by
    simp only [Word.be16, List.cons.injEq, and_true] at h
    calc
      v = Word.join16 (v >>> 8).toUInt8 v.toUInt8 := (Word.join16_bytes v).symm
      _ = Word.join16 (w >>> 8).toUInt8 w.toUInt8 := by rw [h.1, h.2]
      _ = w := Word.join16_bytes w
  have hentries (vs ws : List UInt16) (h : vs.flatMap Word.be16 = ws.flatMap Word.be16) :
      vs = ws := by
    induction vs generalizing ws with
    | nil =>
      cases ws with
      | nil => rfl
      | cons w ws => simp [Word.be16] at h
    | cons v vs ih =>
      cases ws with
      | nil => simp [Word.be16] at h
      | cons w ws =>
        rw [List.flatMap_cons, List.flatMap_cons] at h
        obtain ⟨hfirst, hrest⟩ := List.append_inj h rfl
        rw [hword hfirst, ih ws hrest]
  have := hentries _ _ hbytes
  cases these
  cases those
  simp_all [Array.toList_inj]

namespace TextureSource

section Decoding

/-- Whether the bytes of a source reach to the end of its image. -/
def HoldsImage (s : TextureSource) : Prop :=
  ∃ needed, s.format.imageBytes? s.width.toNat s.height.toNat = some needed ∧
    needed ≤ s.bytes.length

def texels (s : TextureSource) : List UInt32 :=
  (TexelDepth.runs (s.format.rowBytes s.width.toNat) s.height.toNat s.bytes).flatMap fun row =>
    (s.format.depth.unpack row).take s.width.toNat

private def Countable (s : TextureSource) : Prop :=
  s.width.toNat * s.height.toNat * 4 < TexelFormat.sizeLimit

private theorem decode_eq_ok_iff (s : TextureSource) (rgba : List UInt8) :
    s.decode = .ok rgba ↔
      s.HoldsImage ∧ (s.format.isIndexed = true → s.palette.isSome = true) ∧ s.Countable ∧
        rgba = Color.flatten (s.texels.map (s.format.color s.palette)) := by
  have hrows : (TexelDepth.runs (s.format.rowBytes s.width.toNat) s.height.toNat s.bytes).flatMap
      (s.format.rowColors s.palette s.width.toNat) = s.texels.map (s.format.color s.palette) := by
    rw [texels, List.map_flatMap]
    rfl
  have hthin (h : s.width.toNat = 0) : s.texels = [] := by simp [texels, h]
  have hdecode : s.decode =
      (s.format.requireBytes s.width.toNat s.height.toNat s.bytes.length).bind fun _ =>
        if s.format.isIndexed && s.palette.isNone then .error (.missingPalette s.format)
        else if s.width.toNat * s.height.toNat * 4 ≥ TexelFormat.sizeLimit then
          .error (.overflow s.width.toNat s.height.toNat)
        else .ok (Color.flatten (s.texels.map (s.format.color s.palette))) := by
    unfold decode TexelFormat.decode
    cases s.format.requireBytes s.width.toNat s.height.toNat s.bytes.length with
    | error e => rfl
    | ok needed =>
      by_cases hpalette : (s.format.isIndexed && s.palette.isNone) = true
      · simp only [hpalette, if_true]
        rfl
      · by_cases hcount : s.width.toNat * s.height.toNat * 4 ≥ TexelFormat.sizeLimit
        · simp only [hpalette, hcount, if_true]
          rfl
        · by_cases hwidth : s.width.toNat = 0
          · simp only [hpalette, hcount, hthin hwidth]
            simp only [hwidth]
            rfl
          · simp only [hpalette, hcount, hwidth, hrows]
            rfl
  rw [hdecode]
  unfold TexelFormat.requireBytes HoldsImage Countable
  cases s.format.imageBytes? s.width.toNat s.height.toNat with
  | none => simp [Except.bind]
  | some needed =>
    by_cases hlength : s.bytes.length < needed
    · simp [hlength, Nat.not_le.mpr hlength, Except.bind]
    · have hneeded : needed ≤ s.bytes.length := Nat.le_of_not_lt hlength
      simp only [if_neg hlength, Except.bind]
      by_cases hcount : s.width.toNat * s.height.toNat * 4 < TexelFormat.sizeLimit
      · simp only [if_neg (Nat.not_le.mpr hcount)]
        cases hindexed : s.format.isIndexed <;> cases hpalette : s.palette <;>
          simp [hneeded, hcount, eq_comm]
      · simp only [if_pos (Nat.le_of_not_lt hcount)]
        cases hindexed : s.format.isIndexed <;> cases hpalette : s.palette <;> simp [hcount]

end Decoding

section Identities

variable {s t : TextureSource}

private theorem length_description (s : TextureSource) : s.description.length = 10 := rfl

private def paletteBytes (s : TextureSource) : List UInt8 := (s.palette.map (·.bytes)).getD []

private theorem parts_of_identity (h : s.identity = t.identity) :
    s.bytes ++ s.paletteBytes = t.bytes ++ t.paletteBytes ∧ s.description = t.description :=
  List.append_inj' h (by rw [length_description, length_description])

private theorem paletteFormat_of_identity (h : s.identity = t.identity) :
    s.palette.map (·.format) = t.palette.map (·.format) := by
  have hcode := (List.cons.inj (List.cons.inj (parts_of_identity h).2).2).1
  cases hs : s.palette with
  | none =>
    cases ht : t.palette with
    | none => rfl
    | some q => cases hq : q.format <;> simp [hs, ht, hq, noPalette, PaletteFormat.code] at hcode
  | some p =>
    cases ht : t.palette with
    | none => cases hp : p.format <;> simp [hs, ht, hp, noPalette, PaletteFormat.code] at hcode
    | some q =>
      cases hp : p.format <;> cases hq : q.format <;>
        simp [hs, ht, hp, hq, PaletteFormat.code] at hcode ⊢

private theorem palette_isSome_of_identity (h : s.identity = t.identity) :
    s.palette.isSome = t.palette.isSome := by
  have := congrArg Option.isSome (paletteFormat_of_identity h)
  rwa [Option.isSome_map, Option.isSome_map] at this

/-- Where the texels end is the one thing that two equal identities can differ in. -/
theorem bytes_palette_of_length (h : s.identity = t.identity)
    (hlength : s.bytes.length = t.bytes.length) : s.bytes = t.bytes ∧ s.palette = t.palette := by
  obtain ⟨hbytes, hpalettes⟩ := List.append_inj (parts_of_identity h).1 hlength
  have hformat := paletteFormat_of_identity h
  refine ⟨hbytes, ?_⟩
  cases hs : s.palette with
  | none => cases ht : t.palette <;> simp [hs, ht] at hformat ⊢
  | some p =>
    cases ht : t.palette with
    | none => simp [hs, ht] at hformat
    | some q =>
      simp only [hs, ht, Option.map_some, Option.some.injEq, paletteBytes, Option.getD_some]
        at hformat hpalettes
      rw [Palette.bytes_injective hformat hpalettes]

theorem length_of_palette_none (h : s.identity = t.identity) (hnone : s.palette = none) :
    s.bytes.length = t.bytes.length := by
  have hsome := palette_isSome_of_identity h
  have hnone' : t.palette = none := by simpa [hnone] using hsome.symm
  have := congrArg List.length (parts_of_identity h).1
  simpa [paletteBytes, hnone, hnone'] using this

private theorem HoldsImage.size (h : s.HoldsImage) :
    s.format.rowBytes s.width.toNat * s.height.toNat ≤ s.bytes.length := by
  obtain ⟨needed, himage, hneeded⟩ := h
  unfold TexelFormat.imageBytes? at himage
  simp only [Option.ite_none_right_eq_some, Option.some.injEq] at himage
  rw [himage.2]
  exact hneeded

/-- Sources that fit the same key and identity read the same texels, if both have them. -/
theorem texels_of_identity (hkey : s.key = t.key) (h : s.identity = t.identity)
    (hs : s.HoldsImage) (ht : t.HoldsImage) : s.texels = t.texels := by
  simp only [key, TextureKey.mk.injEq] at hkey
  obtain ⟨-, hformat, hwidth, hheight⟩ := hkey
  have hsize := hs.size
  rw [hformat, hwidth, hheight] at hsize
  rw [texels, texels, hformat, hwidth, hheight,
    ← TexelDepth.runs_append _ _ s.bytes s.paletteBytes hsize, (parts_of_identity h).1,
    TexelDepth.runs_append _ _ t.bytes t.paletteBytes ht.size]

theorem decode_iff_of_identity {rgba : List UInt8} (hkey : s.key = t.key)
    (h : s.identity = t.identity) (ht : t.decode = .ok rgba) :
    s.decode = .ok rgba ↔
      s.HoldsImage ∧
        ∀ texel ∈ t.texels, s.format.color s.palette texel = t.format.color t.palette texel := by
  obtain ⟨hholds, hpalette, hcount, rfl⟩ := (decode_eq_ok_iff t rgba).mp ht
  have hparts := hkey
  simp only [key, TextureKey.mk.injEq] at hparts
  obtain ⟨-, hformat, hwidth, hheight⟩ := hparts
  have hpalette' : s.format.isIndexed = true → s.palette.isSome = true := by
    rwa [hformat, palette_isSome_of_identity h]
  have hcount' : s.Countable := by rwa [Countable, hwidth, hheight]
  rw [decode_eq_ok_iff]
  constructor
  · rintro ⟨hs, -, -, hcolors⟩
    have hmap := Color.flatten_injective hcolors
    rw [texels_of_identity hkey h hs hholds] at hmap
    exact ⟨hs, fun texel hmem => (List.map_inj_left.mp hmap texel hmem).symm⟩
  · rintro ⟨hs, hcolors⟩
    refine ⟨hs, hpalette', hcount', ?_⟩
    rw [texels_of_identity hkey h hs hholds, List.map_congr_left hcolors]

theorem decode_of_length (hkey : s.key = t.key) (h : s.identity = t.identity)
    (hlength : s.bytes.length = t.bytes.length) : s.decode = t.decode := by
  obtain ⟨hbytes, hpalette⟩ := bytes_palette_of_length h hlength
  simp only [key, TextureKey.mk.injEq] at hkey
  rw [decode, decode, hbytes, hpalette, hkey.2.1, hkey.2.2.1, hkey.2.2.2]

end Identities

end TextureSource

end DisplayPipeline
