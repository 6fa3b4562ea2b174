import DisplayPipeline.Proofs.Texel.BitFields
import DisplayPipeline.Proofs.Texel.RoundTrip
import Mathlib.Algebra.Order.Round
import Mathlib.Data.Rat.Floor
import Mathlib.Tactic.Linarith

/-!
# Pixels of packed images

What a packed image shows. Each pixel is told by the bit field at its place, channel by channel, or by
the palette entry that the field is an index of. An image is decoded if its bytes are there, with a
palette if it needs one, and nothing but the fields of its pixels matters.
-/

namespace DisplayPipeline

namespace Channel

/-- What a channel of a number of bits holds, in 255ths and rounded to the nearest integer. -/
def widened (bits v : Nat) : Int := round ((v * 255 : ℚ) / (2 ^ bits - 1))

/-- Half a step is added before the division, and steps are odd, so nothing is rounded twice. -/
theorem toNat_expand_eq_widened {bits v : Nat} (hbits : 0 < bits) (hv : v ≤ top bits) :
    ((expand bits v).toNat : Int) = widened bits v := by
  have htop : ((top bits : Nat) : ℚ) = 2 ^ bits - 1 := by
    rw [top, Nat.one_shiftLeft, Nat.cast_sub Nat.one_le_two_pow]
    norm_num
  have hodd := top_odd hbits
  have hpos : (0 : ℚ) < top bits := by exact_mod_cast top_pos hbits
  have hhalf : (v * 255 : ℚ) / top bits + 1 / 2 =
      ((2 * (v * 255) + top bits : Nat) : ℚ) / ((2 * top bits : Nat) : ℚ) := by
    push_cast
    field_simp
  have hdouble : (2 * (v * 255) + top bits) / 2 = v * 255 + top bits / 2 := by omega
  rw [widened, ← htop, round_eq, hhalf, Rat.floor_natCast_div_natCast, toNat_expand hbits hv,
    ← hdouble, Nat.div_div_eq_div_mul]
  rfl

end Channel

/-- Bits of a texel, counted from the least significant. -/
structure BitRange where
  below : Nat
  bits : Nat

def BitRange.value (r : BitRange) (texel : Nat) : Nat := texel / 2 ^ r.below % 2 ^ r.bits

/-- Which bits of a texel hold the channels of a color. Without bits for alpha it is opaque. -/
structure ColorLayout where
  red : BitRange
  green : BitRange
  blue : BitRange
  alpha : Option BitRange

namespace ColorLayout

def ofGray (intensity alpha : BitRange) : ColorLayout := ⟨intensity, intensity, intensity, alpha⟩

/-- Each channel of the color is the nearest to what the texel holds for it. -/
structure Shows (layout : ColorLayout) (texel : Nat) (c : Color) : Prop where
  red : c.red.toNat = Channel.widened layout.red.bits (layout.red.value texel)
  green : c.green.toNat = Channel.widened layout.green.bits (layout.green.value texel)
  blue : c.blue.toNat = Channel.widened layout.blue.bits (layout.blue.value texel)
  alpha : c.alpha.toNat =
    layout.alpha.elim 255 fun range => Channel.widened range.bits (range.value texel)

end ColorLayout

def PaletteFormat.layout : PaletteFormat → ColorLayout
  | rgba5551 => ⟨⟨11, 5⟩, ⟨6, 5⟩, ⟨1, 5⟩, some ⟨0, 1⟩⟩
  | ia16 => .ofGray ⟨8, 8⟩ ⟨0, 8⟩

/-- The color that an index selects: the entry at the index or else the last one, and nothing to be
seen without entries. -/
def Palette.Selects (palette : Palette) (index : Nat) (c : Color) : Prop :=
  if palette.entries.size = 0 then c = .transparent
  else ∃ entry, palette.entries[min index (palette.entries.size - 1)]? = some entry ∧
    palette.format.layout.Shows entry.toNat c

namespace TexelFormat

def layout? : TexelFormat → Option ColorLayout
  | rgba5551 => some PaletteFormat.rgba5551.layout
  | rgb565 => some ⟨⟨11, 5⟩, ⟨5, 6⟩, ⟨0, 5⟩, none⟩
  | rgba8888 => some ⟨⟨24, 8⟩, ⟨16, 8⟩, ⟨8, 8⟩, some ⟨0, 8⟩⟩
  | ia4 => some (.ofGray ⟨1, 3⟩ ⟨0, 1⟩)
  | ia8 => some (.ofGray ⟨4, 4⟩ ⟨0, 4⟩)
  | ia16 => some PaletteFormat.ia16.layout
  | i4 => some (.ofGray ⟨0, 4⟩ ⟨0, 4⟩)
  | i8 => some (.ofGray ⟨0, 8⟩ ⟨0, 8⟩)
  | ci4 | ci8 => none

def Shows (format : TexelFormat) (palette : Option Palette) (texel : Nat) (c : Color) : Prop :=
  match format.layout? with
  | some layout => layout.Shows texel c
  | none => ∃ colors, palette = some colors ∧ colors.Selects texel c

/-- The texel of a pixel of an image, as a number: its bits follow those of the pixels to its left, and
each row starts with a byte. -/
def texelAt (format : TexelFormat) (width : Nat) (image : List UInt8) (x y : Nat) : Nat :=
  bitField image (8 * format.rowBytes width * y + format.depth.bits * x) format.depth.bits

end TexelFormat

namespace ColorLayout

variable {texel : UInt32}

private theorem expand_field (texel shift bits : UInt32) (hshift : shift.toNat < 32)
    (hbits : 0 < bits.toNat ∧ bits.toNat < 32) :
    ((Channel.expand bits.toNat (Word.fieldNat texel shift bits)).toNat : Int) =
      Channel.widened bits.toNat (BitRange.value ⟨shift.toNat, bits.toNat⟩ texel.toNat) := by
  have hlt : texel.toNat / 2 ^ shift.toNat % 2 ^ bits.toNat < 2 ^ bits.toNat :=
    Nat.mod_lt _ (Nat.two_pow_pos _)
  rw [Word.fieldNat_eq texel hshift hbits.2]
  refine Channel.toNat_expand_eq_widened hbits.1 ?_
  rw [Channel.top, Nat.one_shiftLeft]
  exact Nat.le_sub_one_of_lt hlt

private theorem byte_eq_widened {value : UInt8} {range : BitRange} (hbits : range.bits = 8)
    (hvalue : value.toNat = range.value texel.toNat) :
    (value.toNat : Int) = Channel.widened range.bits (range.value texel.toNat) := by
  have hlt := value.toNat_lt
  rw [← hvalue, hbits, ← Channel.toNat_expand_eq_widened (by decide), Channel.expand_eight]
  rw [show Channel.top 8 = 255 from rfl]
  omega

private theorem shows_of5551 (word : UInt32) :
    PaletteFormat.rgba5551.layout.Shows word.toNat (Color.of5551 word) where
  red := expand_field word 11 5 (by decide) (by decide)
  green := expand_field word 6 5 (by decide) (by decide)
  blue := expand_field word 1 5 (by decide) (by decide)
  alpha := expand_field word 0 1 (by decide) (by decide)

private theorem shows_gray {intensity alpha : BitRange} {i a : UInt8}
    (hi : (i.toNat : Int) = Channel.widened intensity.bits (intensity.value texel.toNat))
    (ha : (a.toNat : Int) = Channel.widened alpha.bits (alpha.value texel.toNat)) :
    (ofGray intensity alpha).Shows texel.toNat (Color.gray i a) :=
  ⟨hi, hi, hi, ha⟩

private theorem toNat_byte (texel shift : UInt32) (hshift : shift.toNat < 32) :
    (texel >>> shift).toUInt8.toNat = BitRange.value ⟨shift.toNat, 8⟩ texel.toNat := by
  rw [UInt32.toNat_toUInt8, UInt32.toNat_shiftRight, Nat.mod_eq_of_lt hshift,
    Nat.shiftRight_eq_div_pow]
  rfl

private theorem toNat_lowByte (texel : UInt32) :
    texel.toUInt8.toNat = BitRange.value ⟨0, 8⟩ texel.toNat := by
  rw [UInt32.toNat_toUInt8, BitRange.value, Nat.pow_zero, Nat.div_one]

private theorem shows_ofGray16 (word : UInt32) :
    PaletteFormat.ia16.layout.Shows word.toNat (Color.ofGray16 word) :=
  shows_gray (byte_eq_widened rfl (toNat_byte word 8 (by decide)))
    (byte_eq_widened rfl (toNat_lowByte word))

end ColorLayout

private theorem Palette.selects_lookup (palette : Palette) (index : Nat) :
    palette.Selects index (palette.lookup index) := by
  unfold Selects lookup
  by_cases hempty : palette.entries.size = 0
  · rw [if_pos hempty, Array.getElem?_eq_none (by omega)]
  · have hin : min index (palette.entries.size - 1) < palette.entries.size := by omega
    rw [if_neg hempty, Array.getElem?_eq_getElem hin]
    refine ⟨_, rfl, ?_⟩
    rw [← UInt16.toNat_toUInt32]
    cases hformat : palette.format with
    | rgba5551 =>
      simp only [entryColor, hformat]
      exact ColorLayout.shows_of5551 _
    | ia16 =>
      simp only [entryColor, hformat]
      exact ColorLayout.shows_ofGray16 _

private theorem Color.bytes_of_flatten {pixels : List Color} {index : Nat} {c : Color}
    (h : pixels[index]? = some c) : ((flatten pixels).drop (4 * index)).take 4 = c.bytes := by
  induction pixels generalizing index with
  | nil => cases h
  | cons first pixels ih =>
    cases index with
    | zero =>
      obtain rfl := Option.some_inj.mp h
      rfl
    | succ index => exact ih h

namespace TexelFormat

variable {format : TexelFormat} {palette : Option Palette} {width height : Nat}

open ColorLayout in
private theorem shows_color (h : format.isIndexed = true → palette.isSome = true) (texel : UInt32) :
    format.Shows palette texel.toNat (format.color palette texel) := by
  have hindexed (hformat : format.isIndexed = true) : ∃ colors, palette = some colors ∧
      colors.Selects texel.toNat ((palette.map (·.lookup texel.toNat)).getD .transparent) := by
    obtain ⟨colors, rfl⟩ := Option.isSome_iff_exists.mp (h hformat)
    exact ⟨colors, rfl, colors.selects_lookup _⟩
  have hfield := expand_field texel
  cases format with
  | rgba5551 => exact shows_of5551 texel
  | rgb565 =>
    exact ⟨hfield 11 5 (by decide) (by decide), hfield 5 6 (by decide) (by decide),
      hfield 0 5 (by decide) (by decide), rfl⟩
  | rgba8888 =>
    exact ⟨byte_eq_widened rfl (toNat_byte texel 24 (by decide)),
      byte_eq_widened rfl (toNat_byte texel 16 (by decide)),
      byte_eq_widened rfl (toNat_byte texel 8 (by decide)), byte_eq_widened rfl (toNat_lowByte texel)⟩
  | ia4 =>
    exact shows_gray (hfield 1 3 (by decide) (by decide)) (hfield 0 1 (by decide) (by decide))
  | ia8 =>
    exact shows_gray (hfield 4 4 (by decide) (by decide)) (hfield 0 4 (by decide) (by decide))
  | ia16 => exact shows_ofGray16 texel
  | i4 =>
    exact shows_gray (hfield 0 4 (by decide) (by decide)) (hfield 0 4 (by decide) (by decide))
  | i8 =>
    exact shows_gray (byte_eq_widened rfl (toNat_lowByte texel))
      (byte_eq_widened rfl (toNat_lowByte texel))
  | ci4 | ci8 => exact hindexed rfl

private theorem take_unpack {row : List UInt8} (h : format.depth.HoldsTexels width row) :
    (format.depth.unpack row).take width =
      (List.range width).map fun x => UInt32.ofNat (format.depth.texelAt row x) := by
  refine List.ext_getElem ?_ fun x hx _ => ?_
  · simp [Nat.min_eq_left h.enough]
  · rw [List.length_take] at hx
    have hin : x < (format.depth.unpack row).length := by omega
    rw [List.getElem_take, List.getElem_map, List.getElem_range,
      ← TexelDepth.toNat_unpack (List.getElem?_eq_getElem hin), UInt32.ofNat_toNat]

private theorem bits_le_rowBytes (format : TexelFormat) {x : Nat} (hx : x < width) :
    format.depth.bits * x + format.depth.bits ≤ 8 * format.rowBytes width := by
  have hle : format.depth.bits * (x + 1) ≤ format.depth.bits * width := Nat.mul_le_mul_left _ hx
  rw [Nat.mul_succ, Nat.mul_comm _ width] at hle
  rw [rowBytes, TexelDepth.rowBytes]
  omega

theorem bits_le (format : TexelFormat) : format.depth.bits ≤ 32 := by
  cases format <;> decide

theorem texelAt_row (format : TexelFormat) (image : List UInt8) {x : Nat} (hx : x < width)
    (y : Nat) :
    format.depth.texelAt ((image.drop (format.rowBytes width * y)).take (format.rowBytes width)) x =
      format.texelAt width image x y := by
  have hend := format.bits_le_rowBytes hx
  refine bitField_congr fun k hk => ?_
  rw [bitAt_take (by omega), bitAt_drop, ← Nat.mul_assoc, Nat.add_assoc]

private theorem texelAt_take (format : TexelFormat) (image : List UInt8) {x y : Nat}
    (hx : x < width) (hy : y < height) :
    format.texelAt width (image.take (format.rowBytes width * height)) x y =
      format.texelAt width image x y := by
  have hend := format.bits_le_rowBytes hx
  have hrows : format.rowBytes width * (y + 1) ≤ format.rowBytes width * height :=
    Nat.mul_le_mul_left _ hy
  refine bitField_congr fun k hk => bitAt_take ?_
  rw [Nat.mul_assoc]
  rw [Nat.mul_succ] at hrows
  omega

def pixelAt (format : TexelFormat) (palette : Option Palette) (width : Nat) (image : List UInt8)
    (x y : Nat) : Color :=
  format.color palette (UInt32.ofNat (format.texelAt width image x y))

def pixelRows (format : TexelFormat) (palette : Option Palette) (width height : Nat)
    (image : List UInt8) : List (List Color) :=
  (List.range height).map fun y => (List.range width).map fun x =>
    format.pixelAt palette width image x y

section Pixels

variable (format : TexelFormat) (palette : Option Palette) (width height : Nat) (image : List UInt8)

private theorem length_of_mem_pixelRows :
    ∀ row ∈ format.pixelRows palette width height image, row.length = width := by
  intro row hrow
  obtain ⟨y, -, rfl⟩ := List.mem_map.mp hrow
  simp

private theorem length_flatten_pixelRows :
    (format.pixelRows palette width height image).flatten.length = width * height := by
  rw [TexelDepth.length_flatten (format.length_of_mem_pixelRows palette width height image)]
  simp [pixelRows]

private theorem getElem?_flatten_pixelRows {x y : Nat} (hx : x < width) (hy : y < height) :
    (format.pixelRows palette width height image).flatten[y * width + x]? =
      some (format.pixelAt palette width image x y) := by
  rw [TexelDepth.getElem?_flatten (format.length_of_mem_pixelRows palette width height image) hx]
  simp [pixelRows, hx, hy]

end Pixels

section Decoding

variable {source : List UInt8} (hsize : 4 * width * height < sizeLimit)
include hsize

private theorem decode_eq_pixelRows (hsource : format.rowBytes width * height ≤ source.length)
    (hpalette : format.isIndexed = true → palette.isSome = true) :
    format.decode width height source palette =
      .ok (format.pixelRows palette width height source).flatten := by
  have hlimit : ¬width * height * 4 ≥ sizeLimit := by
    rw [Nat.mul_comm, ← Nat.mul_assoc]
    exact hsize.not_ge
  have hprovided : (format.isIndexed && palette.isNone) = false := by
    cases hindexed : format.isIndexed with
    | false => rfl
    | true => simp [hpalette hindexed]
  have hrows : (TexelDepth.runs (format.rowBytes width) height source).map
      (format.rowColors palette width) = format.pixelRows palette width height source := by
    have hholds := holdsTexels_of_mem_runs hsource
    rw [TexelDepth.runs_eq_map] at hholds ⊢
    rw [List.map_map, pixelRows]
    refine List.map_congr_left fun y hy => ?_
    rw [Function.comp_apply, rowColors, take_unpack (hholds _ (List.mem_map_of_mem hy)),
      List.map_map]
    refine List.map_congr_left fun x hx => ?_
    rw [Function.comp_apply, format.texelAt_row source (List.mem_range.mp hx), pixelAt]
  rw [decode, format.requireBytes_eq hsize hsource]
  simp only [hprovided, hlimit, List.flatMap_def, hrows]
  by_cases hwidth : width = 0
  · subst hwidth
    simp [pixelRows]
  · simp [hwidth]

private theorem decode_tooShort (hsource : ¬ format.rowBytes width * height ≤ source.length) :
    format.decode width height source palette =
      .error (.sourceTooShort (format.rowBytes width * height) source.length) := by
  rw [decode, requireBytes, format.imageBytes?_eq hsize]
  simp only [if_pos (Nat.lt_of_not_le hsource)]
  rfl

private theorem decode_missingPalette (hsource : format.rowBytes width * height ≤ source.length)
    (hindexed : format.isIndexed = true) :
    format.decode width height source none = .error (.missingPalette format) := by
  rw [decode, format.requireBytes_eq hsize hsource]
  simp only [hindexed]
  rfl

/-- An image is decoded if its bytes are there, with a palette if it needs one. -/
theorem decode_eq_ok_iff {pixels : List Color} :
    format.decode width height source palette = .ok pixels ↔
      (format.rowBytes width * height ≤ source.length ∧
        (format.isIndexed = true → palette.isSome = true)) ∧
      pixels = (format.pixelRows palette width height source).flatten := by
  constructor
  · intro h
    by_cases hsource : format.rowBytes width * height ≤ source.length
    · have hpalette : format.isIndexed = true → palette.isSome = true := by
        intro hindexed
        cases palette with
        | some colors => rfl
        | none =>
          rw [decode_missingPalette hsize hsource hindexed] at h
          cases h
      rw [decode_eq_pixelRows hsize hsource hpalette] at h
      cases h
      exact ⟨⟨hsource, hpalette⟩, rfl⟩
    · rw [decode_tooShort hsize hsource] at h
      cases h
  · rintro ⟨⟨hsource, hpalette⟩, rfl⟩
    exact decode_eq_pixelRows hsize hsource hpalette

/-- Of images that are there, nothing but the texels of their pixels matters. -/
theorem decode_congr {other : List UInt8}
    (hsource : format.rowBytes width * height ≤ source.length)
    (hother : format.rowBytes width * height ≤ other.length)
    (h : ∀ x < width, ∀ y < height,
      format.texelAt width other x y = format.texelAt width source x y) :
    format.decode width height other palette = format.decode width height source palette := by
  have hrows : format.pixelRows palette width height other =
      format.pixelRows palette width height source := by
    refine List.map_congr_left fun y hy => List.map_congr_left fun x hx => ?_
    rw [pixelAt, h x (List.mem_range.mp hx) y (List.mem_range.mp hy), pixelAt]
  by_cases hpalette : format.isIndexed = true → palette.isSome = true
  · rw [decode_eq_pixelRows hsize hother hpalette, decode_eq_pixelRows hsize hsource hpalette, hrows]
  · obtain ⟨hindexed, hnone⟩ := Classical.not_imp.mp hpalette
    obtain rfl := Option.not_isSome_iff_eq_none.mp hnone
    rw [decode_missingPalette hsize hother hindexed, decode_missingPalette hsize hsource hindexed]

end Decoding

/-- An image is decoded exactly if its bytes are there, with a palette if its texels are indices. Its
pixels are then told by the bit fields at their places: every channel is the nearest value to its bits,
and an index selects the palette entry at its place or else the last one. Bytes after the image are
not read, and neither they nor what fills up a row matter. -/
theorem decode_showsTexels (format : TexelFormat) (palette : Option Palette) (width height : Nat)
    (hsize : 4 * width * height < sizeLimit) :
    ∃ needed, format.imageBytes? width height = some needed ∧ ∀ source : List UInt8,
      ((∃ pixels, format.decode width height source palette = .ok pixels) ↔
        needed ≤ source.length ∧ (format.isIndexed = true → palette.isSome = true)) ∧
      (∀ pixels, format.decode width height source palette = .ok pixels →
        (Color.flatten pixels).length = 4 * width * height ∧
        ∀ x < width, ∀ y < height, ∃ c,
          ((Color.flatten pixels).drop (4 * (y * width + x))).take 4 = c.bytes ∧
          format.Shows palette (format.texelAt width source x y) c) ∧
      format.decode width height (source.take needed) palette =
        format.decode width height source palette ∧
      ∀ other : List UInt8, needed ≤ source.length → needed ≤ other.length →
        (∀ x < width, ∀ y < height,
          format.texelAt width other x y = format.texelAt width source x y) →
        format.decode width height other palette = format.decode width height source palette := by
  refine ⟨_, format.imageBytes?_eq hsize, fun source => ⟨?_, ?_, ?_, ?_⟩⟩
  · constructor
    · rintro ⟨pixels, h⟩
      exact ((decode_eq_ok_iff hsize).mp h).1
    · intro h
      exact ⟨_, (decode_eq_ok_iff hsize).mpr ⟨h, rfl⟩⟩
  · intro pixels h
    obtain ⟨⟨-, hpalette⟩, rfl⟩ := (decode_eq_ok_iff hsize).mp h
    refine ⟨?_, fun x hx y hy => ?_⟩
    · rw [Color.length_flatten, length_flatten_pixelRows, Nat.mul_assoc]
    · refine ⟨_, Color.bytes_of_flatten
        (format.getElem?_flatten_pixelRows palette width height source hx hy), ?_⟩
      have hlt : format.texelAt width source x y < UInt32.size := by
        have hfield := bitField_lt source
          (8 * format.rowBytes width * y + format.depth.bits * x) format.depth.bits
        exact hfield.trans_le (Nat.pow_le_pow_right (by decide) format.bits_le)
      have hshows := shows_color hpalette (UInt32.ofNat (format.texelAt width source x y))
      rwa [UInt32.toNat_ofNat', Nat.mod_eq_of_lt hlt] at hshows
  · by_cases hsource : format.rowBytes width * height ≤ source.length
    · refine decode_congr hsize hsource (by rw [List.length_take]; omega) ?_
      exact fun x hx y hy => format.texelAt_take source hx hy
    · rw [List.take_of_length_le (Nat.le_of_not_le hsource)]
  · intro other hsource hother hsame
    exact decode_congr hsize hsource hother hsame

/-- Two rows of three indices: what fills up the rows and follows them is not shown. -/
theorem decode_showsTexels_threeByTwo :
    let palette : Palette := ⟨.rgba5551, #[0xF801, 0x07C1, 0x003F]⟩
    4 * 3 * 2 < sizeLimit ∧
      (∃ pixels, ci4.decode 3 2 [0x12, 0x3F, 0xAB, 0xC4, 0x99] (some palette) = .ok pixels) ∧
      ci4.decode 3 2 [0x12, 0x3F, 0xAB, 0xC4, 0x99] (some palette) =
        ci4.decode 3 2 [0x12, 0x30, 0xAB, 0xC0] (some palette) := by
  intro palette
  have hsize : 4 * 3 * 2 < sizeLimit := by decide
  obtain ⟨needed, hneeded, h⟩ := decode_showsTexels ci4 (some palette) 3 2 hsize
  obtain rfl : 4 = needed := Option.some_inj.mp hneeded
  obtain ⟨hsucceeds, -, -, -⟩ := h [0x12, 0x3F, 0xAB, 0xC4, 0x99]
  obtain ⟨-, -, -, hpadding⟩ := h [0x12, 0x30, 0xAB, 0xC0]
  exact ⟨hsize, hsucceeds.mpr ⟨by decide, fun _ => rfl⟩,
    hpadding _ (by decide) (by decide) (by decide)⟩

end TexelFormat

end DisplayPipeline
