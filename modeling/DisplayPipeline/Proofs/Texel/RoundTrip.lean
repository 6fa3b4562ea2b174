import DisplayPipeline.Proofs.Texel.Exactness
import DisplayPipeline.Proofs.Texel.Rows
import DisplayPipeline.Proofs.WordBytes
import DisplayPipeline.Texel.Encode
import Mathlib.Algebra.Order.Ring.Nat

/-!
# Decoding and encoding again

An image that is decoded and encoded again in its own format is the same image, whether or not
errors are diffused: every channel of a decoded pixel is a widened field of its texel, and the fields
side by side are the texel. Only what holds no texel is lost, the lower half of the last byte of a
row with an odd number of four-bit texels.
-/

namespace DisplayPipeline

namespace Color

theorem length_flatten (pixels : List Color) : (flatten pixels).length = 4 * pixels.length := by
  induction pixels with
  | nil => rfl
  | cons c pixels ih =>
    rw [flatten, List.flatMap_cons, List.length_append, List.length_cons]
    change 4 + (flatten pixels).length = _
    omega

private theorem group_flatten (pixels : List Color) : group (flatten pixels) = pixels := by
  induction pixels with
  | nil => rfl
  | cons c pixels ih => exact congrArg (c :: ·) ih

private theorem flatten_flatten (rows : List (List Color)) :
    flatten rows.flatten = (rows.map flatten).flatten := by
  rw [flatten, List.flatMap_def, List.map_flatten, List.flatten_flatten, List.map_map]
  rfl

private theorem intensity_gray (intensity alpha : UInt8) :
    (gray intensity alpha).intensity = intensity := by
  have hmean : (intensity.toNat + intensity.toNat + intensity.toNat + 1) / 3 = intensity.toNat := by
    omega
  simp only [Color.intensity, gray, hmean, UInt8.ofNat_toNat]

end Color

namespace TexelChannel

variable {pixel : UInt32 → Color} {n : Nat} {rows : List (List UInt32)}

def span (channels : List TexelChannel) : Nat := (channels.map (·.bits)).sum

/-- The value of a channel that lies above `below` bits of a texel. -/
def part (c : TexelChannel) (below : Nat) (texel : UInt32) : Nat :=
  texel.toNat / 2 ^ below % 2 ^ c.bits

/-- A pixel shows a channel of a texel: its value is the channel's, widened. -/
def Shows (c : TexelChannel) (below : Nat) (texel : UInt32) (pixel : Color) : Prop :=
  c.source.value pixel = Channel.expand c.bits (c.part below texel)

def ShowsAll (texel : UInt32) (pixel : Color) : List TexelChannel → Prop
  | [] => True
  | c :: lower => c.Shows (span lower) texel pixel ∧ ShowsAll texel pixel lower

private theorem part_le_top (c : TexelChannel) (below : Nat) (texel : UInt32) :
    c.part below texel ≤ Channel.top c.bits := by
  have hlt : c.part below texel < 2 ^ c.bits := Nat.mod_lt _ (Nat.two_pow_pos _)
  rw [Channel.top, Nat.one_shiftLeft]
  omega

private def widened (c : TexelChannel) (below : Nat) (rows : List (List UInt32)) : List
    (List UInt8) :=
  (rows.map fun row => row.map (c.part below)).map fun vs => vs.map (Channel.expand c.bits)

private theorem values_eq_widened {c : TexelChannel} {below : Nat}
    (h : ∀ row ∈ rows, ∀ t ∈ row, c.Shows below t (pixel t)) :
    (rows.map fun row => row.map pixel).map (fun row => row.map (c.source.value ·)) =
      c.widened below rows := by
  simp only [widened, List.map_map, Function.comp_def]
  exact List.map_congr_left fun row hrow => List.map_congr_left fun t ht => h row hrow t ht

private theorem narrow_widened {c : TexelChannel} {below : Nat} (hpos : 0 < c.bits)
    (hbits : c.bits ≤ 8) :
    (c.widened below rows).map (fun row => row.map (Channel.narrow c.bits)) =
      rows.map fun row => row.map (c.part below) := by
  have hpart (t : UInt32) := Channel.narrow_expand hpos hbits (c.part_le_top below t)
  simp only [widened, List.map_map, Function.comp_def, hpart]

private theorem diffuseRows_widened {c : TexelChannel} {below : Nat} (hpos : 0 < c.bits)
    (hbits : c.bits ≤ 8) (hlength : ∀ row ∈ rows, row.length = n) :
    Channel.diffuseRows c.bits
      (List.replicate ((rows.map fun row => row.map pixel).headD []).length 0)
      (c.widened below rows) =
        rows.map fun row => row.map (c.part below) := by
  cases rows with
  | nil => rfl
  | cons row rest =>
    rw [List.map_cons, List.headD_cons, List.length_map, hlength row List.mem_cons_self]
    refine Channel.diffuseRows_expand hpos hbits _ (fun vs hvs => ?_) fun vs hvs v hv => ?_
    · obtain ⟨row, hrow, rfl⟩ := List.mem_map.mp hvs
      rw [List.length_map, hlength row hrow]
    · obtain ⟨row, -, rfl⟩ := List.mem_map.mp hvs
      obtain ⟨t, -, rfl⟩ := List.mem_map.mp hv
      exact c.part_le_top below t

private theorem quantize_of_shows {c : TexelChannel} {below : Nat} (narrowing : Narrowing)
    (hpos : 0 < c.bits) (hbits : c.bits ≤ 8) (hlength : ∀ row ∈ rows, row.length = n)
    (h : ∀ row ∈ rows, ∀ t ∈ row, c.Shows below t (pixel t)) :
    c.quantize narrowing (rows.map fun row => row.map pixel) =
      rows.map fun row => row.map (c.part below) := by
  unfold quantize
  rw [values_eq_widened h]
  cases narrowing with
  | nearest => exact narrow_widened hpos hbits
  | diffused =>
    cases hd : c.diffuses with
    | false => exact narrow_widened hpos hbits
    | true => exact diffuseRows_widened hpos hbits hlength

private theorem join_map (c : TexelChannel) (upper : UInt32 → UInt32) (value : UInt32 → Nat) :
    c.join (rows.map fun row => row.map upper) (rows.map fun row => row.map value) =
      rows.map fun row => row.map fun t =>
        upper t <<< UInt32.ofNat c.bits ||| UInt32.ofNat (value t) := by
  simp only [join, List.zipWith_map, List.zipWith_self]

theorem toNat_join {c : TexelChannel} {upper : UInt32} {value : Nat} (hbits : c.bits ≤ 8)
    (hfits : upper.toNat * 2 ^ c.bits < 2 ^ 32) (hvalue : value < 2 ^ c.bits) :
    (upper <<< UInt32.ofNat c.bits ||| UInt32.ofNat value).toNat =
      upper.toNat * 2 ^ c.bits + value := by
  have hpow : 2 ^ c.bits ≤ 2 ^ 8 := Nat.pow_le_pow_right (by decide) hbits
  have hbelow : (UInt32.ofNat value).toNat = value := by
    rw [UInt32.toNat_ofNat', Nat.mod_eq_of_lt (by omega)]
  have hshift : (UInt32.ofNat c.bits).toNat % 32 = c.bits := by
    rw [UInt32.toNat_ofNat', Nat.mod_eq_of_lt (by omega), Nat.mod_eq_of_lt (by omega)]
  rw [UInt32.toNat_or, UInt32.toNat_shiftLeft, hshift, hbelow, Nat.shiftLeft_eq,
    Nat.mod_eq_of_lt hfits, ← Nat.shiftLeft_eq, Word.or_shiftLeft _ hvalue, Nat.shiftLeft_eq]

private theorem join_part {c : TexelChannel} {below : Nat} {upper texel : UInt32}
    (hbits : c.bits ≤ 8) (hupper : upper.toNat = texel.toNat / 2 ^ (c.bits + below)) :
    (upper <<< UInt32.ofNat c.bits ||| UInt32.ofNat (c.part below texel)).toNat =
      texel.toNat / 2 ^ below := by
  have htexel : texel.toNat < 2 ^ 32 := texel.toNat_lt
  have hpart : c.part below texel < 2 ^ c.bits := Nat.mod_lt _ (Nat.two_pow_pos _)
  have hquotient : upper.toNat = texel.toNat / 2 ^ below / 2 ^ c.bits := by
    rw [hupper, Nat.div_div_eq_div_mul, Nat.add_comm, Nat.pow_add]
  have hsplit : upper.toNat * 2 ^ c.bits + c.part below texel = texel.toNat / 2 ^ below := by
    rw [hquotient, part, Nat.div_add_mod']
  have hfits : upper.toNat * 2 ^ c.bits < 2 ^ 32 := by
    have hle : texel.toNat / 2 ^ below ≤ texel.toNat := Nat.div_le_self _ _
    omega
  rw [toNat_join hbits hfits hpart, hsplit]

/-- The channels of pixels that show their texels, joined one after the other, are the texels. -/
theorem foldl_join (narrowing : Narrowing) (channels : List TexelChannel)
    (hbits : ∀ c ∈ channels, 0 < c.bits ∧ c.bits ≤ 8) (hlength : ∀ row ∈ rows, row.length = n)
    {upper : UInt32 → UInt32}
    (hshows : ∀ row ∈ rows, ∀ t ∈ row, ShowsAll t (pixel t) channels)
    (hupper : ∀ row ∈ rows, ∀ t ∈ row, (upper t).toNat = t.toNat / 2 ^ span channels) :
    channels.foldl
        (fun above c => c.join above (c.quantize narrowing (rows.map fun row => row.map pixel)))
        (rows.map fun row => row.map upper) = rows := by
  induction channels generalizing upper with
  | nil =>
    have hsame (row : List UInt32) (hrow : row ∈ rows) : row.map upper = row := by
      refine List.map_congr_left (fun t ht => ?_) |>.trans (List.map_id _)
      apply UInt32.toNat_inj.mp
      rw [hupper row hrow t ht]
      exact Nat.div_one _
    exact (List.map_congr_left hsame).trans (List.map_id' rows)
  | cons c lower ih =>
    obtain ⟨hpos, hle⟩ := hbits c List.mem_cons_self
    rw [List.foldl_cons, quantize_of_shows narrowing hpos hle hlength fun row hrow t ht =>
      (hshows row hrow t ht).1, join_map]
    exact ih (fun other hother => hbits other (List.mem_cons_of_mem c hother))
      (fun row hrow t ht => (hshows row hrow t ht).2) fun row hrow t ht =>
        join_part hle (hupper row hrow t ht)

end TexelChannel

namespace TexelFormat

open TexelChannel

variable {format : TexelFormat} {width height : Nat}

private theorem expand_eight_part {c : TexelChannel} {below : Nat} {texel : UInt32} {value : UInt8}
    (hbits : c.bits = 8) (hvalue : value.toNat = texel.toNat / 2 ^ below % 2 ^ 8) :
    value = Channel.expand c.bits (c.part below texel) := by
  rw [part, hbits, ← hvalue, Channel.expand_eight]

private theorem showsAll_color (h : format.isIndexed = false) (palette : Option Palette)
    (texel : UInt32) :
    ShowsAll texel (format.color palette texel) format.channels := by
  have hfield (shift bits : UInt32) (hshift : shift.toNat < 32) (hbits : bits.toNat < 32) :=
    congrArg (Channel.expand bits.toNat) (Word.fieldNat_eq texel hshift hbits)
  have hbyte (shift : UInt32) (hshift : shift.toNat < 32) :
      (texel >>> shift).toUInt8.toNat = texel.toNat / 2 ^ shift.toNat % 2 ^ 8 := by
    rw [UInt32.toNat_toUInt8, UInt32.toNat_shiftRight, Nat.mod_eq_of_lt hshift,
      Nat.shiftRight_eq_div_pow]
  have hlow : texel.toUInt8.toNat = texel.toNat / 2 ^ 0 % 2 ^ 8 := by
    rw [UInt32.toNat_toUInt8, Nat.pow_zero, Nat.div_one]
  cases format with
  | ci4 | ci8 => nomatch h
  | rgba5551 =>
    exact ⟨hfield 11 5 (by decide) (by decide), hfield 6 5 (by decide) (by decide),
      hfield 1 5 (by decide) (by decide), hfield 0 1 (by decide) (by decide), trivial⟩
  | rgb565 =>
    exact ⟨hfield 11 5 (by decide) (by decide), hfield 5 6 (by decide) (by decide),
      hfield 0 5 (by decide) (by decide), trivial⟩
  | rgba8888 =>
    exact ⟨expand_eight_part rfl (hbyte 24 (by decide)), expand_eight_part rfl (hbyte 16 (by decide)),
      expand_eight_part rfl (hbyte 8 (by decide)), expand_eight_part rfl hlow, trivial⟩
  | ia4 =>
    exact ⟨(Color.intensity_gray _ _).trans (hfield 1 3 (by decide) (by decide)),
      hfield 0 1 (by decide) (by decide), trivial⟩
  | ia8 =>
    exact ⟨(Color.intensity_gray _ _).trans (hfield 4 4 (by decide) (by decide)),
      hfield 0 4 (by decide) (by decide), trivial⟩
  | ia16 =>
    exact ⟨(Color.intensity_gray _ _).trans (expand_eight_part rfl (hbyte 8 (by decide))),
      expand_eight_part rfl hlow, trivial⟩
  | i4 => exact ⟨(Color.intensity_gray _ _).trans (hfield 0 4 (by decide) (by decide)), trivial⟩
  | i8 => exact ⟨(Color.intensity_gray _ _).trans (expand_eight_part rfl hlow), trivial⟩

theorem channels_bits (format : TexelFormat) :
    ∀ c ∈ format.channels, 0 < c.bits ∧ c.bits ≤ 8 := by
  cases format <;> decide

theorem span_channels (h : format.isIndexed = false) :
    span format.channels = format.depth.bits := by
  cases format <;> first | rfl | nomatch h

private theorem texels_color (h : format.isIndexed = false) (palette : Option Palette)
    (narrowing : Narrowing) {rows : List (List UInt32)} {n : Nat}
    (hlength : ∀ row ∈ rows, row.length = n)
    (hsmall : ∀ row ∈ rows, ∀ t ∈ row, t.toNat < 2 ^ format.depth.bits) :
    format.texels narrowing (rows.map fun row => row.map (format.color palette)) = rows := by
  have hempty : ((rows.map fun row => row.map (format.color palette)).map fun row =>
      row.map fun _ => (0 : UInt32)) = rows.map fun row => row.map fun _ => 0 := by
    simp only [List.map_map, Function.comp_def]
  rw [texels, hempty]
  refine foldl_join narrowing format.channels (channels_bits format) hlength
    (fun _ _ t _ => showsAll_color h palette t) fun row hrow t ht => ?_
  rw [span_channels h, Nat.div_eq_of_lt (hsmall row hrow t ht)]
  rfl

private theorem rowBytes_le (format : TexelFormat) (width : Nat) :
    format.rowBytes width ≤ 4 * width := by
  have hbits : width * format.depth.bits ≤ width * 32 :=
    Nat.mul_le_mul_left width (by cases format <;> decide)
  have hfour : 4 ≤ format.depth.bits := by cases format <;> decide
  rw [rowBytes, TexelDepth.rowBytes]
  omega

theorem imageBytes?_eq (format : TexelFormat) (h : 4 * width * height < sizeLimit) :
    format.imageBytes? width height = some (format.rowBytes width * height) := by
  have hle := Nat.mul_le_mul_right height (format.rowBytes_le width)
  rw [imageBytes?]
  exact if_pos (hle.trans_lt h)

theorem requireBytes_eq (format : TexelFormat) (h : 4 * width * height < sizeLimit) {actual : Nat}
    (hactual : format.rowBytes width * height ≤ actual) :
    format.requireBytes width height actual = .ok (format.rowBytes width * height) := by
  simp only [requireBytes, format.imageBytes?_eq h]
  exact if_neg hactual.not_gt

private def texelRows (format : TexelFormat) (width height : Nat) (source : List UInt8) :
    List (List UInt32) :=
  (TexelDepth.runs (format.rowBytes width) height source).map fun row =>
    (format.depth.unpack row).take width

section TexelRows

variable {source : List UInt8} (h : format.rowBytes width * height ≤ source.length)
include h

theorem holdsTexels_of_mem_runs : ∀ row ∈ TexelDepth.runs (format.rowBytes width) height source,
    format.depth.HoldsTexels width row :=
  fun row hrow => TexelDepth.holdsTexels_of_length (TexelDepth.length_of_mem_runs h row hrow)

private theorem length_of_mem_texelRows : ∀ row ∈ format.texelRows width height source,
    row.length = width := by
  intro row hrow
  obtain ⟨bytes, hmem, rfl⟩ := List.mem_map.mp hrow
  rw [List.length_take, Nat.min_eq_left (holdsTexels_of_mem_runs h bytes hmem).enough]

private theorem lt_of_mem_texelRows : ∀ row ∈ format.texelRows width height source,
    ∀ t ∈ row, t.toNat < 2 ^ format.depth.bits := by
  intro row hrow t ht
  obtain ⟨bytes, hmem, rfl⟩ := List.mem_map.mp hrow
  exact (holdsTexels_of_mem_runs h bytes hmem).small t (List.mem_of_mem_take ht)

private theorem pack_texelRows : (format.texelRows width height source).flatMap format.depth.pack =
    format.depth.cleared width (source.take (format.rowBytes width * height)) := by
  have hcleared : format.depth.cleared width
      (TexelDepth.runs (format.rowBytes width) height source).flatten = _ :=
    TexelDepth.cleared_flatten (TexelDepth.length_of_mem_runs h)
  rw [← TexelDepth.flatten_runs, hcleared, List.flatMap_def, texelRows, List.map_map]
  exact congrArg _ (List.map_congr_left fun row hrow => (holdsTexels_of_mem_runs h row hrow).packed)

end TexelRows

private theorem length_texelRows (format : TexelFormat) (width height : Nat) (source : List UInt8) :
    (format.texelRows width height source).length = height := by
  rw [texelRows, List.length_map, TexelDepth.length_runs]

private theorem decode_eq (hformat : format.isIndexed = false)
    (hsize : 4 * width * height < sizeLimit)
    (hwidth : width ≠ 0) {source : List UInt8} (palette : Option Palette)
    (hsource : format.rowBytes width * height ≤ source.length) :
    format.decode width height source palette = .ok ((format.texelRows width height source).map
      fun row => row.map (format.color palette)).flatten := by
  have hlimit : ¬width * height * 4 ≥ sizeLimit := by
    rw [Nat.mul_comm, ← Nat.mul_assoc]
    exact hsize.not_ge
  rw [decode, format.requireBytes_eq hsize hsource, texelRows, List.map_map]
  simp [hformat, hlimit, hwidth, List.flatMap_def]
  rfl

private theorem encode_eq (hformat : format.isIndexed = false)
    (hsize : 4 * width * height < sizeLimit)
    (hwidth : width ≠ 0) {rows : List (List Color)} (hheight : rows.length = height)
    (hrows : ∀ row ∈ rows, row.length = width) (narrowing : Narrowing) :
    format.encode width height (Color.flatten rows.flatten) narrowing =
      .ok ((format.texels narrowing rows).flatMap format.depth.pack) := by
  have hcanonical : rgba8888.rowBytes width = 4 * width := by
    rw [rowBytes, TexelDepth.rowBytes, show rgba8888.depth.bits = 32 from rfl]
    omega
  have hbytes : ∀ row ∈ rows.map Color.flatten, row.length = 4 * width := by
    intro row hrow
    obtain ⟨pixels, hpixels, rfl⟩ := List.mem_map.mp hrow
    rw [Color.length_flatten, hrows pixels hpixels]
  have hcount : (rows.map Color.flatten).length = height := by rw [List.length_map, hheight]
  have hlength : (Color.flatten rows.flatten).length = 4 * width * height := by
    rw [Color.flatten_flatten, TexelDepth.length_flatten hbytes, hcount]
  have hruns : (TexelDepth.runs (4 * width) height (Color.flatten rows.flatten)).map Color.group =
      rows := by
    rw [Color.flatten_flatten, ← hcount, TexelDepth.runs_flatten hbytes, List.map_map]
    exact (List.map_congr_left fun row _ => Color.group_flatten row).trans (List.map_id rows)
  rw [encode, rgba8888.requireBytes_eq hsize (by rw [hcanonical, hlength])]
  simp [hformat, hwidth, hruns]

/-- Decoding an image that is there succeeds, and encoding its pixels in the same format gives back
the bytes of the image, whichever way the channels are narrowed; only the unused half byte at the end
of a row is cleared. -/
theorem encode_decode (format : TexelFormat) (palette : Option Palette) (narrowing : Narrowing)
    (width height : Nat) (hformat : format.isIndexed = false)
    (hsize : 4 * width * height < sizeLimit) :
    ∃ needed, format.imageBytes? width height = some needed ∧
      ∀ source : List UInt8, needed ≤ source.length →
        ∃ pixels, format.decode width height source palette = .ok pixels ∧
          format.encode width height (Color.flatten pixels) narrowing =
            .ok (format.depth.cleared width (source.take needed)) := by
  refine ⟨format.rowBytes width * height, format.imageBytes?_eq hsize, fun source hsource => ?_⟩
  rcases Nat.eq_zero_or_pos width with rfl | hpos
  · have hcanonical : rgba8888.rowBytes 0 * height ≤ (Color.flatten []).length := by
      rw [show rgba8888.rowBytes 0 = 0 from rfl, Nat.zero_mul]
      exact Nat.zero_le _
    refine ⟨[], ?_, ?_⟩
    · rw [decode, format.requireBytes_eq hsize hsource]
      simp [hformat, sizeLimit]
    · rw [encode, rgba8888.requireBytes_eq hsize hcanonical]
      simp [hformat, rowBytes, TexelDepth.rowBytes, TexelDepth.cleared]
  · have hlength := length_of_mem_texelRows hsource
    have hcount : ((format.texelRows width height source).map fun row =>
        row.map (format.color palette)).length = height := by
      rw [List.length_map, format.length_texelRows]
    have hrows : ∀ row ∈ (format.texelRows width height source).map fun row =>
        row.map (format.color palette), row.length = width := by
      intro row hrow
      obtain ⟨texels, hmem, rfl⟩ := List.mem_map.mp hrow
      rw [List.length_map, hlength texels hmem]
    refine ⟨_, decode_eq hformat hsize hpos.ne' palette hsource, ?_⟩
    rw [encode_eq hformat hsize hpos.ne' hcount hrows narrowing,
      texels_color hformat palette narrowing hlength (lt_of_mem_texelRows hsource),
      pack_texelRows hsource]

/-- Two rows of three four-bit texels, their errors diffused. -/
theorem encode_decode_threeByTwo :
    ∃ pixels, ia4.decode 3 2 [0x12, 0x3F, 0xAB, 0xC4, 0x99] none = .ok pixels ∧
      ia4.encode 3 2 (Color.flatten pixels) .diffused = .ok [0x12, 0x30, 0xAB, 0xC0] := by
  obtain ⟨needed, hneeded, h⟩ := encode_decode ia4 none .diffused 3 2 rfl (by decide)
  obtain rfl : 4 = needed := Option.some_inj.mp hneeded
  exact h [0x12, 0x3F, 0xAB, 0xC4, 0x99] (by decide)

end TexelFormat

end DisplayPipeline
