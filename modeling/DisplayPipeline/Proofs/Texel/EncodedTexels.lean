import DisplayPipeline.Proofs.Checked.Diffusion
import DisplayPipeline.Proofs.Texel.Pixels

/-!
# Channels of encoded images

What an image that was encoded holds for a pixel. The bits of each channel are its narrowed value,
channel beside channel. A channel whose errors are diffused is off by no more than a step and one,
wherever the pixel lies, and the other channels are the nearest to the pixel.
-/

namespace DisplayPipeline

def gridAt {α : Type} (rows : List (List α)) (x y : Nat) : Option α := rows[y]?.bind (·[x]?)

section Grid

variable {α β γ : Type} {x y : Nat}

private theorem gridAt_map (f : α → β) (rows : List (List α)) :
    gridAt (rows.map fun row => row.map f) x y = (gridAt rows x y).map f := by
  rw [gridAt, gridAt, List.getElem?_map]
  cases rows[y]? <;> simp

private theorem gridAt_zipWith {f : α → β → γ} {as : List (List α)} {bs : List (List β)} {a : α}
    {b : β} (ha : gridAt as x y = some a) (hb : gridAt bs x y = some b) :
    gridAt (as.zipWith (fun us vs => us.zipWith f vs) bs) x y = some (f a b) := by
  obtain ⟨us, hus, ha⟩ := Option.bind_eq_some_iff.mp ha
  obtain ⟨vs, hvs, hb⟩ := Option.bind_eq_some_iff.mp hb
  rw [gridAt, List.getElem?_zipWith, hus, hvs, Option.bind_some, List.getElem?_zipWith, ha, hb]

private theorem exists_of_forall₂ {r : α → β → Prop} {as : List α} {bs : List β} {a : α}
    (h : List.Forall₂ r as bs) (ha : as[x]? = some a) : ∃ b, bs[x]? = some b ∧ r a b := by
  induction h generalizing x with
  | nil => cases ha
  | cons hhead _ ih =>
    cases x with
    | zero =>
      obtain rfl := Option.some_inj.mp ha
      exact ⟨_, rfl, hhead⟩
    | succ x => exact ih ha

private theorem gridAt_forall₂ {r : α → β → Prop} {as : List (List α)} {bs : List (List β)} {a : α}
    (h : List.Forall₂ (List.Forall₂ r) as bs) (ha : gridAt as x y = some a) :
    ∃ b, gridAt bs x y = some b ∧ r a b := by
  obtain ⟨us, hus, ha⟩ := Option.bind_eq_some_iff.mp ha
  obtain ⟨vs, hvs, hrow⟩ := exists_of_forall₂ h hus
  obtain ⟨b, hb, hab⟩ := exists_of_forall₂ hrow ha
  exact ⟨b, by rw [gridAt, hvs, Option.bind_some, hb], hab⟩

private theorem length_of_forall₂ {r : α → β → Prop} {as : List (List α)} {bs : List (List β)}
    {width : Nat} (h : List.Forall₂ (List.Forall₂ r) as bs) (has : ∀ row ∈ as, row.length = width) :
    ∀ row ∈ bs, row.length = width := by
  induction h with
  | nil => simp
  | cons hrow _ ih =>
    obtain ⟨hfirst, hrest⟩ := List.forall_mem_cons.mp has
    exact List.forall_mem_cons.mpr ⟨hrow.length_eq.symm.trans hfirst, ih hrest⟩

end Grid

namespace Color

def nth (bytes : List UInt8) (index : Nat) : Color :=
  ⟨bytes.getD (4 * index) 0, bytes.getD (4 * index + 1) 0, bytes.getD (4 * index + 2) 0,
    bytes.getD (4 * index + 3) 0⟩

private theorem group_eq {bytes : List UInt8} {count : Nat} (h : bytes.length = 4 * count) :
    group bytes = (List.range count).map (nth bytes) := by
  induction count generalizing bytes with
  | zero =>
    obtain rfl := List.eq_nil_of_length_eq_zero h
    rfl
  | succ count ih =>
    obtain ⟨r, g, b, a, rest, rfl, hrest⟩ := TexelDepth.exists_quad h
    rw [group, ih hrest, List.range_succ_eq_map, List.map_cons, List.map_map]
    rfl

private theorem nth_row (bytes : List UInt8) {width x : Nat} (hx : x < width) (y : Nat) :
    nth ((bytes.drop (4 * width * y)).take (4 * width)) x = nth bytes (y * width + x) := by
  have hplace : 4 * (y * width + x) = 4 * width * y + 4 * x := by ring
  have hbyte (k : Nat) (hk : k < 4) :
      ((bytes.drop (4 * width * y)).take (4 * width)).getD (4 * x + k) 0 =
        bytes.getD (4 * (y * width + x) + k) 0 := by
    rw [List.getD_eq_getElem?_getD, List.getElem?_take_of_lt (by omega), List.getElem?_drop,
      List.getD_eq_getElem?_getD, hplace, Nat.add_assoc]
  rw [nth, nth, hbyte 1 (by decide), hbyte 2 (by decide), hbyte 3 (by decide)]
  exact congrArg (Color.mk · _ _ _) (hbyte 0 (by decide))

end Color

namespace TexelChannel

variable {x y : Nat}

private theorem foldl_join_at {channels : List TexelChannel}
    {values : TexelChannel → List (List Nat)}
    {q : TexelChannel → Nat} {upper : List (List UInt32)} {u : UInt32} {used : Nat}
    (hbits : ∀ c ∈ channels, c.bits ≤ 8)
    (hvalues : ∀ c ∈ channels, gridAt (values c) x y = some (q c) ∧ q c < 2 ^ c.bits)
    (hupper : gridAt upper x y = some u) (hused : u.toNat < 2 ^ used)
    (hfits : used + span channels ≤ 32) :
    ∃ t, gridAt (channels.foldl (fun above c => c.join above (values c)) upper) x y = some t ∧
      t.toNat / 2 ^ span channels = u.toNat ∧
      ∀ before c lower, channels = before ++ c :: lower →
        t.toNat / 2 ^ span lower % 2 ^ c.bits = q c := by
  induction channels generalizing upper u used with
  | nil => exact ⟨u, hupper, Nat.div_one _, by simp⟩
  | cons c lower ih =>
    obtain ⟨hc, hlowerBits⟩ := List.forall_mem_cons.mp hbits
    obtain ⟨⟨hvalue, hlt⟩, hlower⟩ := List.forall_mem_cons.mp hvalues
    have hspan : span (c :: lower) = c.bits + span lower := List.sum_cons
    have hroom : u.toNat * 2 ^ c.bits + q c < 2 ^ (used + c.bits) := by
      have hnext : (u.toNat + 1) * 2 ^ c.bits ≤ 2 ^ used * 2 ^ c.bits :=
        Nat.mul_le_mul_right _ hused
      rw [Nat.pow_add]
      rw [Nat.add_mul] at hnext
      omega
    have hword : 2 ^ (used + c.bits) ≤ 2 ^ 32 := Nat.pow_le_pow_right (by decide) (by omega)
    have hfree : u.toNat * 2 ^ c.bits < 2 ^ 32 := by omega
    have hjoined := toNat_join hc hfree hlt
    have hcell : gridAt (c.join upper (values c)) x y = _ := gridAt_zipWith hupper hvalue
    obtain ⟨t, ht, hhead, htail⟩ := ih hlowerBits hlower hcell (hjoined ▸ hroom) (by omega)
    refine ⟨t, ht, ?_, fun before other rest hsplit => ?_⟩
    · rw [hspan, Nat.add_comm, Nat.pow_add, ← Nat.div_div_eq_div_mul, hhead, hjoined,
        Nat.mul_comm, Nat.mul_add_div (Nat.two_pow_pos _), Nat.div_eq_of_lt hlt, Nat.add_zero]
    · cases before with
      | nil =>
        obtain ⟨rfl, rfl⟩ := List.cons.inj hsplit
        rw [hhead, hjoined, Nat.mul_comm, Nat.mul_add_mod, Nat.mod_eq_of_lt hlt]
      | cons first before =>
        exact htail before other rest (List.cons.inj hsplit).2

section Shape

variable {width : Nat}

private theorem length_of_mem_join {c : TexelChannel} {upper : List (List UInt32)}
    {values : List (List Nat)}
    (hupper : ∀ row ∈ upper, row.length = width) (hvalues : ∀ row ∈ values, row.length = width) :
    ∀ row ∈ c.join upper values, row.length = width := by
  intro row hrow
  obtain ⟨index, hindex, rfl⟩ := List.mem_iff_getElem.mp hrow
  simp only [join, List.getElem_zipWith, List.length_zipWith]
  rw [hupper _ (List.getElem_mem _), hvalues _ (List.getElem_mem _), Nat.min_self]

private theorem length_of_mem_foldl_join {channels : List TexelChannel}
    {values : TexelChannel → List (List Nat)} {upper : List (List UInt32)}
    (hupper : ∀ row ∈ upper, row.length = width)
    (hvalues : ∀ c ∈ channels, ∀ row ∈ values c, row.length = width) :
    ∀ row ∈ channels.foldl (fun above c => c.join above (values c)) upper, row.length = width := by
  induction channels generalizing upper with
  | nil => exact hupper
  | cons c lower ih =>
    obtain ⟨hc, hlower⟩ := List.forall_mem_cons.mp hvalues
    exact ih (length_of_mem_join hupper hc) hlower

end Shape

/-- The values of a channel's source over the rows of an image. -/
def inputs (c : TexelChannel) (rows : List (List Color)) : List (List UInt8) :=
  rows.map fun row => row.map (c.source.value ·)

section Quantize

variable {c : TexelChannel} {rows : List (List Color)} {width : Nat}

private theorem length_of_mem_inputs (hrows : ∀ row ∈ rows, row.length = width) :
    ∀ row ∈ c.inputs rows, row.length = width := by
  intro row hrow
  obtain ⟨pixels, hpixels, rfl⟩ := List.mem_map.mp hrow
  rw [List.length_map, hrows pixels hpixels]

private theorem quantize_nearest (c : TexelChannel) (rows : List (List Color)) :
    c.quantize .nearest rows = (c.inputs rows).map fun row => row.map (Channel.narrow c.bits) := rfl

private theorem quantize_diffused_eq_nearest (h : c.diffuses = false) :
    c.quantize .diffused rows = c.quantize .nearest rows := by
  simp only [quantize, h]

private theorem quantize_diffused (h : c.diffuses = true)
    (hrows : ∀ row ∈ rows, row.length = width) :
    c.quantize .diffused rows =
      Channel.diffuseRows c.bits (List.replicate width 0) (c.inputs rows) := by
  simp only [quantize, h]
  cases rows with
  | nil => rfl
  | cons row rows =>
    rw [List.headD_cons, hrows row List.mem_cons_self]
    rfl

/-- The checks that words of 32 bits call for never fail while a channel is diffused. -/
theorem scanRows_quantize (hpos : 0 < c.bits) (h : c.diffuses = true)
    (hrows : ∀ row ∈ rows, row.length = width) :
    Checked.scanRows c.bits (Channel.spread c.bits) (c.inputs rows) (.blank width) =
      .ok (c.quantize .diffused rows) := by
  rw [Checked.scanRows_eq hpos (length_of_mem_inputs hrows), quantize_diffused h hrows]

private theorem quantize_close (hpos : 0 < c.bits) (hrows : ∀ row ∈ rows, row.length = width)
    (narrowing : Narrowing) :
    List.Forall₂ (List.Forall₂ (Channel.Close c.bits)) (c.inputs rows)
      (c.quantize narrowing rows) := by
  have hnearest : List.Forall₂ (List.Forall₂ (Channel.Close c.bits)) (c.inputs rows)
      (c.quantize .nearest rows) := by
    rw [quantize_nearest]
    simp only [List.forall₂_map_right_iff, List.forall₂_same]
    exact fun _ _ v _ => Channel.close_narrow hpos v
  cases narrowing with
  | nearest => exact hnearest
  | diffused =>
    cases h : c.diffuses with
    | false => rwa [quantize_diffused_eq_nearest h]
    | true =>
      rw [quantize_diffused h hrows]
      refine Channel.diffuseRows_close hpos ?_ fun a ha => ?_
      · simpa using length_of_mem_inputs hrows
      · rw [List.eq_of_mem_replicate ha]
        exact Channel.portion_zero c.bits 9

end Quantize

end TexelChannel

namespace TexelFormat

open TexelChannel

variable {format : TexelFormat} {width height : Nat} {rgba : List UInt8}

/-- The rows of pixels that canonical bytes show. -/
def canonicalRows (width height : Nat) (rgba : List UInt8) : List (List Color) :=
  (TexelDepth.runs (4 * width) height rgba).map Color.group

private theorem canonicalRows_eq (hrgba : 4 * width * height ≤ rgba.length) :
    canonicalRows width height rgba = (List.range height).map fun y =>
      (List.range width).map fun x => Color.nth rgba (y * width + x) := by
  have hlength := TexelDepth.length_of_mem_runs hrgba
  rw [canonicalRows]
  rw [TexelDepth.runs_eq_map] at hlength ⊢
  rw [List.map_map]
  refine List.map_congr_left fun y hy => ?_
  rw [Function.comp_apply, Color.group_eq (hlength _ (List.mem_map_of_mem hy))]
  exact List.map_congr_left fun x hx => Color.nth_row rgba (List.mem_range.mp hx) y

private theorem gridAt_canonicalRows (hrgba : 4 * width * height ≤ rgba.length) {x y : Nat}
    (hx : x < width) (hy : y < height) :
    gridAt (canonicalRows width height rgba) x y = some (Color.nth rgba (y * width + x)) := by
  rw [canonicalRows_eq hrgba]
  simp [gridAt, hx, hy]

private theorem length_of_mem_canonicalRows (hrgba : 4 * width * height ≤ rgba.length) :
    ∀ row ∈ canonicalRows width height rgba, row.length = width := by
  intro row hrow
  rw [canonicalRows_eq hrgba] at hrow
  obtain ⟨y, -, rfl⟩ := List.mem_map.mp hrow
  simp

section Texels

variable {rows : List (List Color)} (narrowing : Narrowing)
  (hrows : ∀ row ∈ rows, row.length = width)
include hrows

private theorem length_of_mem_quantize {c : TexelChannel} (hc : c ∈ format.channels) :
    ∀ row ∈ c.quantize narrowing rows, row.length = width :=
  length_of_forall₂ (quantize_close (format.channels_bits c hc).1 hrows narrowing)
    (length_of_mem_inputs hrows)

private theorem length_of_mem_texels :
    ∀ row ∈ format.texels narrowing rows, row.length = width := by
  refine length_of_mem_foldl_join (fun row hrow => ?_) fun c hc =>
    length_of_mem_quantize narrowing hrows hc
  obtain ⟨pixels, hpixels, rfl⟩ := List.mem_map.mp hrow
  rw [List.length_map, hrows pixels hpixels]

private theorem exists_quantized {x y : Nat} {pixel : Color} (hpixel : gridAt rows x y = some pixel)
    {c : TexelChannel} (hc : c ∈ format.channels) :
    ∃ q, gridAt (c.quantize narrowing rows) x y = some q ∧
      Channel.Close c.bits (c.source.value pixel) q := by
  have hinput : gridAt (c.inputs rows) x y = some (c.source.value pixel) := by
    rw [inputs, gridAt_map, hpixel, Option.map_some]
  exact gridAt_forall₂ (quantize_close (format.channels_bits c hc).1 hrows narrowing) hinput

private theorem exists_texel (hformat : format.isIndexed = false) {x y : Nat} {pixel : Color}
    (hpixel : gridAt rows x y = some pixel) :
    ∃ t, gridAt (format.texels narrowing rows) x y = some t ∧ t.toNat < 2 ^ format.depth.bits ∧
      ∀ upper c lower, format.channels = upper ++ c :: lower →
        gridAt (c.quantize narrowing rows) x y =
          some (t.toNat / 2 ^ span lower % 2 ^ c.bits) := by
  have hvalues (c : TexelChannel) (hc : c ∈ format.channels) :
      gridAt (c.quantize narrowing rows) x y =
        some ((gridAt (c.quantize narrowing rows) x y).getD 0) ∧
      (gridAt (c.quantize narrowing rows) x y).getD 0 < 2 ^ c.bits := by
    obtain ⟨q, hq, hclose⟩ := exists_quantized narrowing hrows hpixel hc
    rw [hq]
    exact ⟨rfl, hclose.lt_two_pow⟩
  have hempty : gridAt (rows.map fun row => row.map fun _ => (0 : UInt32)) x y = some 0 := by
    rw [gridAt_map, hpixel, Option.map_some]
  have hspan := span_channels hformat
  have hnothing : (0 : UInt32).toNat < 2 ^ 0 := Nat.one_pos
  obtain ⟨t, ht, htop, hparts⟩ := foldl_join_at (fun c hc => (format.channels_bits c hc).2) hvalues
    hempty hnothing (by rw [hspan, Nat.zero_add]; exact format.bits_le)
  refine ⟨t, ht, ?_, fun upper c lower hsplit => ?_⟩
  · rw [hspan, UInt32.toNat_zero, Nat.div_eq_zero_iff] at htop
    exact htop.resolve_left (Nat.two_pow_pos _).ne'
  · have hc : c ∈ format.channels := by simp [hsplit]
    rw [hparts upper c lower hsplit]
    exact (hvalues c hc).1

end Texels

/-- What an image holds for a channel of the pixel in a column and row, other channels being below
it. -/
def channelAt (format : TexelFormat) (width : Nat) (image : List UInt8) (c : TexelChannel)
    (lower : List TexelChannel) (x y : Nat) : Nat :=
  format.texelAt width image x y / 2 ^ span lower % 2 ^ c.bits

private theorem texelAt_flatMap_pack {texels : List (List UInt32)}
    (htexels : ∀ row ∈ texels, row.length = width) {x y : Nat} (hx : x < width) {t : UInt32}
    (ht : gridAt texels x y = some t) (hlt : t.toNat < 2 ^ format.depth.bits) :
    format.texelAt width (texels.flatMap format.depth.pack) x y = t.toNat := by
  obtain ⟨row, hrow, ht⟩ := Option.bind_eq_some_iff.mp ht
  have hpacked : ∀ row ∈ texels.map format.depth.pack, row.length = format.rowBytes width := by
    intro row hrow
    obtain ⟨texels, hmem, rfl⟩ := List.mem_map.mp hrow
    rw [TexelDepth.length_pack, htexels texels hmem]
    rfl
  have hplace : (texels.map format.depth.pack)[y]? = some (format.depth.pack row) := by
    rw [List.getElem?_map, hrow, Option.map_some]
  rw [← format.texelAt_row _ hx, List.flatMap_def, TexelDepth.take_drop_flatten hpacked hplace,
    TexelDepth.texelAt_pack ht, Nat.mod_eq_of_lt hlt]

private theorem rowBytes_rgba8888 (width : Nat) : rgba8888.rowBytes width = 4 * width := by
  rw [rowBytes, TexelDepth.rowBytes, show rgba8888.depth.bits = 32 from rfl]
  omega

section Encoding

variable {narrowing : Narrowing} (hformat : format.isIndexed = false)
include hformat

private theorem encode_eq_texels (hsize : 4 * width * height < sizeLimit)
    (hrgba : 4 * width * height ≤ rgba.length) :
    format.encode width height rgba narrowing =
      .ok ((format.texels narrowing (canonicalRows width height rgba)).flatMap
        format.depth.pack) := by
  have hrows : ∀ row ∈ format.texels narrowing (canonicalRows width height rgba),
      row.length = width := length_of_mem_texels narrowing (length_of_mem_canonicalRows hrgba)
  rw [encode, requireBytes_eq rgba8888 hsize (by rwa [rowBytes_rgba8888])]
  by_cases hwidth : width = 0
  · subst hwidth
    have hnone : (format.texels narrowing (canonicalRows 0 height rgba)).flatMap
        format.depth.pack = [] := by
      refine List.flatMap_eq_nil_iff.mpr fun row hrow => List.eq_nil_of_length_eq_zero ?_
      rw [TexelDepth.length_pack, hrows row hrow, TexelDepth.rowBytes, Nat.zero_mul]
    simp [hformat, hnone]
  · simp [hformat, hwidth, canonicalRows]

private theorem encode_isOk_iff :
    (∃ out, format.encode width height rgba narrowing = .ok out) ↔
      4 * width * height < sizeLimit ∧ 4 * width * height ≤ rgba.length := by
  constructor
  · rintro ⟨out, h⟩
    rw [encode, requireBytes, imageBytes?, rowBytes_rgba8888] at h
    by_cases hsize : 4 * width * height < sizeLimit
    · by_cases hrgba : 4 * width * height ≤ rgba.length
      · exact ⟨hsize, hrgba⟩
      · simp [hformat, hsize, Nat.lt_of_not_le hrgba, bind, Except.bind] at h
    · simp [hformat, hsize, bind, Except.bind] at h
  · rintro ⟨hsize, hrgba⟩
    exact ⟨_, encode_eq_texels hformat hsize hrgba⟩

/-- What the encoded image holds for a channel of a pixel is the value it was narrowed to. -/
theorem gridAt_quantize (hsize : 4 * width * height < sizeLimit)
    (hrgba : 4 * width * height ≤ rgba.length) {out : List UInt8}
    (h : format.encode width height rgba narrowing = .ok out) {upper lower : List TexelChannel}
    {c : TexelChannel} (hc : format.channels = upper ++ c :: lower) {x y : Nat} (hx : x < width)
    (hy : y < height) :
    gridAt (c.quantize narrowing (canonicalRows width height rgba)) x y =
      some (format.channelAt width out c lower x y) := by
  have hrows := length_of_mem_canonicalRows hrgba
  have hpixel := gridAt_canonicalRows hrgba hx hy
  obtain ⟨t, ht, hlt, hparts⟩ := exists_texel narrowing hrows hformat hpixel
  rw [encode_eq_texels hformat hsize hrgba] at h
  cases h
  rw [channelAt, texelAt_flatMap_pack (length_of_mem_texels narrowing hrows) hx ht hlt]
  exact hparts upper c lower hc

end Encoding

/-- Encoding with diffusion succeeds if the pixels are there and can be counted. Its arithmetic never
leaves a signed word of 32 bits, and no cell exceeds a bound that only the width of the channel
decides. What the image holds for a channel is then off by at most a step and one, wherever the pixel
lies; a single bit or a full byte is as without diffusion. -/
theorem encode_diffused_close (format : TexelFormat) (width height : Nat) (rgba : List UInt8)
    (hformat : format.isIndexed = false) :
    ((∃ out, format.encode width height rgba .diffused = .ok out) ↔
      4 * width * height < sizeLimit ∧ 4 * width * height ≤ rgba.length) ∧
    ∀ out, format.encode width height rgba .diffused = .ok out →
      ∃ fast, format.encode width height rgba .nearest = .ok fast ∧
        ∀ upper c lower, format.channels = upper ++ c :: lower →
          (c.diffuses = true →
            Checked.scanRows c.bits (Channel.spread c.bits)
                (c.inputs (canonicalRows width height rgba)) (.blank width) =
              .ok (c.quantize .diffused (canonicalRows width height rgba))) ∧
          ∀ x < width, ∀ y < height, ∃ q,
            gridAt (c.quantize .diffused (canonicalRows width height rgba)) x y = some q ∧
            format.channelAt width out c lower x y = q ∧
            q < 2 ^ c.bits ∧
            |((Channel.expand c.bits q).toNat : Int) -
                (c.source.value (Color.nth rgba (y * width + x))).toNat| ≤
              ⌈(255 : ℚ) / (2 ^ c.bits - 1)⌉ + 1 ∧
            (c.bits ∈ [1, 8] → format.channelAt width fast c lower x y = q) := by
  refine ⟨encode_isOk_iff hformat, fun out h => ?_⟩
  obtain ⟨hsize, hrgba⟩ := (encode_isOk_iff hformat).mp ⟨out, h⟩
  have hfast : format.encode width height rgba .nearest = _ := encode_eq_texels hformat hsize hrgba
  refine ⟨_, hfast, fun upper c lower hc => ?_⟩
  have hmem : c ∈ format.channels := by simp [hc]
  have hpos := (format.channels_bits c hmem).1
  have hrows := length_of_mem_canonicalRows hrgba
  refine ⟨fun hdiffuses => scanRows_quantize hpos hdiffuses hrows, fun x hx y hy => ?_⟩
  have hpixel := gridAt_canonicalRows hrgba hx hy
  obtain ⟨q, hq, hclose⟩ := exists_quantized .diffused hrows hpixel hmem
  have hout := gridAt_quantize hformat hsize hrgba h hc hx hy
  refine ⟨q, hq, ?_, hclose.lt_two_pow, hclose.near_step hpos, fun hbits => ?_⟩
  · exact Option.some_inj.mp (hout.symm.trans hq)
  · have hnearest : c.quantize .diffused (canonicalRows width height rgba) =
        c.quantize .nearest (canonicalRows width height rgba) :=
      quantize_diffused_eq_nearest (by
        simp only [List.mem_cons, List.not_mem_nil, or_false] at hbits
        cases hbits <;> simp [diffuses, *])
    have hfastOut := gridAt_quantize hformat hsize hrgba hfast hc hx hy
    rw [← hnearest, hq] at hfastOut
    exact (Option.some_inj.mp hfastOut).symm

/-- Four gray pixels in channels of three bits and one: the last of them, a 90, is given the errors of
the others. -/
theorem encode_diffused_close_twoByTwo :
    let rgba : List UInt8 :=
      [10, 10, 10, 255, 200, 200, 200, 0, 55, 55, 55, 127, 90, 90, 90, 128]
    ia4.isIndexed = false ∧ ∃ out, ia4.encode 2 2 rgba .diffused = .ok out ∧
      |((Channel.expand 3 (ia4.channelAt 2 out ⟨.intensity, 3⟩ [⟨.alpha, 1⟩] 1 1)).toNat : Int) -
        90| ≤ 38 := by
  intro rgba
  obtain ⟨hsucceeds, hclose⟩ := encode_diffused_close ia4 2 2 rgba rfl
  obtain ⟨out, hout⟩ := hsucceeds.mpr (by decide)
  obtain ⟨fast, -, hchannels⟩ := hclose out hout
  obtain ⟨-, hpixels⟩ := hchannels [] ⟨.intensity, 3⟩ [⟨.alpha, 1⟩] rfl
  obtain ⟨q, -, hq, -, hnear, -⟩ := hpixels 1 (by decide) 1 (by decide)
  have hstep : ⌈(255 : ℚ) / (2 ^ 3 - 1)⌉ + 1 = 38 := by norm_num
  have hinput : ChannelSource.intensity.value (Color.nth rgba (1 * 2 + 1)) = 90 := by decide
  rw [hstep, hinput] at hnear
  refine ⟨rfl, out, hout, ?_⟩
  rw [hq]
  exact hnear

end TexelFormat

end DisplayPipeline
