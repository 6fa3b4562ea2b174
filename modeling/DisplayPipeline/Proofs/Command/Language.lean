import DisplayPipeline.Proofs.Command.ByteUse
import DisplayPipeline.Proofs.Command.Inversion

/-!
# The language of written commands

Exactly those bytes are read as a command that agree with its written form wherever a reader looks. The
numbers of a draw are told apart by their bits.
-/

namespace DisplayPipeline.Command

/-- Words as the bits of numbers; bytes at the end that are less than a word are left out. -/
def readBits : List UInt8 → List UInt32
  | a :: b :: c :: d :: rest => Word.join32 d c b a :: readBits rest
  | _ => []

/-- The numbers of a command, in the order in which they are written. -/
def numbers : Command → List Float32
  | drawTriangles vertices => vertices.flatMap (·.toList)
  | drawRects rects => rects.flatMap (·.toList)
  | _ => []

def numberBits (kind : CommandKind) (bytes : List UInt8) : List UInt32 :=
  match kind with
  | .drawTriangles | .drawRects => readBits (bytes.drop (headerBytes + 4))
  | _ => []

end DisplayPipeline.Command

namespace DisplayPipeline

open Command Command.Reader

/-- A command with the bits of its numbers. -/
structure SpelledCommand where
  command : Command
  bits : List UInt32
  numbers_eq : bits.map Float32.ofBits = command.numbers

namespace SpelledCommand

def payload (w : SpelledCommand) : List UInt8 :=
  match w.command with
  | .drawTriangles vertices => Command.count vertices.length ++ writeBits w.bits
  | .drawRects rects => Command.count rects.length ++ writeBits w.bits
  | c => c.payload

def encode (w : SpelledCommand) : List UInt8 :=
  Word.le16 w.command.kind.code ++ Word.le16 0 ++ Command.count w.command.payloadLength ++ w.payload

/-- The bytes are read as the command, and its numbers stand in them with these bits. -/
def ReadFrom (w : SpelledCommand) (bytes : List UInt8) : Prop :=
  decode bytes = .ok w.command ∧ numberBits w.command.kind bytes = w.bits

/-- The bytes agree with the written form of the command wherever a reader looks. -/
def WrittenAs (w : SpelledCommand) (bytes : List UInt8) : Prop :=
  AdmitsBytes (byteUse w.command.kind) w.encode bytes

section Bits

private theorem length_writeBits (bits : List UInt32) : (writeBits bits).length = bits.length * 4 :=
  length_flatMap_of_forall Word.le32 4 (fun _ => rfl) bits

private theorem readBits_writeBits (bits : List UInt32) : readBits (writeBits bits) = bits := by
  induction bits with
  | nil => rfl
  | cons word bits ih =>
    change Word.join32 _ _ _ _ :: readBits (writeBits bits) = _
    rw [Word.join32_bytes, ih]

private theorem writeBits_toBits (vs : List Float32) : writeBits
    (vs.map Float32.toBits) = singles vs := by
  rw [writeBits, List.flatMap_map]
  rfl

private def of (c : Command) : SpelledCommand where
  command := c
  bits := c.numbers.map Float32.toBits
  numbers_eq := by simp [Function.comp_def]

private theorem of_payload (c : Command) : (of c).payload = c.payload := by
  cases c with
  | drawTriangles vertices =>
    change Command.count _ ++ writeBits ((vertices.flatMap _).map Float32.toBits) = _
    rw [writeBits_toBits, singles, List.flatMap_assoc]
    rfl
  | drawRects rects =>
    change Command.count _ ++ writeBits ((rects.flatMap _).map Float32.toBits) = _
    rw [writeBits_toBits, singles, List.flatMap_assoc]
    rfl
  | _ => rfl

private theorem of_encode (c : Command) : (of c).encode = c.encode := by
  rw [encode, of_payload]
  rfl

private theorem length_payload (w : SpelledCommand) :
    w.payload.length = w.command.payloadLength := by
  obtain ⟨c, bits, hbits⟩ := w
  have hlength := congrArg List.length hbits
  rw [List.length_map] at hlength
  cases c with
  | drawTriangles vertices =>
    have hnumbers : (drawTriangles vertices).numbers.length = vertices.length * 10 := by
      simp [numbers, Vertex.toList, Vec4.toList]
    simp only [payload, payloadLength, vertexBytes, List.length_append, length_writeBits, hlength,
      hnumbers]
    change 4 + _ = _
    omega
  | drawRects rects =>
    have hnumbers : (drawRects rects).numbers.length = rects.length * 8 := by
      simp [numbers, TexturedRect.toList]
    simp only [payload, payloadLength, rectBytes, List.length_append, length_writeBits, hlength,
      hnumbers]
    change 4 + _ = _
    omega
  | _ => simp only [payload, Command.length_payload]

end Bits

section Payloads

def Spells (kind : CommandKind) (c : Command) (bytes : List UInt8) : Prop :=
  ∃ w : SpelledCommand, w.command = c ∧ c.kind = kind ∧ c.FieldsFit ∧
    AdmitsBytes (payloadUse kind) w.payload bytes

variable {kind : CommandKind} {c : Command} {bytes : List UInt8}

private theorem spells_of_alike (hkind : c.kind = kind) (hfit : c.FieldsFit)
    (h : AdmitsBytes (payloadUse kind) c.payload bytes) : Spells kind c bytes := by
  refine ⟨of c, rfl, hkind, hfit, ?_⟩
  rw [of_payload]
  exact h

private theorem spells_of_eq (hkind : c.kind = kind) (hfit : c.FieldsFit)
    (huse : ∀ i, payloadUse kind i = .verbatim) (h : bytes = c.payload) : Spells kind c bytes :=
  spells_of_alike hkind hfit (admitsBytes_of_eq huse h)

private theorem yields_combine : Yields combine (Spells .setCombine) := by
  refine yields_recovered (recovers_word64 _) fun mux => ?_
  refine yields_recovered (recovers_word32 _) fun bits => ?_
  by_cases hflags : bits &&& ~~~Combiner.Flags.known = 0
  · rw [Combiner.Flags.ofBits?, if_pos hflags]
    refine yields_pure (spells_of_eq rfl hflags (fun _ => rfl) ?_)
    rw [List.append_nil]
    rfl
  · rw [Combiner.Flags.ofBits?, if_neg hflags]
    exact yields_throw _

private theorem yields_colors : Yields colors (Spells .setColors) := by
  have hword := recovers_word32 .setColors
  have hhalf := recovers_word16 .setColors
  have hbyte := recovers_byte .setColors
  refine yields_recovered hword fun prim => yields_recovered hword fun env => ?_
  refine yields_recovered hword fun fog => yields_recovered hword fun blend => ?_
  refine yields_recovered hword fun fill => yields_recovered hword fun keyCenter => ?_
  refine yields_recovered hword fun keyScale => yields_recovered hhalf fun k4 => ?_
  refine yields_recovered hhalf fun k5 => yields_recovered hbyte fun primLodFraction => ?_
  refine yields_recovered hbyte fun primMinLevel => yields_recovered hhalf fun reserve => ?_
  refine yields_pure (spells_of_alike rfl trivial ?_)
  exact (admitsBytes_colors_iff _ _).mpr ⟨reserve, rfl⟩

private theorem yields_capture : Yields capture (Spells .captureColorBuffer) := by
  have hword := recovers_word32 .captureColorBuffer
  have hbyte := recovers_byte .captureColorBuffer
  apply yields_bind (yields_unit _)
  rintro unit _ ⟨rfl, hunit⟩
  refine yields_recovered hbyte fun bitDepth => ?_
  simp only [← Bool.decide_or]
  refine yields_require fun hdepth => yields_recovered hbyte fun truth => ?_
  refine yields_recovered hbyte fun reserve => yields_recovered hword fun address => ?_
  refine yields_recovered hword fun x0 => yields_recovered hword fun y0 => ?_
  refine yields_recovered hword fun width => yields_recovered hword fun height => ?_
  refine yields_pure (spells_of_alike rfl ⟨hunit, hdepth⟩ ?_)
  exact (admitsBytes_capture_iff _ _).mpr ⟨truth, reserve, rfl, rfl⟩

private theorem yields_palette (code : UInt8) (entries : Nat) :
    Yields (Reader.palette code entries) fun palette taken =>
      (palette.map (·.format.code)).getD TextureSource.noPalette = code ∧
        ((palette.map (·.entries.toList)).getD []).length = entries ∧
        taken = ((palette.map (·.entries.toList)).getD []).flatMap Word.le16 := by
  by_cases hcode : code = TextureSource.noPalette
  · rw [Reader.palette, if_pos hcode]
    exact yields_require fun hentries => yields_pure ⟨hcode.symm, hentries.symm, rfl⟩
  · rw [Reader.palette, if_neg hcode]
    cases hformat : PaletteFormat.ofCode? code with
    | none => exact yields_throw _
    | some format =>
      have hwritten : format.code = code := by
        unfold PaletteFormat.ofCode? at hformat
        split at hformat <;> cases hformat <;> rfl
      apply yields_bind (recovers_times (recovers_word16 _) entries)
      rintro as _ ⟨hlength, rfl⟩
      refine yields_pure ⟨hwritten, ?_, ?_⟩
      · simpa using hlength
      · simp

private theorem texelCode_of_ofCode? {code : UInt8} {format : TexelFormat}
    (h : TexelFormat.ofCode? code = some format) : format.code = code := by
  have hcodes : ∀ i (hi : i < TexelFormat.all.length), TexelFormat.all[i].code.toNat = i := by decide
  obtain ⟨hlt, rfl⟩ := List.getElem?_eq_some_iff.mp h
  exact UInt8.toNat_inj.mp (hcodes code.toNat hlt)

private theorem yields_texture : Yields texture (Spells .loadTexture) := by
  have hword := recovers_word32 .loadTexture
  have hhalf := recovers_word16 .loadTexture
  have hbyte := recovers_byte .loadTexture
  apply yields_bind (yields_unit _)
  rintro unit _ ⟨rfl, hunit⟩
  refine yields_recovered hbyte fun code => ?_
  cases hformat : TexelFormat.ofCode? code with
  | none => exact yields_throw _
  | some format =>
    obtain rfl := texelCode_of_ofCode? hformat
    refine yields_recovered hbyte fun paletteCode => yields_recovered hbyte fun reserve => ?_
    refine yields_recovered hword fun address => yields_recovered hword fun width => ?_
    refine yields_recovered hword fun height => yields_recovered hhalf fun entries => ?_
    refine yields_recovered hhalf fun reserve16 => yields_recovered hword fun length => ?_
    refine yields_recovered hword fun sourceLength => ?_
    refine yields_require fun hentries => yields_require fun hlength => ?_
    apply yields_bind (yields_palette _ _)
    rintro palette _ ⟨rfl, hpalette, rfl⟩
    apply yields_bind (yields_bytes _ _)
    rintro _ texels ⟨rfl, htexels⟩
    refine yields_pure (spells_of_alike rfl ?_ ?_)
    · exact ⟨hunit, hpalette.trans_le hentries, htexels.trans_le hlength⟩
    · refine (admitsBytes_texture_iff _ _).mpr ⟨reserve, reserve16, ?_⟩
      have hentriesWord : UInt16.ofNat ((palette.map (·.entries.toList)).getD []).length = entries := by
        rw [hpalette, UInt16.ofNat_toNat]
      have hlengthWord : UInt32.ofNat texels.length = length := by
        rw [htexels, UInt32.ofNat_toNat]
      simp only [spelledTexture, spelledTextureHeader, entriesOf, hentriesWord, Command.count,
        hlengthWord, List.append_assoc, List.append_nil]

private theorem yields_triangles : Yields triangles (Spells .drawTriangles) := by
  apply yields_bind (yields_count _ _)
  rintro n _ ⟨-, rfl⟩
  refine yields_require fun hthree => ?_
  apply yields_bind (yields_times_numbers vertex_readsNumbers n)
  rintro vertices _ ⟨rfl, bits, hbits, rfl⟩
  refine yields_pure ⟨⟨.drawTriangles vertices, bits, hbits⟩, rfl, rfl, hthree, ?_⟩
  exact admitsBytes_of_eq (fun _ => rfl) (by rw [List.append_nil]; rfl)

private theorem yields_rects : Yields (Reader.command .drawRects) (Spells .drawRects) := by
  apply yields_bind (yields_count _ _)
  rintro n _ ⟨-, rfl⟩
  apply yields_bind (yields_times_numbers rect_readsNumbers n)
  rintro rects _ ⟨rfl, bits, hbits, rfl⟩
  refine yields_pure ⟨⟨.drawRects rects, bits, hbits⟩, rfl, rfl, trivial, ?_⟩
  exact admitsBytes_of_eq (fun _ => rfl) (by rw [List.append_nil]; rfl)

private theorem recovers_fill : Recovers fill encodeFill := by
  have hword := recovers_word16 .fillRects
  have hbyte := recovers_byte .fillRects
  refine yields_recovered hword fun x0 => yields_recovered hword fun y0 => ?_
  refine yields_recovered hword fun x1 => yields_recovered hword fun y1 => ?_
  refine yields_recovered hbyte fun red => yields_recovered hbyte fun green => ?_
  refine yields_recovered hbyte fun blue => yields_recovered hbyte fun alpha => ?_
  exact yields_pure rfl

private theorem yields_fills : Yields (Reader.command .fillRects) (Spells .fillRects) := by
  apply yields_bind (yields_count _ _)
  rintro n _ ⟨-, rfl⟩
  apply yields_bind (recovers_times recovers_fill n)
  rintro rects _ ⟨rfl, rfl⟩
  refine yields_pure (spells_of_eq rfl trivial (fun _ => rfl) ?_)
  rw [List.append_nil]
  rfl

private theorem yields_command (kind : CommandKind) : Yields (Reader.command kind)
    (Spells kind) := by
  cases kind with
  | setCombine => exact yields_combine
  | setOtherModes =>
    refine yields_recovered (recovers_word32 _) fun high => ?_
    refine yields_recovered (recovers_word32 _) fun low => ?_
    refine yields_pure (spells_of_eq rfl trivial (fun _ => rfl) ?_)
    rw [List.append_nil]
    rfl
  | setColors => exact yields_colors
  | loadTexture => exact yields_texture
  | invalidateRange =>
    refine yields_recovered (recovers_word32 _) fun address => ?_
    refine yields_recovered (recovers_word32 _) fun length => ?_
    refine yields_pure (spells_of_eq rfl trivial (fun _ => rfl) ?_)
    rw [List.append_nil]
    rfl
  | captureColorBuffer => exact yields_capture
  | drawTriangles => exact yields_triangles
  | drawRects => exact yields_rects
  | fillRects => exact yields_fills
  | endFrame => exact yields_pure (spells_of_eq rfl trivial (fun _ => rfl) rfl)

private theorem run_of_alike (w : SpelledCommand) (h : w.command.WellFormed)
    (hadmits : AdmitsBytes (payloadUse w.command.kind) w.payload bytes) :
    (Reader.command w.command.kind).run bytes = .ok (w.command, []) := by
  have hrun := payloadReads w.command h.size
  rw [PayloadReads, if_pos h.fields] at hrun
  have hlength := w.length_payload
  obtain ⟨c, bits, hbits⟩ := w
  obtain ⟨hfields, hsize⟩ := h
  have hmax : maxPayload = 8192 := rfl
  cases c with
  | setColors colors =>
    obtain ⟨reserve, rfl⟩ := (admitsBytes_colors_iff _ _).mp hadmits
    exact run_of_reads (reads_spelledColors colors reserve)
  | loadTexture load =>
    obtain ⟨reserve, reserve16, rfl⟩ := (admitsBytes_texture_iff _ _).mp hadmits
    exact run_of_reads (reads_spelledTexture hfields.1 hfields.2.1 hfields.2.2 reserve reserve16)
  | captureColorBuffer capture =>
    obtain ⟨truth, reserve, rfl, htruth⟩ := (admitsBytes_capture_iff _ _).mp hadmits
    exact run_of_reads (reads_spelledCapture hfields.1 hfields.2 htruth reserve)
  | drawTriangles vertices =>
    obtain rfl : bytes = Command.count vertices.length ++ writeBits bits :=
      hadmits.eq (fun _ => rfl)
    have hrest : (writeBits bits).length = vertices.length * vertexBytes :=
      Nat.add_left_cancel (List.length_append.symm.trans hlength)
    have hcount : vertices.length < 2 ^ 32 := by
      change 4 + vertices.length * 40 ≤ 8192 at hsize
      omega
    have hrun : triangles.run (Command.count vertices.length ++ writeBits bits) = _ :=
      run_count_bind .drawTriangles hcount hrest
    refine hrun.trans (run_of_reads (reads_require (decide_eq_true hfields) ?_))
    exact reads_last (times_readsNumbers vertex_readsNumbers vertices bits hbits) (reads_pure _)
  | drawRects rects =>
    obtain rfl : bytes = Command.count rects.length ++ writeBits bits := hadmits.eq (fun _ => rfl)
    have hrest : (writeBits bits).length = rects.length * rectBytes :=
      Nat.add_left_cancel (List.length_append.symm.trans hlength)
    have hcount : rects.length < 2 ^ 32 := by
      change 4 + rects.length * 32 ≤ 8192 at hsize
      omega
    have hrun : (Reader.command .drawRects).run (Command.count rects.length ++ writeBits bits) = _ :=
      run_count_bind .drawRects hcount hrest
    refine hrun.trans (run_of_reads ?_)
    exact reads_last (times_readsNumbers rect_readsNumbers rects bits hbits) (reads_pure _)
  | _ =>
    obtain rfl := hadmits.eq (fun _ => rfl)
    exact hrun

end Payloads

section Whole

private theorem kindCode_of_ofCode? {code : UInt16} {kind : CommandKind}
    (h : CommandKind.ofCode? code = some kind) : kind.code = code := by
  unfold CommandKind.ofCode? at h
  split at h <;> cases h <;> rfl

private theorem decodePayload_eq_ok_iff {kind : CommandKind} {payload : List UInt8} {c : Command} :
    decodePayload kind payload = .ok c ↔ (Reader.command kind).run payload = .ok (c, []) := by
  unfold decodePayload
  cases hrun : (Reader.command kind).run payload with
  | error e =>
    constructor <;> intro h <;> cases h
  | ok result =>
    obtain ⟨d, rest⟩ := result
    cases rest with
    | nil =>
      change Except.ok d = Except.ok c ↔ Except.ok (d, []) = Except.ok (c, [])
      rw [Except.ok.injEq, Except.ok.injEq, Prod.mk.injEq, and_iff_left rfl]
    | cons b rest =>
      constructor <;> intro h <;> cases h

/-- A command is read if its kind is known, its length is the declared one and not too large, and the
payload is read. -/
theorem decode_cons_eq_ok_iff {k0 k1 r0 r1 n0 n1 n2 n3 : UInt8} {payload : List UInt8}
    {c : Command} :
    decode (k0 :: k1 :: r0 :: r1 :: n0 :: n1 :: n2 :: n3 :: payload) = .ok c ↔
      ∃ kind, CommandKind.ofCode? (Word.join16 k1 k0) = some kind ∧
        payload.length ≤ maxPayload ∧ payload.length = (Word.join32 n3 n2 n1 n0).toNat ∧
        decodePayload kind payload = .ok c := by
  rw [decode]
  cases CommandKind.ofCode? (Word.join16 k1 k0) with
  | none => simp
  | some kind =>
    by_cases hlarge : (Word.join32 n3 n2 n1 n0).toNat > maxPayload
    · simp only [if_pos hlarge, reduceCtorEq, false_iff]
      rintro ⟨_, -, hsize, hlength, -⟩
      omega
    · by_cases hlength : payload.length = (Word.join32 n3 n2 n1 n0).toNat
      · have hsize : payload.length ≤ maxPayload := by omega
        simp [hlarge, hlength, hlength ▸ hsize]
      · simp [hlarge, hlength]

private theorem decode_eq_ok_iff {bytes : List UInt8} {c : Command} :
    decode bytes = .ok c ↔
      ∃ reserve payload, bytes = Word.le16 c.kind.code ++ (Word.le16 reserve ++
          (Command.count payload.length ++ payload)) ∧
        payload.length ≤ maxPayload ∧ (Reader.command c.kind).run payload = .ok (c, []) := by
  constructor
  · intro h
    match bytes, h with
    | k0 :: k1 :: r0 :: r1 :: n0 :: n1 :: n2 :: n3 :: payload, h =>
      obtain ⟨kind, hcode, hsize, hlength, hpayload⟩ := decode_cons_eq_ok_iff.mp h
      rw [decodePayload_eq_ok_iff] at hpayload
      obtain ⟨_, -, _, -, rfl, -⟩ := yields_command kind payload c [] hpayload
      refine ⟨Word.join16 r1 r0, payload, ?_, hsize, hpayload⟩
      rw [kindCode_of_ofCode? hcode, Word.le16_join16, Word.le16_join16, Command.count, hlength,
        UInt32.ofNat_toNat, Word.le32_join32]
      rfl
  · rintro ⟨reserve, payload, rfl, hsize, hrun⟩
    have hmax : maxPayload = 8192 := rfl
    have hcut : (UInt32.ofNat payload.length).toNat = payload.length :=
      UInt32.toNat_ofNat_of_lt' (by change _ < 4294967296; omega)
    refine decode_cons_eq_ok_iff.mpr ⟨c.kind, ?_, hsize, ?_, decodePayload_eq_ok_iff.mpr hrun⟩
    · rw [Word.join16_bytes, ofCode?_code]
    · rw [Word.join32_bytes, hcut]
      rfl

private theorem byteUse_payload (kind : CommandKind) :
    (fun i => byteUse kind (2 + (2 + (4 + i)))) = payloadUse kind := by
  funext i
  have hplace : 2 + (2 + (4 + i)) - headerBytes = i := by
    change 2 + (2 + (4 + i)) - 8 = i
    omega
  rw [byteUse, if_neg (by omega), if_neg (by change ¬ _ < 8; omega), hplace]

/-- Bytes that agree with a written command are its header, reserved bytes apart, and a payload that
agrees with the written one. -/
theorem writtenAs_iff (w : SpelledCommand) (bytes : List UInt8) :
    w.WrittenAs bytes ↔
      ∃ reserve payload, bytes = Word.le16 w.command.kind.code ++ (Word.le16 reserve ++
          (Command.count w.command.payloadLength ++ payload)) ∧
        AdmitsBytes (payloadUse w.command.kind) w.payload payload := by
  have hencode : w.encode = Word.le16 w.command.kind.code ++ (Word.le16 0 ++
      (Command.count w.command.payloadLength ++ w.payload)) := by
    simp only [encode, List.append_assoc]
  have hkind (i : Nat) (hi : i < 2) : byteUse w.command.kind i = .verbatim := by
    rw [byteUse, if_neg (by omega), if_pos (by change _ < 8; omega)]
  have hreserve (i : Nat) (hi : i < 2) : byteUse w.command.kind (2 + i) = .ignored := by
    rw [byteUse, if_pos (by omega)]
  have hcount (i : Nat) (hi : i < 4) : byteUse w.command.kind (2 + (2 + i)) = .verbatim := by
    rw [byteUse, if_neg (by omega), if_pos (by change _ < 8; omega)]
  rw [WrittenAs, hencode, admitsBytes_append_iff 2 rfl]
  constructor
  · rintro ⟨_, _, rfl, hfront, hrest⟩
    obtain ⟨_, _, rfl, hmiddle, hrest⟩ := (admitsBytes_append_iff 2 rfl).mp hrest
    obtain ⟨_, payload, rfl, hlength, hpayload⟩ := (admitsBytes_append_iff 4 rfl).mp hrest
    rw [admitsBytes_verbatim_iff 2 rfl hkind] at hfront
    obtain ⟨reserve, rfl⟩ := exists_le16 hmiddle.length
    rw [admitsBytes_verbatim_iff 4 rfl hcount] at hlength
    rw [byteUse_payload] at hpayload
    exact ⟨reserve, payload, by rw [hfront, hlength], hpayload⟩
  · rintro ⟨reserve, payload, rfl, hpayload⟩
    refine ⟨_, _, rfl, (admitsBytes_verbatim_iff 2 rfl hkind).mpr rfl, ?_⟩
    refine (admitsBytes_append_iff 2 rfl).mpr ⟨_, _, rfl, ?_, ?_⟩
    · exact (admitsBytes_ignored_iff 2 rfl hreserve).mpr rfl
    · refine (admitsBytes_append_iff 4 rfl).mpr ⟨_, payload, rfl, ?_, ?_⟩
      · exact (admitsBytes_verbatim_iff 4 rfl hcount).mpr rfl
      · rw [byteUse_payload]
        exact hpayload

private theorem numberBits_of_admitsBytes (w : SpelledCommand) {payload : List UInt8}
    {front : List UInt8} (hfront : front.length = headerBytes)
    (h : AdmitsBytes (payloadUse w.command.kind) w.payload payload) :
    numberBits w.command.kind (front ++ payload) = w.bits := by
  have hdrop : (front ++ payload).drop (headerBytes + 4) = payload.drop 4 := by
    rw [← hfront, List.drop_length_add_append]
  obtain ⟨c, bits, hbits⟩ := w
  cases c with
  | drawTriangles vertices =>
    obtain rfl : payload = Command.count vertices.length ++ writeBits bits := h.eq fun _ => rfl
    change readBits _ = bits
    rw [hdrop]
    exact readBits_writeBits bits
  | drawRects rects =>
    obtain rfl : payload = Command.count rects.length ++ writeBits bits := h.eq fun _ => rfl
    change readBits _ = bits
    rw [hdrop]
    exact readBits_writeBits bits
  | _ => exact (List.map_eq_nil_iff.mp hbits).symm

private theorem readFrom_of_writtenAs {w : SpelledCommand} {bytes : List UInt8}
    (h : w.command.WellFormed) (hwritten : w.WrittenAs bytes) : w.ReadFrom bytes := by
  obtain ⟨reserve, payload, rfl, hadmits⟩ := (writtenAs_iff w bytes).mp hwritten
  have hlength : payload.length = w.command.payloadLength :=
    hadmits.length.trans w.length_payload
  constructor
  · refine decode_eq_ok_iff.mpr ⟨reserve, payload, by rw [hlength], ?_, run_of_alike w h hadmits⟩
    rw [hlength]
    exact h.size
  · have hassoc : Word.le16 w.command.kind.code ++ (Word.le16 reserve ++
        (Command.count w.command.payloadLength ++ payload)) =
        (Word.le16 w.command.kind.code ++ (Word.le16 reserve ++
          Command.count w.command.payloadLength)) ++ payload := by
      simp only [List.append_assoc]
    rw [hassoc]
    exact numberBits_of_admitsBytes w rfl hadmits

/-- What is read is a well-formed command, and the bytes agree with what is written for it. -/
theorem exists_of_decode {bytes : List UInt8} {c : Command} (h : decode bytes = .ok c) :
    c.WellFormed ∧ ∃ w : SpelledCommand, w.command = c ∧ w.WrittenAs bytes := by
  obtain ⟨reserve, payload, rfl, hsize, hrun⟩ := decode_eq_ok_iff.mp h
  obtain ⟨taken, htaken, w, rfl, -, hfields, hadmits⟩ := yields_command c.kind payload c [] hrun
  rw [List.append_nil] at htaken
  subst htaken
  have hlength : payload.length = w.command.payloadLength :=
    hadmits.length.trans w.length_payload
  refine ⟨⟨hfields, hlength ▸ hsize⟩, w, rfl, ?_⟩
  exact (writtenAs_iff w _).mpr ⟨reserve, payload, by rw [hlength], hadmits⟩

private theorem readFrom_iff (w : SpelledCommand) (bytes : List UInt8) :
    w.ReadFrom bytes ↔ w.command.WellFormed ∧ w.WrittenAs bytes := by
  constructor
  · rintro ⟨hdecode, hbits⟩
    obtain ⟨hwell, v, hcommand, hwritten⟩ := exists_of_decode hdecode
    have hread := readFrom_of_writtenAs (hcommand ▸ hwell) hwritten
    -- Both commands have the bits that stand in the bytes.
    have hsame : v = w := by
      obtain ⟨c, bits, hnumbers⟩ := v
      obtain ⟨d, others, hothers⟩ := w
      obtain rfl : c = d := hcommand
      obtain rfl : bits = others := hread.2.symm.trans hbits
      rfl
    exact ⟨hwell, hsame ▸ hwritten⟩
  · rintro ⟨hwell, hwritten⟩
    exact readFrom_of_writtenAs hwell hwritten

end Whole

/-- The bytes that are read as a command, its numbers given by their bits, are those that agree with
its written form wherever a reader looks, for well-formed commands and no others. On any other bytes
the result is an error, and no payload is read past its end. -/
theorem decode_language (bytes : List UInt8) :
    (∀ w : SpelledCommand, w.ReadFrom bytes ↔ w.command.WellFormed ∧ w.WrittenAs bytes) ∧
      (∀ c, decode bytes = .ok c ↔ ∃ w : SpelledCommand, w.command = c ∧ w.ReadFrom bytes) ∧
      ((∃ e, decode bytes = .error e) ↔
        ∀ w : SpelledCommand, ¬ (w.command.WellFormed ∧ w.WrittenAs bytes)) ∧
      (∀ c : Command, ∃ w : SpelledCommand, w.command = c ∧ w.encode = c.encode) ∧
      ∀ kind payload c rest, (Reader.command kind).run payload = .ok (c, rest) →
        ∃ taken, payload = taken ++ rest := by
  have hdecode (c : Command) :
      decode bytes = .ok c ↔ ∃ w : SpelledCommand, w.command = c ∧ w.ReadFrom bytes := by
    constructor
    · intro h
      obtain ⟨hwell, w, rfl, hwritten⟩ := exists_of_decode h
      exact ⟨w, rfl, readFrom_of_writtenAs hwell hwritten⟩
    · rintro ⟨w, rfl, hread⟩
      exact hread.1
  refine ⟨fun w => readFrom_iff w bytes, hdecode, ?_, fun c => ⟨of c, rfl, of_encode c⟩, ?_⟩
  · simp only [← readFrom_iff]
    constructor
    · rintro ⟨e, he⟩ w hread
      cases he.symm.trans hread.1
    · intro hnone
      cases h : decode bytes with
      | error e => exact ⟨e, rfl⟩
      | ok c =>
        obtain ⟨w, -, hread⟩ := (hdecode c).mp h
        exact absurd hread (hnone w)
  · intro kind payload c rest hrun
    obtain ⟨taken, htaken, -⟩ := yields_command kind payload c rest hrun
    exact ⟨taken, htaken⟩

/-- Reserved bytes of the header may be anything. -/
example : decode [0x30, 0, 0xAB, 0xCD, 0, 0, 0, 0] = .ok .endFrame := rfl

end SpelledCommand

end DisplayPipeline
