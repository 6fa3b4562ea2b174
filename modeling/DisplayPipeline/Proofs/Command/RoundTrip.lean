import DisplayPipeline.Proofs.Command.Reading

/-!
# Written commands are read back

A command whose fields fit is read back as it was written, any other one is refused. In particular
no command is mistaken for another, although counts and lengths are cut to the width of their fields.
-/

namespace DisplayPipeline.Command

section Lengths

theorem length_flatMap_of_forall {α : Type} (write : α → List UInt8) (size : Nat)
    (h : ∀ a, (write a).length = size) (as : List α) :
    (as.flatMap write).length = as.length * size := by
  induction as with
  | nil => simp
  | cons a as ih =>
    rw [List.flatMap_cons, List.length_append, h, ih, List.length_cons, Nat.succ_mul, Nat.add_comm]

private theorem length_singles (vs : List Float32) : (singles vs).length = vs.length * 4 :=
  length_flatMap_of_forall single 4 (fun _ => rfl) vs

private theorem length_encodeTexture (load : TextureLoad) :
    (encodeTexture load).length = (loadTexture load).payloadLength := by
  have hentries (entries : List UInt16) :
      (entries.flatMap Word.le16).length = entries.length * 2 :=
    length_flatMap_of_forall Word.le16 2 (fun _ => rfl) entries
  cases hpalette : load.source.palette with
  | none =>
    simp [encodeTexture, payloadLength, hpalette, Word.le16, Word.le32, count, textureHeaderBytes]
    omega
  | some palette =>
    simp [encodeTexture, payloadLength, hpalette, Word.le16, Word.le32, count, textureHeaderBytes,
      hentries]
    omega

theorem length_payload (c : Command) : c.payload.length = c.payloadLength := by
  have hcount (n : Nat) : (count n).length = 4 := rfl
  cases c with
  | loadTexture load => exact length_encodeTexture load
  | drawTriangles vertices =>
    rw [payload, List.length_append, length_flatMap_of_forall _ vertexBytes
      (fun v => length_singles v.toList), hcount, payloadLength]
  | drawRects rects =>
    rw [payload, List.length_append, length_flatMap_of_forall _ rectBytes
      (fun r => length_singles r.toList), hcount, payloadLength]
  | fillRects rects =>
    rw [payload, List.length_append, length_flatMap_of_forall encodeFill fillBytes (fun _ => rfl),
      hcount, payloadLength]
  | _ => rfl

theorem length_encode (c : Command) : c.encode.length = c.encodedLength := by
  rw [encode, List.length_append, length_payload]
  rfl

end Lengths

open Command.Reader

section Parts

private theorem reads_vector (kind : CommandKind) (v : Vec4) :
    Reads (vector kind) (singles v.toList) v := by
  rw [singles, Vec4.toList]
  simp only [List.flatMap_cons, List.flatMap_nil]
  exact reads_bind (reads_single kind v.x) (reads_bind (reads_single kind v.y)
    (reads_bind (reads_single kind v.z) (reads_bind (reads_single kind v.w) (reads_pure v))))

private theorem reads_vertex (v : Vertex) : Reads vertex (singles v.toList) v := by
  have hparts : singles v.toList = singles v.position.toList ++ (singles v.color.toList ++
      (Command.single v.u ++ (Command.single v.v ++ []))) := by
    simp [singles, Vertex.toList]
  rw [hparts]
  exact reads_bind (reads_vector _ v.position) (reads_bind (reads_vector _ v.color)
    (reads_bind (reads_single _ v.u) (reads_bind (reads_single _ v.v) (reads_pure v))))

private theorem reads_rect (r : TexturedRect) : Reads rect (singles r.toList) r := by
  have hread (v : Float32) := reads_single .drawRects v
  rw [singles, TexturedRect.toList]
  simp only [List.flatMap_cons, List.flatMap_nil]
  exact reads_bind (hread r.x0) (reads_bind (hread r.y0) (reads_bind (hread r.x1)
    (reads_bind (hread r.y1) (reads_bind (hread r.s0) (reads_bind (hread r.t0)
      (reads_bind (hread r.s1) (reads_bind (hread r.t1) (reads_pure r))))))))

private theorem reads_fill (r : FillRect) : Reads fill (encodeFill r) r := by
  have hword (v : UInt16) := reads_word16 .fillRects v
  have hbyte (v : UInt8) := reads_byte .fillRects v
  rw [encodeFill]
  simp only [List.append_assoc]
  exact reads_bind (hword r.x0) (reads_bind (hword r.y0) (reads_bind (hword r.x1)
    (reads_bind (hword r.y1) (reads_bind (hbyte r.color.red) (reads_bind (hbyte r.color.green)
      (reads_bind (hbyte r.color.blue) (reads_bind (hbyte r.color.alpha) (reads_pure r))))))))

end Parts

section Payloads

private theorem reads_combine {mux : UInt64} {flags : Combiner.Flags}
    (h : flags.bits &&& ~~~Combiner.Flags.known = 0) :
    Reads combine (setCombine mux flags).payload (setCombine mux flags) := by
  refine reads_bind (reads_word64 _ mux) (reads_last (reads_word32 _ flags.bits) ?_)
  rw [Combiner.Flags.ofBits?, if_pos h]
  exact reads_pure _

private theorem fails_combine {mux : UInt64} {flags : Combiner.Flags}
    (h : ¬ flags.bits &&& ~~~Combiner.Flags.known = 0) :
    Fails combine (setCombine mux flags).payload := by
  refine fails_of_reads (reads_word64 _ mux) ?_
  rw [← List.append_nil (Word.le32 _)]
  refine fails_of_reads (reads_word32 _ flags.bits) ?_
  rw [Combiner.Flags.ofBits?, if_neg h]
  exact fun _ => ⟨_, rfl⟩

def spelledColors (c : Combiner.ConstantColors) (reserve : UInt16) : List UInt8 :=
  Word.le32 c.prim ++ (Word.le32 c.env ++ (Word.le32 c.fog ++ (Word.le32 c.blend ++
    (Word.le32 c.fill ++ (Word.le32 c.keyCenter ++ (Word.le32 c.keyScale ++ (Word.le16 c.k4 ++
      (Word.le16 c.k5 ++ ([c.primLodFraction] ++ ([c.primMinLevel] ++ Word.le16 reserve))))))))))

theorem encodeColors_eq (c : Combiner.ConstantColors) : encodeColors c = spelledColors c 0 := by
  simp [encodeColors, spelledColors]

theorem reads_spelledColors (c : Combiner.ConstantColors) (reserve : UInt16) :
    Reads colors (spelledColors c reserve) (setColors c) := by
  have hword (v : UInt32) := reads_word32 .setColors v
  have hhalf (v : UInt16) := reads_word16 .setColors v
  have hbyte (v : UInt8) := reads_byte .setColors v
  refine reads_bind (hword c.prim) (reads_bind (hword c.env) (reads_bind (hword c.fog) ?_))
  refine reads_bind (hword c.blend) (reads_bind (hword c.fill) (reads_bind (hword c.keyCenter) ?_))
  refine reads_bind (hword c.keyScale) (reads_bind (hhalf c.k4) (reads_bind (hhalf c.k5) ?_))
  refine reads_bind (hbyte c.primLodFraction) (reads_bind (hbyte c.primMinLevel) ?_)
  exact reads_last (hhalf reserve) (reads_pure _)

def spelledCapture (c : ColorCapture) (truth reserve : UInt8) : List UInt8 :=
  [c.unit] ++ ([c.read.bitDepth] ++ ([truth] ++ ([reserve] ++ (Word.le32 c.address ++
    (Word.le32 c.read.region.x0 ++ (Word.le32 c.read.region.y0 ++
      (Word.le32 c.read.region.width ++ Word.le32 c.read.region.height)))))))

theorem encodeCapture_eq (c : ColorCapture) :
    encodeCapture c = spelledCapture c (if c.read.synchronous then 1 else 0) 0 := by
  simp [encodeCapture, spelledCapture]

theorem reads_spelledCapture {c : ColorCapture} (hunit : c.unit ≤ 1)
    (hdepth : c.read.bitDepth = 16 ∨ c.read.bitDepth = 32) {truth : UInt8}
    (htruth : decide (truth ≠ 0) = c.read.synchronous) (reserve : UInt8) :
    Reads capture (spelledCapture c truth reserve) (captureColorBuffer c) := by
  have hword (v : UInt32) := reads_word32 .captureColorBuffer v
  have hbyte (v : UInt8) := reads_byte .captureColorBuffer v
  refine reads_bind (reads_unit _ hunit) (reads_bind (hbyte c.read.bitDepth) ?_)
  refine reads_require (by simpa using hdepth) (reads_bind (hbyte truth) ?_)
  dsimp only
  rw [htruth]
  refine reads_bind (hbyte reserve) (reads_bind (hword c.address) ?_)
  refine reads_bind (hword c.read.region.x0) (reads_bind (hword c.read.region.y0) ?_)
  refine reads_bind (hword c.read.region.width) ?_
  exact reads_last (hword c.read.region.height) (reads_pure _)

private theorem truth_synchronous (c : ColorCapture) :
    decide ((if c.read.synchronous then (1 : UInt8) else 0) ≠ 0) = c.read.synchronous := by
  cases c.read.synchronous <;> rfl

private theorem fails_capture {c : ColorCapture}
    (h : ¬ (c.unit ≤ 1 ∧ (c.read.bitDepth = 16 ∨ c.read.bitDepth = 32))) :
    Fails capture (encodeCapture c) := by
  rw [encodeCapture_eq, spelledCapture]
  by_cases hunit : c.unit ≤ 1
  · have hdepth : ¬ (c.read.bitDepth = 16 ∨ c.read.bitDepth = 32) := fun hdepth => h ⟨hunit, hdepth⟩
    refine fails_of_reads (reads_unit _ hunit) (fails_of_reads (reads_byte _ c.read.bitDepth) ?_)
    exact fails_require (by simpa using hdepth)
  · exact fails_bind (fails_unit _ hunit)

private theorem reads_palette (palette : Option Palette) :
    Reads (Reader.palette ((palette.map (·.format.code)).getD TextureSource.noPalette)
        ((palette.map (·.entries.toList)).getD []).length)
      (((palette.map (·.entries.toList)).getD []).flatMap Word.le16) palette := by
  cases palette with
  | none => exact reads_pure none
  | some p =>
    obtain ⟨format, entries⟩ := p
    have hcode : format.code ≠ TextureSource.noPalette := by cases format <;> decide
    have hformat : PaletteFormat.ofCode? format.code = some format := by cases format <;> rfl
    change Reads (Reader.palette format.code entries.toList.length)
      (entries.toList.flatMap Word.le16) (some ⟨format, entries⟩)
    rw [Reader.palette, if_neg hcode, hformat]
    exact reads_last (reads_times (reads_word16 _) entries.toList) (reads_pure _)

def entriesOf (load : TextureLoad) : List UInt16 :=
  (load.source.palette.map (·.entries.toList)).getD []

private def textureRest (load : TextureLoad) : Reader Command := do
  let k := CommandKind.loadTexture
  let entries := (entriesOf load).length
  let length := load.source.bytes.length
  require k .paletteLength entries (entries ≤ maxPaletteEntries)
  require k .bytesLength length (length ≤ maxTexelBytes)
  let palette ← Reader.palette
    ((load.source.palette.map (·.format.code)).getD TextureSource.noPalette) entries
  let bytes ← Reader.bytes k length
  return .loadTexture { load with source := { load.source with palette, bytes } }

def spelledTextureHeader (load : TextureLoad) (reserve : UInt8) (reserve16 : UInt16) :
    List UInt8 :=
  let s := load.source
  [load.unit] ++ ([s.format.code] ++
    ([(s.palette.map (·.format.code)).getD TextureSource.noPalette] ++ ([reserve] ++
      (Word.le32 s.address ++ (Word.le32 s.width ++ (Word.le32 s.height ++
        (Word.le16 (UInt16.ofNat (entriesOf load).length) ++ (Word.le16 reserve16 ++
          (count s.bytes.length ++ Word.le32 s.sourceLength)))))))))

def spelledTexture (load : TextureLoad) (reserve : UInt8) (reserve16 : UInt16) : List UInt8 :=
  spelledTextureHeader load reserve reserve16 ++
    ((entriesOf load).flatMap Word.le16 ++ load.source.bytes)

private theorem length_entriesOf (load : TextureLoad) :
    (entriesOf load).length = (load.source.palette.map (·.entries.size)).getD 0 := by
  unfold entriesOf
  cases load.source.palette <;> simp

theorem encodeTexture_eq (load : TextureLoad) : encodeTexture load = spelledTexture load 0 0 := by
  simp [encodeTexture, spelledTexture, spelledTextureHeader, entriesOf]

private theorem leads_texture {load : TextureLoad} (hunit : load.unit ≤ 1)
    (hentries : (entriesOf load).length < 2 ^ 16) (hlength : load.source.bytes.length < 2 ^ 32)
    (reserve : UInt8) (reserve16 : UInt16) :
    Leads texture (spelledTextureHeader load reserve reserve16) (textureRest load) := by
  have hword (v : UInt32) := reads_word32 .loadTexture v
  have hhalf (v : UInt16) := reads_word16 .loadTexture v
  have hbyte (v : UInt8) := reads_byte .loadTexture v
  have hformat : TexelFormat.ofCode? load.source.format.code = some load.source.format := by
    cases load.source.format <;> rfl
  have hentriesNat : (UInt16.ofNat (entriesOf load).length).toNat = (entriesOf load).length :=
    UInt16.toNat_ofNat_of_lt' hentries
  have hlengthNat : (UInt32.ofNat load.source.bytes.length).toNat = load.source.bytes.length :=
    UInt32.toNat_ofNat_of_lt' hlength
  refine leads_bind (reads_unit _ hunit) (leads_bind (hbyte load.source.format.code) ?_)
  rw [hformat]
  refine leads_bind (hbyte _) (leads_bind (hbyte reserve) ?_)
  refine leads_bind (hword load.source.address) ?_
  refine leads_bind (hword load.source.width) (leads_bind (hword load.source.height) ?_)
  refine leads_bind (hhalf _) (leads_bind (hhalf reserve16) (leads_bind (hword _) ?_))
  rw [hentriesNat, hlengthNat]
  exact leads_last (hword load.source.sourceLength)

theorem reads_spelledTexture {load : TextureLoad} (hunit : load.unit ≤ 1)
    (hentries : (entriesOf load).length ≤ maxPaletteEntries)
    (hlength : load.source.bytes.length ≤ maxTexelBytes) (reserve : UInt8) (reserve16 : UInt16) :
    Reads texture (spelledTexture load reserve reserve16) (loadTexture load) := by
  have hmaxEntries : maxPaletteEntries < 2 ^ 16 := by decide
  have hmaxBytes : maxTexelBytes < 2 ^ 32 := by decide
  apply reads_of_leads (leads_texture hunit (by omega) (by omega) reserve reserve16)
  refine reads_require (decide_eq_true hentries) (reads_require (decide_eq_true hlength) ?_)
  refine reads_bind (reads_palette load.source.palette) ?_
  exact reads_last (reads_bytes _ load.source.bytes) (reads_pure (loadTexture load))

private theorem fails_texture {load : TextureLoad}
    (hsize : (loadTexture load).payloadLength ≤ maxPayload)
    (h : ¬ (load.unit ≤ 1 ∧ (entriesOf load).length ≤ maxPaletteEntries ∧
      load.source.bytes.length ≤ maxTexelBytes)) :
    Fails texture (encodeTexture load) := by
  rw [encodeTexture_eq, spelledTexture]
  by_cases hunit : load.unit ≤ 1
  · rw [payloadLength, ← length_entriesOf] at hsize
    have hmax : maxPayload = 8192 := rfl
    apply fails_of_leads (leads_texture hunit (by omega) (by omega) 0 0)
    by_cases hentries : (entriesOf load).length ≤ maxPaletteEntries
    · have hlength : ¬ load.source.bytes.length ≤ maxTexelBytes :=
        fun hlength => h ⟨hunit, hentries, hlength⟩
      exact fails_after_require (decide_eq_true hentries) (fails_require (decide_eq_false hlength))
    · exact fails_require (decide_eq_false hentries)
  · rw [spelledTextureHeader, List.append_assoc]
    exact fails_bind (fails_unit _ hunit)

end Payloads

def FieldsFit : Command → Prop
  | setCombine _ flags => flags.bits &&& ~~~Combiner.Flags.known = 0
  | loadTexture load =>
    load.unit ≤ 1 ∧ (entriesOf load).length ≤ maxPaletteEntries ∧
      load.source.bytes.length ≤ maxTexelBytes
  | captureColorBuffer c => c.unit ≤ 1 ∧ (c.read.bitDepth = 16 ∨ c.read.bitDepth = 32)
  | drawTriangles vertices => vertices.length % 3 = 0
  | _ => True

instance : DecidablePred FieldsFit
  | setCombine _ flags => inferInstanceAs (Decidable (flags.bits &&& ~~~Combiner.Flags.known = 0))
  | loadTexture load => inferInstanceAs (Decidable (load.unit ≤ 1 ∧
      (entriesOf load).length ≤ maxPaletteEntries ∧ load.source.bytes.length ≤ maxTexelBytes))
  | captureColorBuffer c => inferInstanceAs (Decidable (c.unit ≤ 1 ∧
      (c.read.bitDepth = 16 ∨ c.read.bitDepth = 32)))
  | drawTriangles vertices => inferInstanceAs (Decidable (vertices.length % 3 = 0))
  | setOtherModes .. | setColors _ | invalidateRange .. | drawRects _ | fillRects _ | endFrame =>
    inferInstanceAs (Decidable True)

/-- A command that can be written and read back. -/
structure WellFormed (c : Command) : Prop where
  fields : c.FieldsFit
  size : c.payloadLength ≤ maxPayload

section Commands

def PayloadReads (c : Command) : Prop :=
  if c.FieldsFit then (Reader.command c.kind).run c.payload = .ok (c, [])
  else ∃ e, (Reader.command c.kind).run c.payload = .error e

theorem run_of_reads {α : Type} {x : Reader α} {xs : List UInt8} {a : α} (h : Reads x xs a) :
    x.run xs = .ok (a, []) := by
  rw [← List.append_nil xs]
  exact h []

private theorem run_of_fails {α : Type} {x : Reader α} {xs : List UInt8} (h : Fails x xs) :
    ∃ e, x.run xs = .error e := by
  rw [← List.append_nil xs]
  exact h []

private theorem payloadReads_of_run {c : Command} (hfit : c.FieldsFit)
    (h : (Reader.command c.kind).run c.payload = .ok (c, [])) : c.PayloadReads := by
  rw [PayloadReads, if_pos hfit]
  exact h

private theorem payloadReads_of_reads {c : Command} (hfit : c.FieldsFit)
    (h : Reads (Reader.command c.kind) c.payload c) : c.PayloadReads :=
  payloadReads_of_run hfit (run_of_reads h)

private theorem payloadReads_of_fails {c : Command} (hfit : ¬ c.FieldsFit)
    (h : Fails (Reader.command c.kind) c.payload) : c.PayloadReads := by
  rw [PayloadReads, if_neg hfit]
  exact run_of_fails h

private theorem run_counted {α β : Type} (kind : CommandKind) (size : Nat) (write : α → List UInt8)
    (hsize : ∀ a, (write a).length = size) {f : Nat → Reader β} (as : List α)
    (hlength : as.length < 2 ^ 32) :
    (Reader.count kind size >>= f).run (Command.count as.length ++ as.flatMap write) =
      (f as.length).run (as.flatMap write) :=
  run_count_bind kind hlength (length_flatMap_of_forall write size hsize as)

private theorem payloadReads_triangles (vertices : List Vertex)
    (hlength : vertices.length < 2 ^ 32) :
    (drawTriangles vertices).PayloadReads := by
  have hrun : triangles.run (drawTriangles vertices).payload = _ :=
    run_counted .drawTriangles vertexBytes _ (fun v => length_singles v.toList) vertices hlength
  rw [PayloadReads]
  change if vertices.length % 3 = 0 then triangles.run _ = _ else ∃ e, triangles.run _ = _
  rw [hrun]
  by_cases hthree : vertices.length % 3 = 0
  · rw [if_pos hthree]
    apply run_of_reads
    apply reads_require (decide_eq_true hthree)
    exact reads_last (reads_times reads_vertex vertices) (reads_pure _)
  · rw [if_neg hthree]
    exact run_of_fails (fails_require (decide_eq_false hthree))

private theorem payloadReads_rects (rects : List TexturedRect) (hlength : rects.length < 2 ^ 32) :
    (drawRects rects).PayloadReads := by
  have hrun : (Reader.command .drawRects).run (drawRects rects).payload = _ :=
    run_counted .drawRects rectBytes _ (fun r => length_singles r.toList) rects hlength
  refine payloadReads_of_run (c := drawRects rects) trivial (hrun.trans (run_of_reads ?_))
  exact reads_last (reads_times reads_rect rects) (reads_pure _)

private theorem payloadReads_fills (rects : List FillRect) (hlength : rects.length < 2 ^ 32) :
    (fillRects rects).PayloadReads := by
  have hrun : (Reader.command .fillRects).run (fillRects rects).payload = _ :=
    run_counted .fillRects fillBytes encodeFill (fun _ => rfl) rects hlength
  refine payloadReads_of_run (c := fillRects rects) trivial (hrun.trans (run_of_reads ?_))
  exact reads_last (reads_times reads_fill rects) (reads_pure _)

theorem payloadReads (c : Command) (hsize : c.payloadLength ≤ maxPayload) : c.PayloadReads := by
  -- Counts are below the number of bytes, so they are not cut.
  have hmax : maxPayload = 8192 := rfl
  cases c with
  | setCombine mux flags =>
    by_cases hflags : flags.bits &&& ~~~Combiner.Flags.known = 0
    · exact payloadReads_of_reads hflags (reads_combine hflags)
    · exact payloadReads_of_fails hflags (fails_combine hflags)
  | setOtherModes high low =>
    exact payloadReads_of_reads trivial (reads_bind (reads_word32 _ high)
      (reads_last (reads_word32 _ low) (reads_pure _)))
  | setColors colors =>
    refine payloadReads_of_reads trivial ?_
    rw [payload, encodeColors_eq]
    exact reads_spelledColors colors 0
  | loadTexture load =>
    by_cases hfit : (loadTexture load).FieldsFit
    · refine payloadReads_of_reads hfit ?_
      rw [payload, encodeTexture_eq]
      exact reads_spelledTexture hfit.1 hfit.2.1 hfit.2.2 0 0
    · exact payloadReads_of_fails hfit (fails_texture hsize hfit)
  | invalidateRange address length =>
    exact payloadReads_of_reads trivial (reads_bind (reads_word32 _ address)
      (reads_last (reads_word32 _ length) (reads_pure _)))
  | captureColorBuffer capture =>
    by_cases hfit : (captureColorBuffer capture).FieldsFit
    · refine payloadReads_of_reads hfit ?_
      rw [payload, encodeCapture_eq]
      exact reads_spelledCapture hfit.1 hfit.2 (truth_synchronous capture) 0
    · exact payloadReads_of_fails hfit (fails_capture hfit)
  | drawTriangles vertices =>
    rw [payloadLength, vertexBytes] at hsize
    exact payloadReads_triangles vertices (by omega)
  | drawRects rects =>
    rw [payloadLength, rectBytes] at hsize
    exact payloadReads_rects rects (by omega)
  | fillRects rects =>
    rw [payloadLength, fillBytes] at hsize
    exact payloadReads_fills rects (by omega)
  | endFrame => exact payloadReads_of_reads trivial (reads_pure _)

end Commands

section Whole

theorem ofCode?_code (kind : CommandKind) : CommandKind.ofCode? kind.code = some kind := by
  cases kind <;> rfl

private theorem decode_encode_eq (c : Command) :
    decode c.encode =
      if maxPayload < (UInt32.ofNat c.payloadLength).toNat then
        .error (.payloadTooLarge (UInt32.ofNat c.payloadLength).toNat)
      else if c.payloadLength ≠ (UInt32.ofNat c.payloadLength).toNat then
        .error (.lengthMismatch (UInt32.ofNat c.payloadLength).toNat c.payloadLength)
      else decodePayload c.kind c.payload := by
  simp only [encode, Word.le16, Word.le32, count, List.cons_append, List.nil_append, decode,
    Word.join16_bytes, Word.join32_bytes, ofCode?_code, length_payload, gt_iff_lt]

/-- A payload that does not fit is refused, whatever its length is cut to. -/
theorem decode_encode_of_large {c : Command} (h : ¬ c.payloadLength ≤ maxPayload) :
    ∃ e, decode c.encode = .error e := by
  rw [decode_encode_eq]
  by_cases hlarge : maxPayload < (UInt32.ofNat c.payloadLength).toNat
  · rw [if_pos hlarge]
    exact ⟨_, rfl⟩
  · -- The length was cut, and the payload is longer than it says.
    have hcut : c.payloadLength ≠ (UInt32.ofNat c.payloadLength).toNat := by omega
    rw [if_neg hlarge, if_pos hcut]
    exact ⟨_, rfl⟩

private theorem decode_encode_of_small {c : Command} (h : c.payloadLength ≤ maxPayload) :
    decode c.encode = decodePayload c.kind c.payload := by
  have hmax : maxPayload = 8192 := rfl
  have hcut : (UInt32.ofNat c.payloadLength).toNat = c.payloadLength :=
    UInt32.toNat_ofNat_of_lt' (by change _ < 4294967296; omega)
  rw [decode_encode_eq, hcut, if_neg (by omega), if_neg (by simp)]

theorem decode_encode_of_wellFormed {c : Command} (h : c.WellFormed) :
    decode c.encode = .ok c := by
  have hrun := payloadReads c h.size
  rw [PayloadReads, if_pos h.fields] at hrun
  rw [decode_encode_of_small h.size, decodePayload, hrun]
  rfl

private theorem decode_encode_of_not_wellFormed {c : Command} (h : ¬ c.WellFormed) :
    ∃ e, decode c.encode = .error e := by
  by_cases hsize : c.payloadLength ≤ maxPayload
  · have hfields : ¬ c.FieldsFit := fun hfields => h ⟨hfields, hsize⟩
    have hrun := payloadReads c hsize
    rw [PayloadReads, if_neg hfields] at hrun
    obtain ⟨e, he⟩ := hrun
    rw [decode_encode_of_small hsize, decodePayload, he]
    exact ⟨e, rfl⟩
  · exact decode_encode_of_large hsize

instance : DecidablePred WellFormed := fun c =>
  decidable_of_iff (c.FieldsFit ∧ c.payloadLength ≤ maxPayload)
    ⟨fun h => ⟨h.1, h.2⟩, fun h => ⟨h.fields, h.size⟩⟩

/-- The written form of a command has the length that is computed for it, and it is read back as the
command if that is well-formed and refused otherwise. It is never read back as another command. -/
theorem decode_encode (c : Command) :
    c.encode.length = c.encodedLength ∧
      (if c.WellFormed then decode c.encode = .ok c else ∃ e, decode c.encode = .error e) ∧
      ∀ d, decode c.encode = .ok d → d = c := by
  refine ⟨length_encode c, ?_, ?_⟩
  · by_cases h : c.WellFormed
    · rw [if_pos h]
      exact decode_encode_of_wellFormed h
    · rw [if_neg h]
      exact decode_encode_of_not_wellFormed h
  · intro d hd
    by_cases h : c.WellFormed
    · rw [decode_encode_of_wellFormed h] at hd
      exact (Except.ok.inj hd).symm
    · obtain ⟨e, he⟩ := decode_encode_of_not_wellFormed h
      rw [he] at hd
      cases hd

end Whole

end DisplayPipeline.Command
