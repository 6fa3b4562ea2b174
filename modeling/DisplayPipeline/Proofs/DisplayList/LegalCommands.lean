import DisplayPipeline.Proofs.Command.RoundTrip
import DisplayPipeline.Proofs.DisplayList.Drawings

namespace DisplayPipeline

namespace Ram

private theorem size_copyFrom (ram : Ram) (offset : Nat) (h : offset < ram.bytes.size) (count : Nat)
    (copied : ByteArray) :
    (ram.copyFrom offset h count copied).size = copied.size + count := by
  induction count using Nat.strong_induction_on generalizing offset copied with
  | h count ih =>
    rw [copyFrom]
    by_cases hcount : count = 0
    · rw [if_pos hcount, hcount, Nat.add_zero]
    · have hrun : 0 < min count (ram.bytes.size - offset) := by omega
      rw [if_neg hcount]
      refine (ih _ (by omega) 0 ram.size_pos _).trans ?_
      rw [ByteArray.size_append, ByteArray.size_extract]
      omega

theorem size_copy (ram : Ram) (address : UInt32) (count : Nat) :
    (ram.copy address count).size = count := by
  rw [copy, size_copyFrom, ByteArray.size_empty, Nat.zero_add]

end Ram

namespace Combiner.Flags

def Known (flags : Flags) : Prop := flags.bits &&& ~~~known = 0

private theorem Known.addIf {flags : Flags} {mask : UInt32} (h : flags.Known)
    (hmask : mask &&& ~~~known = 0) (condition : Bool) : (flags.addIf mask condition).Known := by
  unfold Flags.addIf
  split
  · apply UInt32.eq_of_toBitVec_eq
    have h' := congrArg UInt32.toBitVec h
    have hmask' := congrArg UInt32.toBitVec hmask
    simp only [UInt32.toBitVec_and, UInt32.toBitVec_or] at h' hmask' ⊢
    rw [BitVec.and_or_distrib_right, h', hmask']
    rfl
  · exact h

private theorem Known.foldl_addIf {masks : List (UInt32 × Bool)} {flags : Flags} (h : flags.Known)
    (hmasks : ∀ m ∈ masks, m.1 &&& ~~~known = 0) :
    (masks.foldl (fun flags m => flags.addIf m.1 m.2) flags).Known := by
  induction masks generalizing flags with
  | nil => exact h
  | cons m masks ih =>
    obtain ⟨hfirst, hrest⟩ := List.forall_mem_cons.mp hmasks
    exact ih (h.addIf hfirst m.2) hrest

private theorem known_none : none.Known := rfl

end Combiner.Flags

private theorem RenderRegisters.known_combinerFlags (r : RenderRegisters) (textured : Bool) :
    (r.combinerFlags textured).Known := by
  apply Combiner.Flags.known_none.foldl_addIf
  simp only [List.forall_mem_cons]
  exact ⟨rfl, rfl, rfl, rfl, rfl, rfl, rfl, fun _ hnone => absurd hnone List.not_mem_nil⟩

namespace Scene

variable (scene : Scene)

theorem known_combinerFor (key : BatchKey) : (scene.combinerFor key).2.Known := by
  unfold combinerFor
  split
  · exact Combiner.Flags.known_none
  · exact scene.registers.render.known_combinerFlags key.textured

theorem length_gatherRows (ram : Ram) (address : UInt32) (stride rowBytes rows : Nat) :
    (gatherRows ram address stride rowBytes rows).length = rows * rowBytes := by
  rw [gatherRows, Command.length_flatMap_of_forall _ rowBytes, List.length_range]
  intro row
  rw [Array.length_toList]
  exact ram.size_copy _ _

theorem fittingRows?_le {tile : Tile} {rowBytes rows : Nat}
    (h : fittingRows? tile rowBytes = some rows) : rows * rowBytes ≤ Command.maxTexelBytes := by
  unfold fittingRows? at h
  split at h
  · cases h
  · cases h
    calc
      min tile.height (Command.maxTexelBytes / rowBytes) * rowBytes
        ≤ Command.maxTexelBytes / rowBytes * rowBytes :=
          Nat.mul_le_mul_right _ (Nat.min_le_right _ _)
      _ ≤ Command.maxTexelBytes := Nat.div_mul_le_self _ _

private theorem size_paletteOf {tile : Tile} {format : TexelFormat} {palette : Palette}
    (h : scene.paletteOf tile format = some palette) :
    palette.entries.size ≤ Command.maxPaletteEntries := by
  unfold paletteOf at h
  dsimp only at h
  split at h
  · cases h
    rw [Array.size_extract, Vector.size_toArray, Command.maxPaletteEntries]
    omega
  · cases h
    rw [Vector.size_toArray]
    rfl
  · cases h

private theorem gather?_fits {tile : Tile} {format : TexelFormat} {load : TextureMemoryLoad}
    {source : TextureSource} (h : scene.gather? tile format load = some source) :
    source.bytes.length ≤ Command.maxTexelBytes ∧
      ∀ palette, source.palette = some palette →
        palette.entries.size ≤ Command.maxPaletteEntries := by
  obtain ⟨rows, hrows, h⟩ := Option.bind_eq_some_iff.mp h
  cases h
  constructor
  · rw [length_gatherRows]
    exact fittingRows?_le hrows
  · exact fun palette hpalette => scene.size_paletteOf hpalette

private theorem wellFormed_loadTexture {load : TextureLoad} (hunit : load.unit ≤ 1)
    (hbytes : load.source.bytes.length ≤ Command.maxTexelBytes)
    (hpalette : ∀ palette, load.source.palette = some palette →
      palette.entries.size ≤ Command.maxPaletteEntries) :
    (Command.loadTexture load).WellFormed := by
  have hentries : ((load.source.palette.map (·.entries.size)).getD 0) ≤
      Command.maxPaletteEntries := by
    cases h : load.source.palette with
    | none => exact Nat.zero_le _
    | some palette => exact hpalette palette h
  refine ⟨⟨hunit, ?_, hbytes⟩, ?_⟩
  · cases h : load.source.palette with
    | none => simp [Command.entriesOf, h]
    | some palette => simpa [Command.entriesOf, h] using hpalette palette h
  · rw [Command.payloadLength, Command.textureHeaderBytes, Command.maxPayload]
    rw [Command.maxTexelBytes] at hbytes
    rw [Command.maxPaletteEntries] at hentries
    omega

theorem wellFormed_textureCommand? {unit : UInt8} {tile : TileIndex} {command : Command}
    (hunit : unit ≤ 1) (h : scene.textureCommand? unit tile = some command) :
    command.WellFormed := by
  obtain ⟨format, _, h⟩ := Option.bind_eq_some_iff.mp h
  obtain ⟨load, _, h⟩ := Option.bind_eq_some_iff.mp h
  split at h
  · cases h
    refine ⟨⟨hunit, ?_⟩, Nat.le_of_ble_eq_true rfl⟩
    simp only [captureOf]
    split
    · exact Or.inl rfl
    · exact Or.inr rfl
  · obtain ⟨source, hsource, h⟩ := Option.bind_eq_some_iff.mp h
    cases h
    obtain ⟨hbytes, hpalette⟩ := scene.gather?_fits hsource
    exact wellFormed_loadTexture hunit hbytes hpalette

end Scene

namespace Command

private theorem wellFormed_of_draws {command : Command} (hdraws : command.kind = .drawTriangles ∨
    command.kind = .drawRects ∨ command.kind = .fillRects) (h : command.WithinLimits) :
    command.WellFormed := by
  cases command with
  | drawTriangles vertices =>
    obtain ⟨-, hthree, hfew⟩ := h
    refine ⟨Nat.mod_eq_zero_of_dvd hthree, ?_⟩
    rw [payloadLength, vertexBytes, maxPayload]
    omega
  | drawRects rects =>
    obtain ⟨-, hfew⟩ := h
    refine ⟨trivial, ?_⟩
    rw [payloadLength, rectBytes, maxPayload]
    omega
  | fillRects fills =>
    obtain ⟨-, hfew⟩ := h
    refine ⟨trivial, ?_⟩
    rw [payloadLength, fillBytes, maxPayload]
    omega
  | _ => rcases hdraws with h | h | h <;> cases h

theorem wellFormed_setCombine {flags : Combiner.Flags} (h : flags.Known) (mux : UInt64) :
    (setCombine mux flags).WellFormed := ⟨h, Nat.le_of_ble_eq_true rfl⟩

theorem wellFormed_setOtherModes (high low : UInt32) : (setOtherModes high low).WellFormed :=
  ⟨trivial, Nat.le_of_ble_eq_true rfl⟩

theorem wellFormed_setColors (colors : Combiner.ConstantColors) :
    (setColors colors).WellFormed := ⟨trivial, Nat.le_of_ble_eq_true rfl⟩

theorem wellFormed_invalidateRange (address length : UInt32) :
    (invalidateRange address length).WellFormed := ⟨trivial, Nat.le_of_ble_eq_true rfl⟩

theorem wellFormed_endFrame : endFrame.WellFormed := ⟨trivial, Nat.le_of_ble_eq_true rfl⟩

theorem WellFormed.length_le {command : Command} (h : command.WellFormed) :
    command.encode.length ≤ maxBytes := by
  rw [length_encode, encodedLength, maxBytes]
  exact Nat.add_le_add_left h.size _

end Command

theorem Batch.Sound.wellFormed {b : Batch} (h : b.Sound) {command : Command}
    (hcommand : b.command? = some command) : command.WellFormed := by
  refine Command.wellFormed_of_draws ?_ (h.command hcommand).2
  rcases command?_cases hcommand with ⟨rfl, _⟩ | ⟨rfl, _⟩ | ⟨rfl, _⟩
  · exact Or.inl rfl
  · exact Or.inr (Or.inl rfl)
  · exact Or.inr (Or.inr rfl)

end DisplayPipeline
