import DisplayPipeline.Proofs.DisplayList.SampledTexels
import Mathlib.Data.List.DropRight

/-!
# Color images of a frame

The color images that display lists set since the frame began, told from the instructions that were
carried out. The registers remember the latest four of them under distinct addresses. A tile whose
texels were loaded from the rows of such an image samples the render target, at the pixel that the load
began in.
-/

namespace DisplayPipeline

/-- Of each address the image that was set last, in the order in which they were set. -/
def latestImages : List Image → List Image
  | [] => []
  | image :: later =>
    if later.any (·.address = image.address) then latestImages later
    else image :: latestImages later

section Latest

variable {set : List Image} {image : Image}

private theorem mem_of_mem_latestImages (h : image ∈ latestImages set) : image ∈ set := by
  induction set with
  | nil => exact h
  | cons first later ih =>
    rw [latestImages] at h
    split at h
    · exact List.mem_cons_of_mem _ (ih h)
    · rcases List.mem_cons.mp h with rfl | h
      · exact .head _
      · exact List.mem_cons_of_mem _ (ih h)

private theorem pairwise_latestImages (set : List Image) :
    (latestImages set).Pairwise fun a b => a.address ≠ b.address := by
  induction set with
  | nil => exact .nil
  | cons first later ih =>
    rw [latestImages]
    split
    · exact ih
    · rename_i hlast
      refine List.pairwise_cons.mpr ⟨fun other hother hsame => hlast ?_, ih⟩
      exact List.any_eq_true.mpr
        ⟨other, mem_of_mem_latestImages hother, decide_eq_true hsame.symm⟩

private theorem latestImages_concat (set : List Image) (image : Image) :
    latestImages (set ++ [image]) =
      (latestImages set).filter (fun other => other.address ≠ image.address) ++ [image] := by
  induction set with
  | nil => rfl
  | cons first later ih =>
    rw [List.cons_append, latestImages, latestImages, List.any_append, ih]
    by_cases hlater : later.any (·.address = first.address) = true
    · simp [hlater]
    · by_cases hsame : image.address = first.address
      · simp [hlater, hsame]
      · simp [hlater, hsame, Ne.symm hsame]

/-- Where at most one image is left out, one more of the first images is enough to choose from. -/
theorem take_filter_take {images : List Image}
    (h : images.Pairwise fun a b => a.address ≠ b.address) (address : UInt32) (n : Nat) :
    ((images.take (n + 1)).filter (·.address ≠ address)).take n =
      (images.filter (·.address ≠ address)).take n := by
  induction images generalizing n with
  | nil => simp
  | cons first rest ih =>
    obtain ⟨hfirst, hrest⟩ := List.pairwise_cons.mp h
    by_cases hsame : first.address = address
    · have hothers : rest.filter (·.address ≠ address) = rest :=
        List.filter_eq_self.mpr fun other hother =>
          decide_eq_true fun hother' => hfirst other hother (hsame.trans hother'.symm)
      have htaken : (rest.take n).filter (·.address ≠ address) = rest.take n :=
        List.filter_eq_self.mpr fun other hother =>
          decide_eq_true fun hother' =>
            hfirst other (List.mem_of_mem_take hother) (hsame.trans hother'.symm)
      rw [List.take_succ_cons, List.filter_cons_of_neg (by simpa using hsame),
        List.filter_cons_of_neg (by simpa using hsame), htaken, hothers, List.take_take,
        Nat.min_self]
    · rw [List.take_succ_cons, List.filter_cons_of_pos (by simpa using hsame),
        List.filter_cons_of_pos (by simpa using hsame)]
      cases n with
      | zero => rfl
      | succ n => rw [List.take_succ_cons, List.take_succ_cons, ih hrest]

end Latest

/-- Of the images that were set the latest four under distinct addresses are kept, the latest in
front. -/
def KeepsImages (set kept : List Image) : Prop := kept = (latestImages set).reverse.take 4

section Remembering

variable {set : List Image}

private theorem KeepsImages.oldestFirst {kept : List Image} (h : KeepsImages set kept) :
    kept.reverse = (latestImages set).rtake 4 := by
  rw [List.rtake_eq_reverse_take_reverse, h]

private theorem KeepsImages.setColorImage {r : RenderRegisters} (h : KeepsImages set r.recentImages)
    (image : Image) : KeepsImages (set ++ [image]) (r.setColorImage image).recentImages := by
  have hothers := take_filter_take (List.pairwise_reverse.mpr
    ((pairwise_latestImages set).imp Ne.symm)) image.address 3
  change image :: (r.recentImages.filter fun other => other.address ≠ image.address).take 3 = _
  rw [h, hothers, latestImages_concat, List.reverse_append, List.reverse_singleton,
    List.singleton_append, List.take_succ_cons, ← List.filter_reverse]

end Remembering

namespace Image

/-- An address lies in the rows of an image that a screen of the given height shows. -/
def Spans (image : Image) (height : Nat) (address : UInt32) : Prop :=
  image.address.toNat ≤ address.toNat ∧
    address.toNat < image.address.toNat + image.width * height * image.bytesPerPixel

private theorem covers_iff {image : Image} {height : Nat} {address : UInt32} :
    image.covers height address = true ↔ image.Spans height address := by
  rw [covers, Bool.and_eq_true, decide_eq_true_iff, decide_eq_true_iff]
  rfl

def pixelStart (image : Image) (column row : Nat) : Nat :=
  image.address.toNat + (row * image.width + column) * image.bytesPerPixel

end Image

/-- What a texture unit is given of the render target for a tile, from the pixel of an image that an
address lies in. -/
structure ColorCapture.Samples (capture : ColorCapture) (scene : Scene) (unit : UInt8) (tile : Tile)
    (image : Image) (address : UInt32) : Prop where
  slot : capture.unit = unit
  source : capture.address = address
  column : capture.read.region.x0.toNat < image.width
  row : capture.read.region.y0.toNat < scene.settings.screenHeight.toNat
  begins : image.pixelStart capture.read.region.x0.toNat capture.read.region.y0.toNat ≤ address.toNat
  ends : address.toNat <
    image.pixelStart capture.read.region.x0.toNat capture.read.region.y0.toNat + image.bytesPerPixel
  width : capture.read.region.width.toNat = tile.width
  height : capture.read.region.height.toNat = tile.height
  depth : capture.read.bitDepth = if image.size = 2 then 16 else 32
  synchronous : capture.read.synchronous = scene.settings.synchronousReads

namespace Scene

variable {scene : Scene} {tile : Tile} {image : Image} {address : UInt32}

private theorem captureOf_samples (htile : tile.Bounded)
    (h : image.Spans scene.settings.screenHeight.toNat address) (unit : UInt8) :
    (scene.captureOf unit tile image address).Samples scene unit tile image address := by
  obtain ⟨hstart, hend⟩ := h
  have hbytes := image.bytesPerPixel_pos
  have hoffset : (address - image.address).toNat = address.toNat - image.address.toNat :=
    UInt32.toNat_sub_of_le _ _ (UInt32.le_iff_toNat_le.mpr hstart)
  let pixel := (address - image.address).toNat / image.bytesPerPixel
  have hpixel : pixel < image.width * scene.settings.screenHeight.toNat := by
    refine Nat.div_lt_of_lt_mul ?_
    rw [Nat.mul_comm]
    omega
  have hwidth : 0 < image.width := Nat.pos_of_mul_pos_right (Nat.zero_lt_of_lt hpixel)
  have hsmall : pixel < UInt32.size :=
    (Nat.div_le_self _ _).trans_lt (address - image.address).toNat_lt
  have hcolumn : (UInt32.ofNat (pixel % image.width)).toNat = pixel % image.width :=
    Nat.mod_eq_of_lt ((Nat.mod_le _ _).trans_lt hsmall)
  have hrow : (UInt32.ofNat (pixel / image.width)).toNat = pixel / image.width :=
    Nat.mod_eq_of_lt ((Nat.div_le_self _ _).trans_lt hsmall)
  have hstarts : image.pixelStart (UInt32.ofNat (pixel % image.width)).toNat
      (UInt32.ofNat (pixel / image.width)).toNat =
      image.address.toNat + pixel * image.bytesPerPixel := by
    rw [Image.pixelStart, hcolumn, hrow, Nat.div_add_mod']
  have hbefore : pixel * image.bytesPerPixel ≤ (address - image.address).toNat :=
    Nat.div_mul_le_self _ _
  have hafter : (address - image.address).toNat <
      pixel * image.bytesPerPixel + image.bytesPerPixel := Nat.lt_div_mul_add hbytes
  constructor
  case slot | source | synchronous => rfl
  case column => exact hcolumn.trans_lt (Nat.mod_lt _ hwidth)
  case row => exact hrow.trans_lt (Nat.div_lt_of_lt_mul hpixel)
  case begins =>
    refine hstarts.trans_le ?_
    omega
  case ends =>
    refine lt_of_lt_of_eq ?_ (congrArg (· + image.bytesPerPixel) hstarts.symm)
    omega
  case width => exact toNat_ofNat_of_le (Tile.width_le htile)
  case height => exact toNat_ofNat_of_le (TileAxis.extent_le _ _ htile.bounds.bottom)
  case depth => simp [captureOf, Image.isSixteenBit]

/-- A tile whose load lies in a remembered image samples the one set last of those that it lies in. -/
theorem textureCommand?_of_spans (h : scene.registers.Bounded) {unit : UInt8} {index : TileIndex}
    {format : TexelFormat} {load : TextureMemoryLoad}
    (hformat : (scene.registers.texture.tiles.get index).format? = some format)
    (hload : scene.registers.texture.loadFor? (scene.registers.texture.tiles.get index) = some load)
    (hspans : ∃ image ∈ scene.registers.render.recentImages,
      image.Spans scene.settings.screenHeight.toNat load.address) :
    ∃ older image newer capture,
      scene.registers.render.recentImages.reverse = older ++ image :: newer ∧
      (∀ later ∈ newer, ¬ later.Spans scene.settings.screenHeight.toNat load.address) ∧
      scene.textureCommand? unit index = some (.captureColorBuffer capture) ∧
      image.Spans scene.settings.screenHeight.toNat load.address ∧
      capture.Samples scene unit (scene.registers.texture.tiles.get index) image load.address := by
  obtain ⟨image, himage⟩ : ∃ image, scene.colorImageAt? load.address = some image := by
    obtain ⟨spanned, hmem, hspanned⟩ := hspans
    exact Option.isSome_iff_exists.mp
      (List.find?_isSome.mpr ⟨spanned, hmem, Image.covers_iff.mpr hspanned⟩)
  obtain ⟨hcovers, newer, older, hrecent, hnewer⟩ := List.find?_eq_some_iff_append.mp himage
  have hspanned := Image.covers_iff.mp hcovers
  refine ⟨older.reverse, image, newer.reverse, _, ?_, fun later hlater hspanned => ?_, ?_, hspanned,
    captureOf_samples (h.texture.tiles index) hspanned unit⟩
  · rw [hrecent]
    simp
  · have hmissed := hnewer later (List.mem_reverse.mp hlater)
    rw [Image.covers_iff.mpr hspanned] at hmissed
    cases hmissed
  · rw [textureCommand?]
    simp [hformat, hload, himage]

end Scene

def Scene.colorImageSet? (scene : Scene) : Instruction → Option Image
  | .render (.colorImage image) => some (image.locate scene.registers.geometry.segments)
  | _ => none

def Contribution.colorImages : Contribution Image where
  of? := Scene.colorImageSet?
  leadsOn {scene instruction image} h after := by
    cases instruction with
    | render change => exact ⟨after, rfl⟩
    | _ => cases h

private theorem keptBy_keepsImages :
    Contribution.colorImages.KeptBy fun set r => KeepsImages set r.render.recentImages := by
  intro set scene instruction h
  have hsame : KeepsImages (set ++ []) scene.registers.render.recentImages := by
    rwa [List.append_nil]
  cases instruction with
  | render change =>
    cases change with
    | colorImage image => exact h.setColorImage _
    | modeBits word => cases word <;> exact hsame
    | _ => exact hsame
  | _ => exact hsame

/-- The images that a run of at most `budget` instructions sets. -/
def Machine.colorImagesFor {σ : Type} (o : Outlet σ) (ram : Ram) (settings : ListSettings)
    (budget : Nat) (m : Machine σ) : List Image :=
  m.contributions .colorImages o ram settings budget

namespace Hosting

variable {σ : Type} {o : Outlet σ} {set : List Image}

/-- No call was refused for good. -/
def Unrefused (h : Hosting σ) : Prop :=
  ∀ reply ∈ h.replies, ∀ cause, reply.fault? ≠ some (.refused cause)

/-- The images that were set since the frame began, as a call is served. -/
def colorImagesAfter (o : Outlet σ) (h : Hosting σ) (set : List Image) : HostCall → List Image
  | .endFrame => []
  | call => set ++ h.contributionsOf .colorImages o call

/-- The images that were set since the frame began, `set` being those from before the calls. -/
def colorImages (o : Outlet σ) (h : Hosting σ) (set : List Image) (calls : List HostCall) :
    List Image :=
  (h.turns o calls).foldl (fun set turn => turn.1.colorImagesAfter o set turn.2) set

private theorem keepsImages_serve {h : Hosting σ} (call : HostCall)
    (hkept : KeepsImages set h.processor.registers.render.recentImages)
    (hunrefused : (h.serve o call).Unrefused) :
    KeepsImages (h.colorImagesAfter o set call)
      (h.serve o call).processor.registers.render.recentImages := by
  cases call with
  | endFrame =>
    change KeepsImages [] (h.processor.endFrame o h.sink).1.registers.render.recentImages
    obtain hended | ⟨-, cause, hrefused⟩ := h.processor.registers_endFrame o h.sink
    · rw [hended]
      rfl
    · refine absurd ?_ (hunrefused (.ended (h.processor.endFrame o h.sink).2.2)
        (List.mem_append_right _ (.head _)) cause)
      rw [hrefused]
      rfl
  | _ => exact contributionsOf_kept keptBy_keepsImages nofun hkept

private theorem Unrefused.earlier {h : Hosting σ} {call : HostCall}
    (hh : (h.serve o call).Unrefused) :
    h.Unrefused := by
  intro reply hreply
  apply hh reply
  cases call <;> exact List.mem_append_left _ hreply

/-- Unless a call was refused for good, the registers remember the latest images of the frame. -/
theorem keepsImages_serveAll (calls : List HostCall) {h : Hosting σ}
    (hkept : KeepsImages set h.processor.registers.render.recentImages)
    (hunrefused : (h.serveAll o calls).Unrefused) :
    KeepsImages (h.colorImages o set calls)
      (h.serveAll o calls).processor.registers.render.recentImages := by
  refine serveAll_accumulates (R := fun past h => h.Unrefused →
    KeepsImages (past.foldl (fun set turn => turn.1.colorImagesAfter o set turn.2) set)
      h.processor.registers.render.recentImages) ?_ calls (fun _ => hkept) hunrefused
  intro past h call hpast hserved
  rw [List.foldl_append]
  exact keepsImages_serve call (hpast hserved.earlier) hserved

/-- Whatever a host asked for, unless a call was refused for good, and at whatever instruction of a run,
the color images that are remembered are the latest of the frame under four distinct addresses at most,
the oldest in front. A tile whose load lies in one of them, as far as the screen shows it, samples the
render target by way of the one set last of these, from the pixel that the load begins in. -/
theorem serveAll_samplesColorImages (settings : ListSettings) (o : Outlet σ) (sink : σ)
    (calls : List HostCall) (hunrefused : ((start settings sink).serveAll o calls).Unrefused)
    (ram : Ram) (address : UInt32) (count : Nat) :
    let h := (start settings sink).serveAll o calls
    let first := h.processor.machine ram address h.sink
    let set := (start settings sink).colorImages o [] calls ++
      first.colorImagesFor o ram h.processor.settings count
    let m := (first.walkFor o ram h.processor.settings count).1
    let scene : Scene := ⟨ram, h.processor.settings, m.registers⟩
    let height := h.processor.settings.screenHeight.toNat
    let kept := m.registers.render.recentImages.reverse
    kept = (latestImages set).rtake 4 ∧
    ∀ (unit : UInt8) (index : TileIndex) (format : TexelFormat) (load : TextureMemoryLoad),
      let tile := m.registers.texture.tiles.get index
      tile.format? = some format → m.registers.texture.loadFor? tile = some load →
      (∃ image ∈ kept, image.Spans height load.address) →
      ∃ older image newer capture, kept = older ++ image :: newer ∧
        (∀ later ∈ newer, ¬ later.Spans height load.address) ∧
        scene.textureCommand? unit index = some (.captureColorBuffer capture) ∧
        image.Spans height load.address ∧ capture.Samples scene unit tile image load.address := by
  intro h first set m scene height kept
  have hbounded : h.processor.registers.Bounded :=
    Checked.bounded_serveAll o calls (Registers.bounded_initial settings)
  have hm : m.registers.Bounded :=
    Machine.walkFor_keepsRegisters Scene.bounded_advance_fetch count hbounded
  have hserved : KeepsImages ((start settings sink).colorImages o [] calls)
      h.processor.registers.render.recentImages := keepsImages_serveAll calls rfl hunrefused
  have hkept : KeepsImages set m.registers.render.recentImages :=
    Machine.contributions_kept (m := first) keptBy_keepsImages count hserved
  refine ⟨hkept.oldestFirst, fun unit index format load => ?_⟩
  intro tile hformat hload hspans
  obtain ⟨spanned, hmem, hspanned⟩ := hspans
  exact scene.textureCommand?_of_spans hm hformat hload
    ⟨spanned, List.mem_reverse.mp hmem, hspanned⟩

/-- A list that sets five images under distinct addresses, and the second one again with rows twice as
long. Then it loads texels from the second pixel of that image's third row on. -/
def fiveImagesRam : Ram where
  bytes := ⟨#[
    0xFF, 0x10, 0x00, 0x03, 0x00, 0x00, 0x10, 0x00, 0xFF, 0x10, 0x00, 0x03, 0x00, 0x00, 0x20, 0x00,
    0xFF, 0x10, 0x00, 0x03, 0x00, 0x00, 0x30, 0x00, 0xFF, 0x10, 0x00, 0x03, 0x00, 0x00, 0x40, 0x00,
    0xFF, 0x10, 0x00, 0x03, 0x00, 0x00, 0x50, 0x00, 0xFF, 0x10, 0x00, 0x07, 0x00, 0x00, 0x20, 0x00,
    0xFD, 0x10, 0x00, 0x07, 0x00, 0x00, 0x20, 0x00, 0xF5, 0x10, 0x02, 0x00, 0x00, 0x00, 0x00, 0x00,
    0xF4, 0x00, 0x40, 0x08, 0x00, 0x00, 0x80, 0x0C, 0xDF, 0x00, 0x00, 0x00, 0x00, 0x00, 0x00, 0x00,
    0x00, 0x00, 0x00, 0x00, 0x00, 0x00, 0x00, 0x00, 0x00, 0x00, 0x00, 0x00, 0x00, 0x00, 0x00, 0x00,
    0x00, 0x00, 0x00, 0x00, 0x00, 0x00, 0x00, 0x00, 0x00, 0x00, 0x00, 0x00, 0x00, 0x00, 0x00, 0x00,
    0x00, 0x00, 0x00, 0x00, 0x00, 0x00, 0x00, 0x00, 0x00, 0x00, 0x00, 0x00, 0x00, 0x00, 0x00, 0x00]⟩
  logSize := 3 + 4
  size_eq := by decide +kernel
  logSize_le := by decide

def fiveImages : Registers :=
  let h := (start {} ({} : Recording)).serveAll .recording []
  ((h.processor.machine fiveImagesRam 0 h.sink).walkFor .recording fiveImagesRam
    h.processor.settings 9).1.registers

theorem serveAll_samplesColorImages_returning :
    ((start {} ({} : Recording)).serveAll .recording []).Unrefused ∧
      fiveImages.render.recentImages.reverse =
        [⟨0x3000, 0, 2, 4⟩, ⟨0x4000, 0, 2, 4⟩, ⟨0x5000, 0, 2, 4⟩, ⟨0x2000, 0, 2, 8⟩] ∧
      ∃ image capture, image.Spans 240 0x2022 ∧
        (⟨fiveImagesRam, {}, fiveImages⟩ : Scene).textureCommand? 1 0 =
          some (.captureColorBuffer capture) ∧
        capture.Samples ⟨fiveImagesRam, {}, fiveImages⟩ 1 (fiveImages.texture.tiles.get 0) image
          0x2022 ∧
        capture.read.region = ⟨1, 2, 2, 2⟩ := by
  have hunrefused : ((start {} ({} : Recording)).serveAll .recording []).Unrefused :=
    List.forall_mem_nil _
  have hkept : fiveImages.render.recentImages.reverse =
      [⟨0x3000, 0, 2, 4⟩, ⟨0x4000, 0, 2, 4⟩, ⟨0x5000, 0, 2, 4⟩, ⟨0x2000, 0, 2, 8⟩] := by
    decide +kernel
  have hformat : (fiveImages.texture.tiles.get 0).format? = some .rgba5551 := by decide +kernel
  have hload : fiveImages.texture.loadFor? (fiveImages.texture.tiles.get 0) =
      some ⟨0, 0x2022, some 16⟩ := by decide +kernel
  have hall := serveAll_samplesColorImages {} .recording ({} : Recording) [] hunrefused
    fiveImagesRam 0 9
  dsimp only at hall
  rw [← fiveImages] at hall
  obtain ⟨-, hsamples⟩ := hall
  have hspans : ∃ image ∈ fiveImages.render.recentImages.reverse, image.Spans 240 0x2022 := by
    rw [hkept]
    exact ⟨⟨0x2000, 0, 2, 8⟩, by decide, by decide, by decide +kernel⟩
  obtain ⟨older, image, newer, capture, -, -, hcommand, hspanned, hsampled⟩ :=
    hsamples 1 0 .rgba5551 ⟨0, 0x2022, some 16⟩ hformat hload hspans
  refine ⟨hunrefused, hkept, image, capture, hspanned, hcommand, hsampled, ?_⟩
  have hregion : (⟨fiveImagesRam, {}, fiveImages⟩ : Scene).textureCommand? 1 0 =
      some (.captureColorBuffer ⟨1, 0x2022, ⟨⟨1, 2, 2, 2⟩, 16, true⟩⟩) := by decide +kernel
  cases hcommand.symm.trans hregion
  rfl

end Hosting

end DisplayPipeline
