import DisplayPipeline.Proofs.Command.RoundTrip
import Mathlib.Data.List.Basic

namespace DisplayPipeline.Command

/-- What a reader makes of a byte. -/
inductive ByteUse where
  | verbatim
  | ignored
  /-- Zero is false and anything else is true. -/
  | truth
deriving DecidableEq, Repr

def ByteUse.Admits : ByteUse → UInt8 → UInt8 → Prop
  | verbatim, written, byte => byte = written
  | ignored, _, _ => True
  | truth, written, byte => byte = 0 ↔ written = 0

/-- What is made of the bytes of a payload, by their place. -/
def payloadUse (kind : CommandKind) (i : Nat) : ByteUse :=
  match kind with
  | .setColors => if i = 34 ∨ i = 35 then .ignored else .verbatim
  | .loadTexture => if i = 3 ∨ i = 18 ∨ i = 19 then .ignored else .verbatim
  | .captureColorBuffer => if i = 2 then .truth else if i = 3 then .ignored else .verbatim
  | _ => .verbatim

def byteUse (kind : CommandKind) (i : Nat) : ByteUse :=
  if i = 2 ∨ i = 3 then .ignored
  else if i < headerBytes then .verbatim
  else payloadUse kind (i - headerBytes)

/-- Bytes that are as long as what was written and admitted at each place. -/
structure AdmitsBytes (use : Nat → ByteUse) (written bytes : List UInt8) : Prop where
  length : bytes.length = written.length
  admits : ∀ i (hw : i < written.length) (hb : i < bytes.length), (use i).Admits written[i] bytes[i]

section AdmitsBytes

variable {use : Nat → ByteUse} {xs ys bytes : List UInt8}

theorem admitsBytes_append_iff (n : Nat) (hn : xs.length = n) :
    AdmitsBytes use (xs ++ ys) bytes ↔
      ∃ front back, bytes = front ++ back ∧ AdmitsBytes use xs front ∧
        AdmitsBytes (fun i => use (n + i)) ys back := by
  subst hn
  constructor
  · intro h
    have hlength := h.length
    rw [List.length_append] at hlength
    have hfront : (bytes.take xs.length).length = xs.length := List.length_take_of_le (by omega)
    refine ⟨bytes.take xs.length, bytes.drop xs.length, (List.take_append_drop _ _).symm,
      ⟨hfront, ?_⟩, ⟨by rw [List.length_drop]; omega, ?_⟩⟩
    · intro i hw hb
      have hi := h.admits i (by rw [List.length_append]; omega) (by omega)
      rw [List.getElem_append_left hw] at hi
      rw [List.getElem_take]
      exact hi
    · intro i hw hb
      have hi := h.admits (xs.length + i) (by rw [List.length_append]; omega) (by omega)
      rw [List.getElem_append_right (by omega)] at hi
      simp only [Nat.add_sub_cancel_left] at hi
      rw [List.getElem_drop]
      exact hi
  · rintro ⟨front, back, rfl, hfront, hback⟩
    refine ⟨by rw [List.length_append, List.length_append, hfront.length, hback.length], ?_⟩
    intro i hw hb
    have hsame := hfront.length
    rw [List.length_append] at hw
    by_cases hi : i < xs.length
    · rw [List.getElem_append_left hi, List.getElem_append_left (by omega)]
      exact hfront.admits i hi (by omega)
    · have hadmits := hback.admits (i - xs.length) (by omega) (by rw [hback.length]; omega)
      rw [Nat.add_sub_cancel' (by omega)] at hadmits
      rw [List.getElem_append_right (by omega), List.getElem_append_right (by omega)]
      simp only [hsame]
      exact hadmits

theorem admitsBytes_verbatim_iff (n : Nat) (hn : xs.length = n) (h : ∀ i < n, use i = .verbatim) :
    AdmitsBytes use xs bytes ↔ bytes = xs := by
  subst hn
  constructor
  · intro hadmits
    apply List.ext_getElem hadmits.length
    intro i hb hw
    have hi := hadmits.admits i hw hb
    rw [h i hw] at hi
    exact hi
  · rintro rfl
    refine ⟨rfl, fun i hw hb => ?_⟩
    rw [h i hw]
    rfl

theorem admitsBytes_of_eq (huse : ∀ i, use i = .verbatim) (h : bytes = xs) :
    AdmitsBytes use xs bytes :=
  (admitsBytes_verbatim_iff _ rfl fun i _ => huse i).mpr h

theorem AdmitsBytes.eq (huse : ∀ i, use i = .verbatim) (h : AdmitsBytes use xs bytes) :
    bytes = xs :=
  (admitsBytes_verbatim_iff _ rfl fun i _ => huse i).mp h

theorem admitsBytes_ignored_iff (n : Nat) (hn : xs.length = n) (h : ∀ i < n, use i = .ignored) :
    AdmitsBytes use xs bytes ↔ bytes.length = n := by
  subst hn
  constructor
  · exact AdmitsBytes.length
  · refine fun hlength => ⟨hlength, fun i hw hb => ?_⟩
    rw [h i hw]
    trivial

private theorem admitsBytes_truth_iff {x : UInt8} (h : use 0 = .truth) :
    AdmitsBytes use [x] bytes ↔ ∃ b, bytes = [b] ∧ (b = 0 ↔ x = 0) := by
  constructor
  · intro hadmits
    obtain ⟨b, rfl⟩ := List.length_eq_one_iff.mp hadmits.length
    have hb := hadmits.admits 0 (by simp) (by simp)
    rw [h] at hb
    exact ⟨b, rfl, hb⟩
  · rintro ⟨b, rfl, hb⟩
    refine ⟨rfl, fun i hw _ => ?_⟩
    obtain rfl : i = 0 := by simpa using hw
    rw [h]
    exact hb

end AdmitsBytes

section Reserved

theorem exists_le16 {bytes : List UInt8} (h : bytes.length = 2) :
    ∃ word, bytes = Word.le16 word := by
  obtain ⟨a, b, rfl⟩ := List.length_eq_two.mp h
  exact ⟨Word.join16 b a, (Word.le16_join16 b a).symm⟩

theorem admitsBytes_colors_iff (c : Combiner.ConstantColors) (bytes : List UInt8) :
    AdmitsBytes (payloadUse .setColors) (encodeColors c) bytes ↔
      ∃ reserve, bytes = spelledColors c reserve := by
  let front := [c.prim, c.env, c.fog, c.blend, c.fill, c.keyCenter, c.keyScale].flatMap Word.le32 ++
    Word.le16 c.k4 ++ Word.le16 c.k5 ++ [c.primLodFraction, c.primMinLevel]
  have hspelled (reserve : UInt16) : spelledColors c reserve = front ++ Word.le16 reserve := rfl
  simp only [encodeColors_eq, hspelled]
  rw [admitsBytes_append_iff 34 rfl]
  constructor
  · rintro ⟨_, _, rfl, hfront, hback⟩
    rw [admitsBytes_verbatim_iff 34 rfl (by decide)] at hfront
    obtain ⟨reserve, rfl⟩ := exists_le16 hback.length
    exact ⟨reserve, by rw [hfront]⟩
  · rintro ⟨reserve, rfl⟩
    exact ⟨front, _, rfl, (admitsBytes_verbatim_iff 34 rfl (by decide)).mpr rfl,
      (admitsBytes_ignored_iff 2 rfl (by decide)).mpr rfl⟩

theorem admitsBytes_capture_iff (c : ColorCapture) (bytes : List UInt8) :
    AdmitsBytes (payloadUse .captureColorBuffer) (encodeCapture c) bytes ↔
      ∃ truth reserve, bytes = spelledCapture c truth reserve ∧
        decide (truth ≠ 0) = c.read.synchronous := by
  let front := [c.unit, c.read.bitDepth]
  let back := Word.le32 c.address ++ [c.read.region.x0, c.read.region.y0, c.read.region.width,
    c.read.region.height].flatMap Word.le32
  let written : UInt8 := if c.read.synchronous then 1 else 0
  have hspelled (truth reserve : UInt8) :
      spelledCapture c truth reserve = front ++ ([truth] ++ ([reserve] ++ back)) := rfl
  have htruth (truth : UInt8) :
      (truth = 0 ↔ written = 0) ↔ decide (truth ≠ 0) = c.read.synchronous := by
    cases hsynchronous : c.read.synchronous <;> simp [written, hsynchronous]
  simp only [encodeCapture_eq, hspelled]
  rw [admitsBytes_append_iff 2 rfl]
  constructor
  · rintro ⟨_, _, rfl, hfront, hrest⟩
    obtain ⟨_, _, rfl, hmiddle, hrest⟩ := (admitsBytes_append_iff 1 rfl).mp hrest
    obtain ⟨_, _, rfl, hreserve, hback⟩ := (admitsBytes_append_iff 1 rfl).mp hrest
    rw [admitsBytes_verbatim_iff 2 rfl (by decide)] at hfront
    obtain ⟨truth, rfl, hvalue⟩ := (admitsBytes_truth_iff rfl).mp hmiddle
    obtain ⟨reserve, rfl⟩ := List.length_eq_one_iff.mp hreserve.length
    rw [admitsBytes_verbatim_iff 20 rfl (by decide)] at hback
    exact ⟨truth, reserve, by rw [hfront, hback], (htruth truth).mp hvalue⟩
  · rintro ⟨truth, reserve, rfl, hvalue⟩
    refine ⟨front, _, rfl, (admitsBytes_verbatim_iff 2 rfl (by decide)).mpr rfl, ?_⟩
    refine (admitsBytes_append_iff 1 rfl).mpr ⟨[truth], _, rfl, ?_, ?_⟩
    · exact (admitsBytes_truth_iff rfl).mpr ⟨truth, rfl, (htruth truth).mpr hvalue⟩
    · refine (admitsBytes_append_iff 1 rfl).mpr ⟨[reserve], back, rfl, ?_, ?_⟩
      · exact (admitsBytes_ignored_iff 1 rfl (by decide)).mpr rfl
      · exact (admitsBytes_verbatim_iff 20 rfl (by decide)).mpr rfl

theorem admitsBytes_texture_iff (load : TextureLoad) (bytes : List UInt8) :
    AdmitsBytes (payloadUse .loadTexture) (encodeTexture load) bytes ↔
      ∃ reserve reserve16, bytes = spelledTexture load reserve reserve16 := by
  let s := load.source
  let front := [load.unit, s.format.code,
    (s.palette.map (·.format.code)).getD TextureSource.noPalette]
  let middle := Word.le32 s.address ++ Word.le32 s.width ++ Word.le32 s.height ++
    Word.le16 (UInt16.ofNat (entriesOf load).length)
  let back := count s.bytes.length ++ Word.le32 s.sourceLength ++
    ((entriesOf load).flatMap Word.le16 ++ s.bytes)
  have hspelled (reserve : UInt8) (reserve16 : UInt16) : spelledTexture load reserve reserve16 =
      front ++ ([reserve] ++ (middle ++ (Word.le16 reserve16 ++ back))) := rfl
  have hlast (i : Nat) :
      payloadUse .loadTexture (3 + (1 + (14 + (2 + i)))) = .verbatim := by
    simp only [payloadUse]
    rw [if_neg (by omega)]
  simp only [encodeTexture_eq, hspelled]
  rw [admitsBytes_append_iff 3 rfl]
  constructor
  · rintro ⟨_, _, rfl, hfront, hrest⟩
    obtain ⟨_, _, rfl, hreserve, hrest⟩ := (admitsBytes_append_iff 1 rfl).mp hrest
    obtain ⟨_, _, rfl, hmiddle, hrest⟩ := (admitsBytes_append_iff 14 rfl).mp hrest
    obtain ⟨_, _, rfl, hreserve16, hback⟩ := (admitsBytes_append_iff 2 rfl).mp hrest
    rw [admitsBytes_verbatim_iff 3 rfl (by decide)] at hfront
    obtain ⟨reserve, rfl⟩ := List.length_eq_one_iff.mp hreserve.length
    rw [admitsBytes_verbatim_iff 14 rfl (by decide)] at hmiddle
    obtain ⟨reserve16, rfl⟩ := exists_le16 hreserve16.length
    rw [admitsBytes_verbatim_iff back.length rfl fun i _ => hlast i] at hback
    exact ⟨reserve, reserve16, by rw [hfront, hmiddle, hback]⟩
  · rintro ⟨reserve, reserve16, rfl⟩
    refine ⟨front, _, rfl, (admitsBytes_verbatim_iff 3 rfl (by decide)).mpr rfl, ?_⟩
    refine (admitsBytes_append_iff 1 rfl).mpr ⟨[reserve], _, rfl, ?_, ?_⟩
    · exact (admitsBytes_ignored_iff 1 rfl (by decide)).mpr rfl
    · refine (admitsBytes_append_iff 14 rfl).mpr ⟨middle, _, rfl, ?_, ?_⟩
      · exact (admitsBytes_verbatim_iff 14 rfl (by decide)).mpr rfl
      · refine (admitsBytes_append_iff 2 rfl).mpr ⟨Word.le16 reserve16, back, rfl, ?_, ?_⟩
        · exact (admitsBytes_ignored_iff 2 rfl (by decide)).mpr rfl
        · exact (admitsBytes_verbatim_iff back.length rfl fun i _ => hlast i).mpr rfl

end Reserved

end DisplayPipeline.Command
