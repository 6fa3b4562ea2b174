import DisplayPipeline.Proofs.Ring.Later
import Mathlib.Algebra.Order.Floor.Div
import Mathlib.Order.Bounds.Defs

/-!
# Rounding to whole units

Rounding up gives the least multiple of a unit from a number on, as long as there is one below the limit
of words, and the greatest multiple below the limit otherwise. The sum that is formed on the way may
reach the limit where the multiple does not; the greatest multiple is the right one then too. So a pool
of whole units takes exactly the requests that are no larger than it.
-/

namespace DisplayPipeline.Pool

def wordMultiples (unit : Nat) : Set Nat := {m | unit ∣ m ∧ m < wordLimit}

variable {unit value : Nat}

private theorem isGreatest_wordMultiples (hunit : 0 < unit) :
    IsGreatest (wordMultiples unit) ((wordLimit - 1) / unit * unit) := by
  have hlimit : 0 < wordLimit := by decide
  refine ⟨⟨Nat.dvd_mul_left _ _, ?_⟩, ?_⟩
  · have hle := Nat.div_mul_le_self (wordLimit - 1) unit
    omega
  · rintro m ⟨⟨k, rfl⟩, hm⟩
    rw [Nat.mul_comm]
    exact Nat.mul_le_mul_right unit ((Nat.le_div_iff_mul_le hunit).mpr (by rw [Nat.mul_comm]; omega))

private theorem add_le_of_dvd {m n : Nat} (hm : unit ∣ m) (hn : unit ∣ n) (h : m < n) :
    m + unit ≤ n := by
  have hle := Nat.le_of_dvd (Nat.sub_pos_of_lt h) (Nat.dvd_sub hn hm)
  omega

private theorem isLeast_multiples (hunit : 0 < unit) (value : Nat) :
    IsLeast {m | unit ∣ m ∧ value ≤ m} ((value + (unit - 1)) / unit * unit) := by
  have hceil : (value + (unit - 1)) / unit = value ⌈/⌉ unit := by
    rw [Nat.ceilDiv_eq_add_pred_div, Nat.add_sub_assoc hunit]
  rw [hceil]
  refine ⟨⟨Nat.dvd_mul_left _ _, ?_⟩, ?_⟩
  · rw [Nat.mul_comm]
    exact (ceilDiv_le_iff_le_mul hunit).mp (Nat.le_refl _)
  · rintro m ⟨⟨k, rfl⟩, hm⟩
    rw [Nat.mul_comm unit]
    exact Nat.mul_le_mul_right unit ((ceilDiv_le_iff_le_mul hunit).mpr hm)

private theorem isLeast_alignUp (hunit : 0 < unit) (hfits : ∃ m ∈ wordMultiples unit, value ≤ m) :
    IsLeast {m | m ∈ wordMultiples unit ∧ value ≤ m} (alignUp value unit) := by
  by_cases hreach : value + (unit - 1) < wordLimit
  · obtain ⟨⟨hdvd, hle⟩, hleast⟩ := isLeast_multiples hunit value
    have hround := Nat.div_mul_le_self (value + (unit - 1)) unit
    rw [alignUp, if_pos hreach]
    exact ⟨⟨⟨hdvd, by omega⟩, hle⟩, fun m hm => hleast ⟨hm.1.1, hm.2⟩⟩
  · -- A smaller multiple would leave room for the unit that the sum adds.
    have hgreatest := isGreatest_wordMultiples hunit
    obtain ⟨m, hm, hvalue⟩ := hfits
    rw [alignUp, if_neg hreach]
    refine ⟨⟨hgreatest.1, hvalue.trans (hgreatest.2 hm)⟩, fun n hn => ?_⟩
    by_contra hless
    have hapart := add_le_of_dvd hn.1.1 hgreatest.1.1 (Nat.lt_of_not_le hless)
    have hlimit := hgreatest.1.2
    have hfrom := hn.2
    omega

private theorem isGreatest_alignUp (hunit : 0 < unit)
    (hnone : ∀ m ∈ wordMultiples unit, m < value) :
    IsGreatest (wordMultiples unit) (alignUp value unit) := by
  by_cases hreach : value + (unit - 1) < wordLimit
  · obtain ⟨⟨hdvd, hle⟩, -⟩ := isLeast_multiples hunit value
    have hround := Nat.div_mul_le_self (value + (unit - 1)) unit
    exact absurd (hnone _ ⟨hdvd, by omega⟩) (Nat.not_lt.mpr hle)
  · rw [alignUp, if_neg hreach]
    exact isGreatest_wordMultiples hunit

private theorem wordMultiples_cases (unit value : Nat) :
    (∃ m ∈ wordMultiples unit, value ≤ m) ∨ ∀ m ∈ wordMultiples unit, m < value := by
  by_cases h : ∃ m ∈ wordMultiples unit, value ≤ m
  · exact Or.inl h
  · exact Or.inr fun m hm => Nat.lt_of_not_le fun hle => h ⟨m, hm, hle⟩

private theorem alignUp_mem (hunit : 0 < unit) (value : Nat) :
    alignUp value unit ∈ wordMultiples unit := by
  obtain hfits | hnone := wordMultiples_cases unit value
  · exact (isLeast_alignUp hunit hfits).1.1
  · exact (isGreatest_alignUp hunit hnone).1

private theorem alignUp_of_mem (hunit : 0 < unit) (h : value ∈ wordMultiples unit) :
    alignUp value unit = value := by
  have hleast := isLeast_alignUp hunit ⟨value, h, Nat.le_refl _⟩
  exact Nat.le_antisymm (hleast.2 ⟨h, Nat.le_refl _⟩) hleast.1.2

private theorem alignUp_monotone (hunit : 0 < unit) : Monotone fun value => alignUp value unit := by
  intro value larger hle
  obtain ⟨m, hm, hlarger⟩ | hnone := wordMultiples_cases unit larger
  · have hleast := isLeast_alignUp hunit ⟨m, hm, hlarger⟩
    exact (isLeast_alignUp hunit ⟨m, hm, hle.trans hlarger⟩).2 ⟨hleast.1.1, hle.trans hleast.1.2⟩
  · exact (isGreatest_alignUp hunit hnone).2 (alignUp_mem hunit value)

/-- A multiple that is not the last one is large enough for what is rounded up exactly if it is for what
is not. -/
theorem alignUp_le_iff (hunit : 0 < unit) {m : Nat} (hm : unit ∣ m) (hlast : m + unit < wordLimit) :
    alignUp value unit ≤ m ↔ value ≤ m := by
  constructor
  · intro hle
    obtain hfits | hnone := wordMultiples_cases unit value
    · exact (isLeast_alignUp hunit hfits).1.2.trans hle
    · have hbeyond : m + unit ≤ alignUp value unit :=
        (isGreatest_alignUp hunit hnone).2 ⟨Nat.dvd_add hm (Nat.dvd_refl _), hlast⟩
      omega
  · intro hle
    have hmem : m ∈ wordMultiples unit := ⟨hm, by omega⟩
    exact (isLeast_alignUp hunit ⟨m, hmem, hle⟩).2 ⟨hmem, hle⟩

private theorem checkRequest_ofCapacity {bytes patience : Nat}
    (hmemory : bytes + alignment < wordLimit) (calls : List PoolCall) (request : Nat) :
    ((ofCapacity bytes patience).serveAll calls).checkRequest request =
      if max request 1 ≤ roundedCapacity bytes then .ok (alignUp (max request 1) alignment)
      else .error (.tooLarge request (roundedCapacity bytes)) := by
  have hcapacity : ((ofCapacity bytes patience).serveAll calls).capacity = roundedCapacity bytes :=
    (serveAll_later _ calls).capacity
  have hround := Nat.div_mul_le_self bytes alignment
  have hfits : alignUp (max request 1) alignment ≤ roundedCapacity bytes ↔
      max request 1 ≤ roundedCapacity bytes :=
    alignUp_le_iff (by decide) (Nat.dvd_mul_left _ _) (by rw [roundedCapacity]; omega)
  rw [checkRequest, hcapacity]
  by_cases hle : max request 1 ≤ roundedCapacity bytes
  · rw [if_pos hle, if_neg (Nat.not_lt.mpr (hfits.mpr hle))]
  · rw [if_neg hle, if_pos (Nat.lt_of_not_le (mt hfits.mp hle))]

/-- Rounding up to a unit gives a multiple of it that a word holds: the least one from the number on, or
the greatest of all if there is none from the number on. It leaves multiples as they are, and larger
numbers are not rounded to smaller multiples. A pool, which is never so large that less than a unit is
left of the range of words, takes a request, of one byte at least, exactly if that is no larger than the
pool. -/
theorem alignUp_rounds {unit : Nat} (hunit : 0 < unit) :
    (∀ value,
      unit ∣ alignUp value unit ∧ alignUp value unit < wordLimit ∧
      ((∃ m, unit ∣ m ∧ m < wordLimit ∧ value ≤ m) →
        IsLeast {m | unit ∣ m ∧ m < wordLimit ∧ value ≤ m} (alignUp value unit)) ∧
      ((¬ ∃ m, unit ∣ m ∧ m < wordLimit ∧ value ≤ m) →
        IsGreatest {m | unit ∣ m ∧ m < wordLimit} (alignUp value unit)) ∧
      alignUp (alignUp value unit) unit = alignUp value unit ∧
      ∀ larger, value ≤ larger → alignUp value unit ≤ alignUp larger unit) ∧
    ∀ bytes patience, bytes + alignment < wordLimit → ∀ calls request,
      ((ofCapacity bytes patience).serveAll calls).checkRequest request =
        if max request 1 ≤ roundedCapacity bytes then .ok (alignUp (max request 1) alignment)
        else .error (.tooLarge request (roundedCapacity bytes)) := by
  refine ⟨fun value => ?_, fun bytes patience hmemory calls request =>
    checkRequest_ofCapacity hmemory calls request⟩
  have hmem := alignUp_mem hunit value
  refine ⟨hmem.1, hmem.2, ?_, ?_, alignUp_of_mem hunit hmem, fun larger hle =>
    alignUp_monotone hunit hle⟩
  · rintro ⟨m, hdvd, hlimit, hle⟩
    obtain ⟨⟨hrounded, hfrom⟩, hleast⟩ := isLeast_alignUp hunit ⟨m, ⟨hdvd, hlimit⟩, hle⟩
    exact ⟨⟨hrounded.1, hrounded.2, hfrom⟩, fun n hn => hleast ⟨⟨hn.1, hn.2.1⟩, hn.2.2⟩⟩
  · intro hnone
    exact isGreatest_alignUp hunit fun m hm =>
      Nat.lt_of_not_le fun hle => hnone ⟨m, hm.1, hm.2, hle⟩

/-- The limit leaves four over twelve, so the sum reaches it and the multiple does not. -/
theorem alignUp_rounds_nearLimit :
    0 < 12 ∧ alignUp (wordLimit - 6) 12 = wordLimit - 4 ∧ wordLimit ≤ wordLimit - 6 + (12 - 1) ∧
      IsLeast {m | 12 ∣ m ∧ m < wordLimit ∧ wordLimit - 6 ≤ m} (alignUp (wordLimit - 6) 12) ∧
      IsGreatest {m | 12 ∣ m ∧ m < wordLimit} (alignUp (wordLimit - 2) 12) ∧
      30 + alignment < wordLimit ∧
      ((ofCapacity 30 0).serveAll [.allocate 8]).checkRequest 28 = .ok 28 ∧
      ((ofCapacity 30 0).serveAll [.allocate 8]).checkRequest 29 = .error (.tooLarge 29 28) := by
  obtain ⟨hrounds, hrequests⟩ := alignUp_rounds (show 0 < 12 by decide)
  obtain ⟨-, -, hleast, -⟩ := hrounds (wordLimit - 6)
  obtain ⟨-, -, -, hgreatest, -⟩ := hrounds (wordLimit - 2)
  have hmemory : 30 + alignment < wordLimit := by decide
  refine ⟨by decide, by decide, by decide, hleast ⟨wordLimit - 4, by decide⟩, hgreatest ?_, hmemory,
    hrequests 30 0 hmemory _ 28, hrequests 30 0 hmemory _ 29⟩
  rintro ⟨m, hdvd, hlimit, hle⟩
  have hvalue : wordLimit = 18446744073709551616 := rfl
  omega

end DisplayPipeline.Pool
