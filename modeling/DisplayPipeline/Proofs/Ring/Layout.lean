import DisplayPipeline.Ring.Pool
import Mathlib.Algebra.Ring.Nat
import Mathlib.Data.List.Basic

namespace DisplayPipeline

/-- A part of the arena. -/
structure Extent where
  offset : Nat
  length : Nat

namespace Extent

def stop (x : Extent) : Nat := x.offset + x.length

/-- Parts that lie end to end from one offset to another. -/
def EndToEnd : Nat → List Extent → Nat → Prop
  | start, [], stop => start = stop
  | start, x :: xs, stop => x.offset = start ∧ EndToEnd x.stop xs stop

private theorem endToEnd_append (start stop : Nat) (xs ys : List Extent) :
    EndToEnd start (xs ++ ys) stop ↔
      ∃ turn, EndToEnd start xs turn ∧ EndToEnd turn ys stop := by
  induction xs generalizing start with
  | nil => simp [EndToEnd]
  | cons x xs ih => simp only [List.cons_append, EndToEnd, ih, and_assoc, exists_and_left]

theorem endToEnd_head {start stop : Nat} {x : Extent} {xs : List Extent}
    (h : EndToEnd start (x :: xs) stop) : x.offset = start :=
  h.1

private theorem endToEnd_sum {start stop : Nat} {xs : List Extent} (h : EndToEnd start xs stop) :
    stop = start + (xs.map (·.length)).sum := by
  induction xs generalizing start with
  | nil => simpa [EndToEnd] using h.symm
  | cons x xs ih =>
    have hrest := ih h.2
    have hx := h.1
    simp only [List.map_cons, List.sum_cons, Extent.stop] at hrest ⊢
    omega

theorem endToEnd_within {start stop : Nat} {xs : List Extent} (h : EndToEnd start xs stop) :
    ∀ x ∈ xs, start ≤ x.offset ∧ x.stop ≤ stop := by
  induction xs generalizing start with
  | nil => simp
  | cons x xs ih =>
    have hrest := endToEnd_sum h.2
    intro y hy
    rcases List.mem_cons.mp hy with rfl | hy
    · exact ⟨Nat.le_of_eq h.1.symm, hrest ▸ Nat.le_add_right _ _⟩
    · have hlow := (ih h.2 y hy).1
      have hx := h.1
      simp only [Extent.stop] at hlow
      exact ⟨by omega, (ih h.2 y hy).2⟩

theorem endToEnd_le {start stop : Nat} {xs : List Extent} (h : EndToEnd start xs stop) :
    start ≤ stop := by
  have := endToEnd_sum h
  omega

theorem endToEnd_pairwise {start stop : Nat} {xs : List Extent} (h : EndToEnd start xs stop) :
    xs.Pairwise fun x y => x.stop ≤ y.offset := by
  induction xs generalizing start with
  | nil => exact List.Pairwise.nil
  | cons x xs ih =>
    exact List.pairwise_cons.mpr ⟨fun y hy => (endToEnd_within h.2 y hy).1, ih h.2⟩

private theorem endToEnd_aligned {start stop : Nat} {xs : List Extent} (h : EndToEnd start xs stop)
    (hstart : Pool.alignment ∣ start) (hlen : ∀ x ∈ xs, Pool.alignment ∣ x.length) :
    Pool.alignment ∣ stop ∧ ∀ x ∈ xs, Pool.alignment ∣ x.offset := by
  induction xs generalizing start with
  | nil => exact ⟨(h : start = stop) ▸ hstart, by simp⟩
  | cons x xs ih =>
    have hx : Pool.alignment ∣ x.offset := h.1 ▸ hstart
    have hstop : Pool.alignment ∣ x.stop := Nat.dvd_add hx (hlen x (by simp))
    have hrest := ih h.2 hstop fun y hy => hlen y (by simp [hy])
    refine ⟨hrest.1, fun y hy => ?_⟩
    rcases List.mem_cons.mp hy with rfl | hy
    · exact hx
    · exact hrest.2 y hy

theorem endToEnd_lt {start stop : Nat} {xs : List Extent} (h : EndToEnd start xs stop)
    (hxs : xs ≠ []) (hlen : ∀ x ∈ xs, 0 < x.length) : start < stop := by
  cases xs with
  | nil => exact absurd rfl hxs
  | cons x xs =>
    have hx := h.1
    have hpos := hlen x (by simp)
    have hrest := endToEnd_le h.2
    simp only [Extent.stop] at hrest
    omega

end Extent

open Extent

/-- How parts of an arena lie: `start` and `stop` are where the first one starts and where the last
one stops, and `wrapped` tells whether there is a second run. -/
inductive Layout (capacity : Nat) : Nat → Nat → Bool → List Extent → Prop where
  | straight {start stop : Nat} {xs : List Extent} :
      EndToEnd start xs stop → stop ≤ capacity → (xs = [] → start = 0) →
      Layout capacity start stop false xs
  | wrapped {start turn stop : Nat} {older newer : List Extent} :
      older ≠ [] → newer ≠ [] → EndToEnd start older turn → turn ≤ capacity →
      EndToEnd 0 newer stop → stop ≤ start →
      Layout capacity start stop true (older ++ newer)

namespace Layout

variable {capacity start stop : Nat} {wrapped : Bool} {xs : List Extent}

theorem empty (capacity : Nat) : Layout capacity 0 0 false [] :=
  .straight rfl (Nat.zero_le _) fun _ => rfl

theorem within (h : Layout capacity start stop wrapped xs) : ∀ x ∈ xs, x.stop ≤ capacity := by
  cases h with
  | straight hrun hcap _ =>
    intro x hx
    exact Nat.le_trans (endToEnd_within hrun x hx).2 hcap
  | wrapped _ _ holder hcap hnewer hlow =>
    intro x hx
    have hturn := endToEnd_le holder
    rcases List.mem_append.mp hx with hx | hx
    · exact Nat.le_trans (endToEnd_within holder x hx).2 hcap
    · have := (endToEnd_within hnewer x hx).2
      omega

theorem apart (h : Layout capacity start stop wrapped xs) :
    xs.Pairwise fun x y => x.stop ≤ y.offset ∨ y.stop ≤ x.offset := by
  cases h with
  | straight hrun _ _ => exact (endToEnd_pairwise hrun).imp fun hxy => Or.inl hxy
  | wrapped _ _ holder _ hnewer hlow =>
    refine List.pairwise_append.mpr ⟨(endToEnd_pairwise holder).imp fun hxy => Or.inl hxy,
      (endToEnd_pairwise hnewer).imp fun hxy => Or.inl hxy, ?_⟩
    intro x hx y hy
    have hold := (endToEnd_within holder x hx).1
    have hnew := (endToEnd_within hnewer y hy).2
    exact Or.inr (by omega)

theorem sum_le (h : Layout capacity start stop wrapped xs) :
    (xs.map (·.length)).sum ≤ capacity := by
  cases h with
  | straight hrun hcap _ =>
    have := endToEnd_sum hrun
    omega
  | wrapped _ _ holder hcap hnewer hlow =>
    have hold := endToEnd_sum holder
    have hnew := endToEnd_sum hnewer
    rw [List.map_append, List.sum_append_nat]
    omega

theorem aligned (h : Layout capacity start stop wrapped xs) (hstart : Pool.alignment ∣ start)
    (hlen : ∀ x ∈ xs, Pool.alignment ∣ x.length) :
    Pool.alignment ∣ stop ∧ ∀ x ∈ xs, Pool.alignment ∣ x.offset := by
  cases h with
  | straight hrun _ _ => exact endToEnd_aligned hrun hstart hlen
  | wrapped _ _ holder _ hnewer _ =>
    have hold := endToEnd_aligned holder hstart fun x hx => hlen x (by simp [hx])
    have hnew := endToEnd_aligned hnewer (Nat.dvd_zero _) fun x hx => hlen x (by simp [hx])
    refine ⟨hnew.1, fun x hx => ?_⟩
    exact (List.mem_append.mp hx).elim (hold.2 x) (hnew.2 x)

theorem head_offset (h : Layout capacity start stop wrapped xs) {x : Extent}
    (hx : xs.head? = some x) : start = x.offset := by
  cases h with
  | straight hrun _ _ =>
    cases xs with
    | nil => simp at hx
    | cons y ys =>
      obtain rfl : y = x := by simpa using hx
      exact (endToEnd_head hrun).symm
  | @wrapped _ _ older newer hne _ holder _ _ _ =>
    cases older with
    | nil => exact absurd rfl hne
    | cons y ys =>
      obtain rfl : y = x := by simpa using hx
      exact (endToEnd_head holder).symm

theorem last_stop (h : Layout capacity start stop wrapped xs) {x : Extent}
    (hx : xs.getLast? = some x) : stop = x.stop := by
  have hrun {a b : Nat} {ys : List Extent} (hr : EndToEnd a (ys ++ [x]) b) : b = x.stop := by
    obtain ⟨_, _, hlast⟩ := (endToEnd_append a b ys [x]).mp hr
    exact hlast.2.symm
  obtain ⟨ys, rfl⟩ := List.getLast?_eq_some_iff.mp hx
  generalize hzs : ys ++ [x] = zs at h
  cases h with
  | straight hr _ _ => exact hrun (hzs ▸ hr)
  | @wrapped _ _ older newer _ hne _ _ hnewer _ =>
    have hlast : newer.getLast? = some x := by
      have hboth := congrArg List.getLast? hzs
      rw [List.getLast?_append_of_ne_nil _ hne] at hboth
      simpa using hboth.symm
    obtain ⟨zs, rfl⟩ := List.getLast?_eq_some_iff.mp hlast
    exact hrun hnewer

theorem single {length : Nat} (h : length ≤ capacity) :
    Layout capacity 0 (0 + length) false [⟨0, length⟩] :=
  .straight ⟨rfl, rfl⟩ (by omega) (by simp)

theorem push_straight {length : Nat} (h : Layout capacity start stop false xs) (hxs : xs ≠ [])
    (hfit : stop + length ≤ capacity) :
    Layout capacity start (stop + length) false (xs ++ [⟨stop, length⟩]) := by
  cases h with
  | straight hrun _ _ =>
    refine .straight ((endToEnd_append _ _ _ _).mpr ⟨stop, hrun, rfl, rfl⟩) hfit ?_
    simp [hxs]

theorem push_wrapped {length : Nat} (h : Layout capacity start stop true xs)
    (hfit : stop + length ≤ start) :
    Layout capacity start (stop + length) true (xs ++ [⟨stop, length⟩]) := by
  cases h with
  | wrapped hold hnew holder hcap hnewer _ =>
    rw [List.append_assoc]
    exact .wrapped hold (by simp) holder hcap
      ((endToEnd_append _ _ _ _).mpr ⟨stop, hnewer, rfl, rfl⟩) hfit

theorem push_restart {length : Nat} (h : Layout capacity start stop false xs) (hxs : xs ≠ [])
    (hfit : length ≤ start) :
    Layout capacity start (0 + length) true (xs ++ [⟨0, length⟩]) := by
  cases h with
  | straight hrun hcap _ =>
    exact .wrapped hxs (by simp) hrun hcap ⟨rfl, rfl⟩ (by omega)

/-- Leaving out the oldest parts ends the older run as soon as its last part is gone, which shows in
the next part lying before the old start. -/
theorem drop {x : Extent} {freed held : List Extent}
    (h : Layout capacity start stop wrapped (freed ++ x :: held))
    (hlen : ∀ y ∈ freed ++ x :: held, 0 < y.length) :
    Layout capacity x.offset stop (wrapped && start ≤ x.offset) (x :: held) := by
  generalize hxs : freed ++ x :: held = xs at h hlen
  cases h with
  | straight hrun hcap _ =>
    subst hxs
    obtain ⟨turn, _, hheld⟩ := (endToEnd_append _ _ _ _).mp hrun
    refine .straight ?_ hcap (by simp)
    exact ⟨rfl, hheld.2⟩
  | @wrapped _ _ older newer hold hnew holder hcap hnewer hlow =>
    rcases List.append_eq_append_iff.mp hxs with ⟨rest, rfl, hrest⟩ | ⟨rest, rfl, hrest⟩
    · cases rest with
      | nil =>
        -- Exactly the older run is left out.
        simp only [List.nil_append] at hrest
        subst hrest
        have hx := endToEnd_head hnewer
        have hpos := endToEnd_lt hnewer (by simp) fun y hy => hlen y (by simp [hy])
        have hstart : ¬ start ≤ x.offset := by omega
        simp only [hstart, decide_false, Bool.and_false]
        exact .straight ⟨rfl, hnewer.2⟩ (by have := endToEnd_le holder; omega) (by simp)
      | cons y ys =>
        -- A part of the older run is left.
        obtain ⟨rfl, rfl⟩ : x = y ∧ held = ys ++ newer := by simpa using hrest
        obtain ⟨_, hfreed, hheld⟩ := (endToEnd_append _ _ _ _).mp holder
        have hx := endToEnd_head hheld
        have hle := endToEnd_le hfreed
        have hstart : start ≤ x.offset := by omega
        simp only [hstart, decide_true, Bool.and_true]
        rw [← List.cons_append]
        exact .wrapped (by simp) hnew ⟨rfl, hheld.2⟩ hcap hnewer (by omega)
    · -- The older run and `rest` of the newer one are left out.
      rw [hrest] at hnewer
      obtain ⟨_, hfreed, hheld⟩ := (endToEnd_append _ _ _ _).mp hnewer
      have hx := (endToEnd_within hnewer x (by simp)).2
      have hpos := hlen x (by simp [hrest])
      simp only [Extent.stop] at hx
      have hstart : ¬ start ≤ x.offset := by omega
      simp only [hstart, decide_false, Bool.and_false]
      exact .straight ⟨rfl, hheld.2⟩ (by have := endToEnd_le holder; omega) (by simp)

end Layout

end DisplayPipeline
