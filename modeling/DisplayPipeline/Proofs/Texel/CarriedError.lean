import DisplayPipeline.Proofs.Texel.Exactness
import Mathlib.Data.Rat.Floor
import Mathlib.Tactic.Linarith
import Mathlib.Tactic.Ring

/-!
# How far diffused errors go

A pixel's own error is at most half a step of its channel, and half a unit for rounding to a byte. The
shares that a pixel is given are cut off toward zero and are sixteenths of four such errors, sixteen in
all, so that they never add up to more than one of them. This holds in every row, however many rows
there were before.
-/

namespace DisplayPipeline.Channel

variable {bits : Nat} {v : UInt8}

/-- How far a value can be from its nearest value in a channel. -/
def slack (bits : Nat) : Nat := (127 + top bits / 2) / top bits

/-- The largest error of a pixel, in sixteenths. -/
def spread (bits : Nat) : Nat := 16 * slack bits + 8

/-- A channel holds a value that is close to `v`. -/
structure Close (bits : Nat) (v : UInt8) (value : Nat) : Prop where
  le_top : value ≤ top bits
  near : ((v.toNat : Int) - (expand bits value).toNat).natAbs ≤ 2 * slack bits + 1

theorem Close.lt_two_pow {value : Nat} (h : Close bits v value) : value < 2 ^ bits := by
  have htop := h.le_top
  have hpow := Nat.two_pow_pos bits
  rw [top, Nat.one_shiftLeft] at htop
  omega

theorem Close.near_step {value : Nat} (hpos : 0 < bits) (h : Close bits v value) :
    |((expand bits value).toNat : Int) - v.toNat| ≤ ⌈(255 : ℚ) / (2 ^ bits - 1)⌉ + 1 := by
  have hodd := top_odd hpos
  have htop : ((top bits : Nat) : ℚ) = 2 ^ bits - 1 := by
    rw [top, Nat.one_shiftLeft, Nat.cast_sub Nat.one_le_two_pow]
    norm_num
  have hslack : slack bits * top bits ≤ 127 + top bits / 2 := Nat.div_mul_le_self _ _
  have hscaled : 2 * (slack bits * top bits) < 255 + top bits := by omega
  have hstep : (2 * slack bits : Int) ≤ ⌈(255 : ℚ) / (2 ^ bits - 1)⌉ := by
    rw [Int.le_ceil_iff, ← htop, lt_div_iff₀ (by exact_mod_cast top_pos hpos)]
    have hcast : (2 * (slack bits * top bits) : ℚ) < 255 + top bits := by exact_mod_cast hscaled
    push_cast
    linarith
  have hnear := h.near
  rw [abs_le]
  omega

private theorem narrow_le_top (bits : Nat) (v : UInt8) : narrow bits v ≤ top bits := by
  have hv : v.toNat * top bits ≤ 255 * top bits :=
    Nat.mul_le_mul_right _ (Nat.le_of_lt_succ v.toNat_lt)
  rw [narrow]
  omega

/-- Narrowing moves a value by less than half a step, and so does widening. -/
theorem natAbs_sub_expand_narrow (hpos : 0 < bits) (v : UInt8) :
    ((v.toNat : Int) - (expand bits (narrow bits v)).toNat).natAbs ≤ slack bits := by
  have htop := top_pos hpos
  have hodd := top_odd hpos
  have hnarrow := Nat.div_add_mod (v.toNat * top bits + 127) 255
  have hnarrowRest := Nat.mod_lt (v.toNat * top bits + 127) (show 0 < 255 by decide)
  rw [toNat_expand hpos (narrow_le_top bits v), slack, Nat.le_div_iff_mul_le htop, narrow]
  generalize (v.toNat * top bits + 127) / 255 = n at *
  have hexpand := Nat.div_add_mod (n * 255 + top bits / 2) (top bits)
  have hexpandRest := Nat.mod_lt (n * 255 + top bits / 2) htop
  generalize (n * 255 + top bits / 2) / top bits = e at *
  have hscaled : ((v.toNat : Int) - e).natAbs * top bits =
      (((v.toNat * top bits : Nat) : Int) - (top bits * e : Nat)).natAbs := by
    rw [← Int.natAbs_natCast (top bits), ← Int.natAbs_mul, Int.natAbs_natCast]
    congr 1
    push_cast
    ring
  rw [hscaled]
  omega

theorem close_narrow (hpos : 0 < bits) (v : UInt8) : Close bits v (narrow bits v) where
  le_top := narrow_le_top _ _
  near := by
    have hnear := natAbs_sub_expand_narrow hpos v
    omega

/-- Whatever was carried to a pixel, its own error is no larger than the spread. -/
theorem natAbs_error_le (hpos : 0 < bits) (v : UInt8) (carried : Int) :
    (diffuseOne bits v carried).error.natAbs ≤ spread bits := by
  rw [diffuseOne]
  dsimp only
  generalize hwant : max 0 (min 4080 ((v.toNat : Int) * 16 + carried)) = want
  have hbyte : (UInt8.ofNat ((want.toNat + 8) / 16)).toNat = (want.toNat + 8) / 16 := by
    rw [UInt8.toNat_ofNat', Nat.mod_eq_of_lt (by omega)]
  have hrounded := natAbs_sub_expand_narrow hpos (UInt8.ofNat ((want.toNat + 8) / 16))
  rw [hbyte] at hrounded
  rw [spread]
  omega

private theorem close_diffuseOne (hpos : 0 < bits) {carried : Int}
    (h : carried.natAbs ≤ spread bits) :
    Close bits v (diffuseOne bits v carried).value where
  le_top := narrow_le_top _ _
  near := by
    have herror := natAbs_error_le hpos v carried
    have hv := v.toNat_lt
    rw [diffuseOne] at herror ⊢
    dsimp only at herror ⊢
    rw [spread] at h herror
    omega

/-- At most some sixteenths of the spread. -/
def Portion (bits sixteenths : Nat) (n : Int) : Prop := 16 * n.natAbs ≤ sixteenths * spread bits

theorem portion_zero (bits sixteenths : Nat) : Portion bits sixteenths 0 := Nat.zero_le _

theorem Portion.mono {m n : Nat} {a : Int} (h : Portion bits m a) (hle : m ≤ n) :
    Portion bits n a :=
  Nat.le_trans h (Nat.mul_le_mul_right _ hle)

theorem Portion.add {m n : Nat} {a b : Int} (ha : Portion bits m a) (hb : Portion bits n b) :
    Portion bits (m + n) (a + b) := by
  have hsum := Int.natAbs_add_le a b
  rw [Portion, Nat.add_mul]
  exact Nat.le_trans (Nat.mul_le_mul_left 16 hsum) (by rw [Nat.mul_add]; exact Nat.add_le_add ha hb)

theorem Portion.le_spread {n : Nat} {a : Int} (h : Portion bits n a) (hn : n ≤ 16) :
    a.natAbs ≤ spread bits := by
  have hall : 16 * a.natAbs ≤ 16 * spread bits := h.mono hn
  omega

theorem portion_share {error : Int} (h : error.natAbs ≤ spread bits) (sixteenths : Nat) :
    Portion bits sixteenths (share error sixteenths) := by
  have hscaled : error.natAbs * sixteenths ≤ spread bits * sixteenths := Nat.mul_le_mul_right _ h
  rw [Portion, share, Int.natAbs_tdiv, Int.natAbs_mul, Int.natAbs_natCast, Nat.mul_comm sixteenths]
  exact Nat.le_trans (Nat.mul_div_le _ 16) hscaled

theorem natAbs_error_diffuseRow (hpos : 0 < bits) (right : Int) (cells : List (UInt8 × Int)) :
    ∀ d ∈ diffuseRow bits right cells, d.error.natAbs ≤ spread bits := by
  induction cells generalizing right with
  | nil => simp [diffuseRow]
  | cons cell cells ih =>
    rw [diffuseRow, List.forall_mem_cons]
    exact ⟨natAbs_error_le hpos _ _, ih _⟩

private theorem length_diffuseRow (bits : Nat) (right : Int) (cells : List (UInt8 × Int)) :
    (diffuseRow bits right cells).length = cells.length := by
  induction cells generalizing right with
  | nil => rfl
  | cons cell cells ih => rw [diffuseRow, List.length_cons, ih, List.length_cons]

private theorem diffuseRow_close (hpos : 0 < bits) {right : Int} {row : List UInt8}
    {above : List Int} (hright : Portion bits 7 right) (hlength : row.length = above.length)
    (habove : ∀ a ∈ above, Portion bits 9 a) :
    List.Forall₂ (Close bits) row ((diffuseRow bits right (row.zip above)).map (·.value)) := by
  induction row generalizing right above with
  | nil => exact List.Forall₂.nil
  | cons v row ih =>
    cases above with
    | nil => simp at hlength
    | cons a above =>
      obtain ⟨ha, habove⟩ := List.forall_mem_cons.mp habove
      have hcarried : (a + right).natAbs ≤ spread bits := (ha.add hright).le_spread (Nat.le_refl 16)
      have herror := natAbs_error_le hpos v (a + right)
      rw [List.zip_cons_cons, diffuseRow, List.map_cons]
      refine List.Forall₂.cons (close_diffuseOne hpos hcarried) ?_
      exact ih (portion_share herror 7) (by simpa using hlength) habove

private theorem length_handDown (left : Int) (errors : List Int) :
    (handDown left errors).length = errors.length := by
  induction errors generalizing left with
  | nil => rfl
  | cons e errors ih => rw [handDown, List.length_cons, ih, List.length_cons]

private theorem portion_handDown {left : Int} {errors : List Int}
    (hleft : left.natAbs ≤ spread bits) (herrors : ∀ e ∈ errors, e.natAbs ≤ spread bits) :
    ∀ a ∈ handDown left errors, Portion bits 9 a := by
  induction errors generalizing left with
  | nil => simp [handDown]
  | cons e errors ih =>
    obtain ⟨he, hrest⟩ := List.forall_mem_cons.mp herrors
    have hnext : (errors.headD 0).natAbs ≤ spread bits := by
      cases errors with
      | nil => exact Nat.zero_le _
      | cons next errors => exact hrest next List.mem_cons_self
    rw [handDown, List.forall_mem_cons]
    refine ⟨?_, ih he hrest⟩
    exact ((portion_share hleft 1).add (portion_share he 5)).add (portion_share hnext 3)

/-- The errors that a row hands down are bounded as those that it was given are. -/
theorem portion_handDown_diffuseRow (hpos : 0 < bits) (cells : List (UInt8 × Int)) :
    ∀ a ∈ handDown 0 ((diffuseRow bits 0 cells).map (·.error)), Portion bits 9 a := by
  refine portion_handDown (Nat.zero_le _) fun e he => ?_
  obtain ⟨d, hd, rfl⟩ := List.mem_map.mp he
  exact natAbs_error_diffuseRow hpos 0 cells d hd

theorem length_handDown_diffuseRow {row : List UInt8} {above : List Int}
    (h : row.length = above.length) :
    (handDown 0 ((diffuseRow bits 0 (row.zip above)).map (·.error))).length = above.length := by
  rw [length_handDown, List.length_map, length_diffuseRow, List.length_zip, h, Nat.min_self]

/-- Each value of an image is close to what it stands for, wherever it lies. -/
theorem diffuseRows_close (hpos : 0 < bits) {rows : List (List UInt8)} {above : List Int}
    (hlength : ∀ row ∈ rows, row.length = above.length) (habove : ∀ a ∈ above, Portion bits 9 a) :
    List.Forall₂ (List.Forall₂ (Close bits)) rows (diffuseRows bits above rows) := by
  induction rows generalizing above with
  | nil => exact List.Forall₂.nil
  | cons row rows ih =>
    obtain ⟨hrow, hrows⟩ := List.forall_mem_cons.mp hlength
    rw [diffuseRows]
    refine List.Forall₂.cons (diffuseRow_close hpos (portion_zero bits 7) hrow habove) (ih ?_ ?_)
    · intro other hother
      rw [length_handDown_diffuseRow hrow, hrows other hother]
    · exact portion_handDown_diffuseRow hpos _

end DisplayPipeline.Channel
