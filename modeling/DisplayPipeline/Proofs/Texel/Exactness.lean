import DisplayPipeline.Texel.Diffusion
import Mathlib.Algebra.Ring.Nat
import Mathlib.Data.List.Basic
import Mathlib.Order.Basic

namespace DisplayPipeline.Channel

variable {bits v : Nat}

theorem top_pos (hbits : 0 < bits) : 0 < top bits := by
  have hpow : 2 ^ 1 ≤ 2 ^ bits := Nat.pow_le_pow_right (by decide) hbits
  rw [top, Nat.one_shiftLeft]
  omega

theorem top_odd (hpos : 0 < bits) : top bits % 2 = 1 := by
  obtain ⟨k, rfl⟩ := Nat.exists_eq_succ_of_ne_zero hpos.ne'
  have hpow : 0 < 2 ^ k := Nat.two_pow_pos k
  rw [top, Nat.one_shiftLeft, Nat.pow_succ]
  omega

private theorem top_le (hbits : bits ≤ 8) : top bits ≤ 255 := by
  have hpow : 2 ^ bits ≤ 2 ^ 8 := Nat.pow_le_pow_right (by decide) hbits
  rw [top, Nat.one_shiftLeft]
  omega

theorem toNat_expand (hbits : 0 < bits) (hv : v ≤ top bits) :
    (expand bits v).toNat = (v * 255 + top bits / 2) / top bits := by
  have hpos := top_pos hbits
  have hscaled : v * 255 ≤ top bits * 255 := Nat.mul_le_mul_right 255 hv
  have hlt : (v * 255 + top bits / 2) / top bits < 256 := by
    rw [Nat.div_lt_iff_lt_mul hpos]
    omega
  rw [expand, UInt8.toNat_ofNat', Nat.mod_eq_of_lt hlt]

/-- Rounding up and down again ends less than half a step away. -/
theorem narrow_expand (hpos : 0 < bits) (hbits : bits ≤ 8) (hv : v ≤ top bits) :
    narrow bits (expand bits v) = v := by
  have htop := top_pos hpos
  have hle := top_le hbits
  rw [narrow, toNat_expand hpos hv]
  have hdivided := Nat.div_add_mod (v * 255 + top bits / 2) (top bits)
  have hrest := Nat.mod_lt (v * 255 + top bits / 2) htop
  rw [Nat.mul_comm] at hdivided
  omega

theorem expand_eight (value : UInt8) : expand 8 value.toNat = value := by
  apply UInt8.toNat_inj.mp
  have hlt := value.toNat_lt
  rw [toNat_expand (by decide) (by rw [show top 8 = 255 from rfl]; omega),
    show top 8 = 255 from rfl]
  omega

private theorem diffuseOne_expand (hpos : 0 < bits) (hbits : bits ≤ 8) (hv : v ≤ top bits) :
    diffuseOne bits (expand bits v) 0 = ⟨v, 0⟩ := by
  have hlt := (expand bits v).toNat_lt
  have hwant : max 0 (min 4080 (((expand bits v).toNat : Int) * 16 + 0)) =
      ((expand bits v).toNat * 16 : Nat) := by omega
  have hbyte : UInt8.ofNat (((expand bits v).toNat * 16 + 8) / 16) = expand bits v := by
    rw [show ((expand bits v).toNat * 16 + 8) / 16 = (expand bits v).toNat by omega,
      UInt8.ofNat_toNat]
  simp only [diffuseOne, hwant, Int.toNat_natCast, hbyte, narrow_expand hpos hbits hv]
  congr 1
  omega

private theorem diffuseRow_expand (hpos : 0 < bits) (hbits : bits ≤ 8) (vs : List Nat)
    (hvs : ∀ v ∈ vs, v ≤ top bits) :
    diffuseRow bits 0 ((vs.map (expand bits)).zip (List.replicate vs.length 0)) =
      vs.map fun v => ⟨v, 0⟩ := by
  induction vs with
  | nil => rfl
  | cons v vs ih =>
    have hv := diffuseOne_expand hpos hbits (hvs v List.mem_cons_self)
    simp only [List.map_cons, List.length_cons, List.replicate_succ, List.zip_cons_cons,
      diffuseRow, Int.add_zero, hv]
    exact congrArg _ (ih fun w hw => hvs w (List.mem_cons_of_mem v hw))

private theorem handDown_zero (n : Nat) : handDown 0 (List.replicate n 0) = List.replicate n 0 := by
  induction n with
  | zero => rfl
  | succ n ih =>
    have hnext : (List.replicate n (0 : Int)).headD 0 = 0 := by cases n <;> rfl
    rw [List.replicate_succ, handDown, ih, hnext]
    rfl

theorem diffuseRows_expand (hpos : 0 < bits) (hbits : bits ≤ 8) {n : Nat} (rows : List (List Nat))
    (hlength : ∀ vs ∈ rows, vs.length = n) (hvs : ∀ vs ∈ rows, ∀ v ∈ vs, v ≤ top bits) :
    diffuseRows bits (List.replicate n 0) (rows.map fun vs => vs.map (expand bits)) = rows := by
  induction rows with
  | nil => rfl
  | cons vs rows ih =>
    obtain rfl := hlength vs List.mem_cons_self
    have hrow := diffuseRow_expand hpos hbits vs (hvs vs List.mem_cons_self)
    have herrors : (vs.map fun v => (⟨v, 0⟩ : Diffused)).map (·.error) =
        List.replicate vs.length 0 := by simp [Function.comp_def]
    have hvalues : (vs.map fun v => (⟨v, 0⟩ : Diffused)).map (·.value) = vs := by
      simp [Function.comp_def]
    rw [List.map_cons, diffuseRows]
    simp only [hrow, herrors, hvalues, handDown_zero]
    rw [ih (fun ws hws => hlength ws (List.mem_cons_of_mem vs hws))
      fun ws hws => hvs ws (List.mem_cons_of_mem vs hws)]

end DisplayPipeline.Channel
