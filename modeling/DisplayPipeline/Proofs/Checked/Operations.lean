import DisplayPipeline.Proofs.WordBytes

/-!
# Operations that can go wrong

Arithmetic of machine numbers is partial: a place can be out of range, a divisor zero, a difference
negative, a shift as wide as the word, a sum or product wider than it. Here each operation tells the
fault, or gives the number that it stands for. Arithmetic that wraps around is not among them, nor are
divisions and shifts by a written-down number. A read of memory needs no check: `Ram.byte` is given a
proof that its place is in range.
-/

namespace DisplayPipeline

/-- What goes wrong in an operation. -/
inductive Fault where
  | outOfRange (size index : Nat)
  | badSlice (size first stop : Nat)
  | dividedByZero (dividend : Nat)
  | underflow (left right : Nat)
  | shiftTooFar (width amount : Nat)
  | overflow (width value : Nat)
deriving DecidableEq, Repr

/-- A computation of partial operations. -/
abbrev Checked (α : Type) : Type := Except Fault α

namespace Checked

@[simp] theorem ok_bind {α β : Type} (a : α) (f : α → Checked β) :
    (Except.ok a : Checked α) >>= f = f a := rfl

@[simp] theorem pure_eq_ok {α : Type} (a : α) : (pure a : Checked α) = .ok a := rfl

/-- A number that a word of some width is to hold. -/
def held (width value : Nat) : Checked Nat :=
  if value < 2 ^ width then .ok value else .error (.overflow width value)

def sum (width left right : Nat) : Checked Nat := held width (left + right)

def product (width left right : Nat) : Checked Nat := held width (left * right)

def difference (left right : Nat) : Checked Nat :=
  if right ≤ left then .ok (left - right) else .error (.underflow left right)

def quotient (dividend divisor : Nat) : Checked Nat :=
  if divisor = 0 then .error (.dividedByZero dividend) else .ok (dividend / divisor)

def remainder (dividend divisor : Nat) : Checked Nat :=
  if divisor = 0 then .error (.dividedByZero dividend) else .ok (dividend % divisor)

/-- A word moved up. Bits that leave the word are lost, which is no fault. -/
def shiftLeft (width value amount : Nat) : Checked Nat :=
  if amount < width then .ok ((value <<< amount) % 2 ^ width)
  else .error (.shiftTooFar width amount)

def shiftRight (width value amount : Nat) : Checked Nat :=
  if amount < width then .ok (value >>> amount) else .error (.shiftTooFar width amount)

def place (size index : Nat) : Checked (Fin size) :=
  if h : index < size then .ok ⟨index, h⟩ else .error (.outOfRange size index)

def slice (size first stop : Nat) : Checked Unit :=
  if first ≤ stop ∧ stop ≤ size then .ok () else .error (.badSlice size first stop)

section Lemmas

variable {width left right value amount size first stop : Nat}

theorem sum_eq (h : left + right < 2 ^ width) : sum width left right = .ok (left + right) :=
  if_pos h

example : sum 32 4294967295 1 = .error (.overflow 32 4294967296) := rfl

theorem product_eq (h : left * right < 2 ^ width) : product width left right = .ok (left * right) :=
  if_pos h

theorem difference_eq (h : right ≤ left) : difference left right = .ok (left - right) := if_pos h

theorem quotient_eq (h : 0 < right) : quotient left right = .ok (left / right) :=
  if_neg (Nat.ne_of_gt h)

theorem remainder_eq (h : 0 < right) : remainder left right = .ok (left % right) :=
  if_neg (Nat.ne_of_gt h)

theorem shiftLeft_eq (h : amount < width) (hvalue : value <<< amount < 2 ^ width) :
    shiftLeft width value amount = .ok (value <<< amount) := by
  rw [shiftLeft, if_pos h, Nat.mod_eq_of_lt hvalue]

private theorem shiftRight_eq (h : amount < width) : shiftRight width value amount = .ok
    (value >>> amount) :=
  if_pos h

theorem place_eq (h : value < size) : place size value = .ok ⟨value, h⟩ := dif_pos h

theorem slice_eq (h : first ≤ stop) (hstop : stop ≤ size) : slice size first stop = .ok () :=
  if_pos ⟨h, hstop⟩

theorem shiftLeft_one (h : amount < width) : shiftLeft width 1 amount = .ok (2 ^ amount) := by
  have hpow : 2 ^ amount < 2 ^ width := Nat.pow_lt_pow_right (by decide) h
  rw [shiftLeft_eq h (by rw [Nat.one_shiftLeft]; exact hpow), Nat.one_shiftLeft]

end Lemmas

def fieldNat (word shift bits : UInt32) : Checked Nat := do
  let shifted ← shiftRight 32 word.toNat shift.toNat
  let power ← shiftLeft 32 1 bits.toNat
  let mask ← difference power 1
  return shifted &&& mask

theorem fieldNat_eq {word shift bits : UInt32} (hshift : shift.toNat < 32)
    (hbits : bits.toNat < 32) :
    fieldNat word shift bits = .ok (Word.fieldNat word shift bits) := by
  rw [fieldNat, shiftRight_eq hshift, ok_bind, shiftLeft_one hbits, ok_bind,
    difference_eq (Nat.two_pow_pos _), ok_bind, Nat.and_two_pow_sub_one_eq_mod,
    Nat.shiftRight_eq_div_pow, Word.fieldNat_eq word hshift hbits]
  rfl

def field (word shift bits : UInt32) : Checked UInt32 := do
  return UInt32.ofNat (← fieldNat word shift bits)

theorem field_eq {word shift bits : UInt32} (hshift : shift.toNat < 32) (hbits : bits.toNat < 32) :
    field word shift bits = .ok (Word.field word shift bits) := by
  rw [field, fieldNat_eq hshift hbits, ok_bind, Word.fieldNat, UInt32.ofNat_toNat]
  rfl

theorem foldlM_eq {α β : Type} {step : β → α → Checked β} {f : β → α → β} {xs : List α}
    (h : ∀ b, ∀ x ∈ xs, step b x = .ok (f b x)) (b : β) :
    xs.foldlM step b = .ok (xs.foldl f b) := by
  induction xs generalizing b with
  | nil => rfl
  | cons x xs ih =>
    rw [List.foldlM_cons, h b x List.mem_cons_self, ok_bind, List.foldl_cons]
    exact ih (fun b y hy => h b y (List.mem_cons_of_mem x hy)) (f b x)

theorem mapM_eq {α β : Type} {step : α → Checked β} {f : α → β} {xs : List α}
    (h : ∀ x ∈ xs, step x = .ok (f x)) : xs.mapM step = .ok (xs.map f) := by
  induction xs with
  | nil => rfl
  | cons x xs ih =>
    rw [List.mapM_cons, h x List.mem_cons_self, ok_bind,
      ih fun y hy => h y (List.mem_cons_of_mem x hy), ok_bind]
    rfl

end Checked

end DisplayPipeline
