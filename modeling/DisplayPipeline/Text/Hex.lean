namespace DisplayPipeline.Text.Hex

/-- The hexadecimal digit of a value below sixteen. -/
def digit (n : Nat) : Char := Char.ofNat (if n < 10 then 48 + n else 87 + n)

private def digitsFrom (n : Nat) : Nat → List Char → List Char
  | 0, acc => acc
  | width + 1, acc => digitsFrom (n / 16) width (digit (n % 16) :: acc)

/-- The last `width` digits of `n`, padded with zeros. -/
def fixed (width n : Nat) : String := String.ofList (digitsFrom n width [])

def ofBytes (bytes : List UInt8) : String :=
  bytes.foldl (fun text b => (text.push (digit (b.toNat / 16))).push (digit (b.toNat % 16))) ""

/-- The value of a hexadecimal digit; any other character counts as zero. -/
def digitValue (c : Char) : Nat :=
  if '0' ≤ c ∧ c ≤ '9' then c.toNat - 48
  else if 'a' ≤ c ∧ c ≤ 'f' then c.toNat - 87
  else if 'A' ≤ c ∧ c ≤ 'F' then c.toNat - 55
  else 0

def value (text : String) : Nat := text.foldl (fun n c => n * 16 + digitValue c) 0

/-- The bytes that pairs of digits stand for; a single digit at the end is left out. -/
def toBytes (text : String) : ByteArray :=
  (text.foldl (fun (bytes, high) c =>
    match high with
    | none => (bytes, some (digitValue c))
    | some n => (bytes.push (UInt8.ofNat (n * 16 + digitValue c)), none))
    (ByteArray.empty, (none : Option Nat))).1

/-- A value as a literal: `0x` and at least `width` digits. -/
def literal (width n : Nat) : String := "0x" ++ fixed width n

private theorem digitsFrom_eq (n width : Nat) (acc : List Char) :
    digitsFrom n width acc = digitsFrom n width [] ++ acc := by
  induction width generalizing n acc with
  | zero => rfl
  | succ width ih => rw [digitsFrom, ih, digitsFrom, ih _ [_], List.append_assoc, List.singleton_append]

@[simp]
theorem toList_fixed_zero (n : Nat) : (fixed 0 n).toList = [] := String.toList_ofList

/-- The last digit of a number is its remainder. -/
theorem toList_fixed_succ (width n : Nat) :
    (fixed (width + 1) n).toList = (fixed width (n / 16)).toList ++ [digit (n % 16)] := by
  rw [fixed, fixed, String.toList_ofList, String.toList_ofList, digitsFrom, digitsFrom_eq]

end DisplayPipeline.Text.Hex
