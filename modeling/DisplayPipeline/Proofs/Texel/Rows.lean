import DisplayPipeline.Proofs.WordBytes
import DisplayPipeline.Texel.Packing
import Mathlib.Algebra.Order.Ring.Nat
import Mathlib.Data.FinEnum

namespace DisplayPipeline

namespace TexelDepth

section Runs

variable {α : Type} {size count : Nat} {xs : List α}

theorem length_runs (size count : Nat) (xs : List α) : (runs size count xs).length = count := by
  induction count generalizing xs with
  | zero => rfl
  | succ count ih => rw [runs, List.length_cons, ih]

theorem length_of_mem_runs (h : size * count ≤ xs.length) :
    ∀ run ∈ runs size count xs, run.length = size := by
  induction count generalizing xs with
  | zero => simp [runs]
  | succ count ih =>
    rw [Nat.mul_succ] at h
    intro run hrun
    rcases List.mem_cons.mp hrun with rfl | hrun
    · rw [List.length_take]
      omega
    · exact ih (by rw [List.length_drop]; omega) run hrun

theorem flatten_runs (size count : Nat) (xs : List α) :
    (runs size count xs).flatten = xs.take (size * count) := by
  induction count generalizing xs with
  | zero => simp [runs]
  | succ count ih => rw [runs, List.flatten_cons, ih, Nat.mul_succ, Nat.add_comm, List.take_add]

theorem length_flatten {rows : List (List α)} (h : ∀ row ∈ rows, row.length = size) :
    rows.flatten.length = size * rows.length := by
  induction rows with
  | nil => rfl
  | cons row rows ih =>
    rw [List.flatten_cons, List.length_append, h row List.mem_cons_self,
      ih fun other hother => h other (List.mem_cons_of_mem row hother), List.length_cons,
      Nat.mul_succ, Nat.add_comm]

theorem runs_flatten {rows : List (List α)} (h : ∀ row ∈ rows, row.length = size) :
    runs size rows.length rows.flatten = rows := by
  induction rows with
  | nil => rfl
  | cons row rows ih =>
    obtain rfl := h row List.mem_cons_self
    rw [List.length_cons, List.flatten_cons, runs, List.take_left, List.drop_left,
      ih fun other hother => h other (List.mem_cons_of_mem row hother)]

theorem runs_eq_map (size count : Nat) (xs : List α) :
    runs size count xs = (List.range count).map fun index => (xs.drop (size * index)).take size := by
  induction count generalizing xs with
  | zero => rfl
  | succ count ih =>
    rw [runs, ih, List.range_succ_eq_map, List.map_cons, List.map_map]
    simp [Function.comp_def, List.drop_drop, Nat.mul_add, Nat.add_comm]

/-- Rows of one size laid end to end are indexed by row and column. -/
theorem getElem?_flatten {rows : List (List α)} (h : ∀ row ∈ rows, row.length = size) {x : Nat}
    (hx : x < size) (y : Nat) : rows.flatten[y * size + x]? = rows[y]?.bind (·[x]?) := by
  induction rows generalizing y with
  | nil => simp
  | cons row rows ih =>
    have hrow := h row List.mem_cons_self
    rw [List.flatten_cons]
    cases y with
    | zero =>
      rw [Nat.zero_mul, Nat.zero_add, List.getElem?_append_left (by omega)]
      rfl
    | succ y =>
      rw [Nat.succ_mul, List.getElem?_append_right (by omega),
        show y * size + size + x - row.length = y * size + x by omega,
        ih fun other hother => h other (List.mem_cons_of_mem row hother)]
      rfl

theorem take_drop_flatten {rows : List (List α)} (h : ∀ row ∈ rows, row.length = size) {y : Nat}
    {row : List α} (hrow : rows[y]? = some row) :
    (rows.flatten.drop (size * y)).take size = row := by
  obtain ⟨hy, rfl⟩ := List.getElem?_eq_some_iff.mp hrow
  have hruns := congrArg (·[y]?) (runs_flatten h)
  simpa [runs_eq_map, hy] using hruns

end Runs

section Packing

private theorem length_unpack_four (bytes : List UInt8) :
    (four.unpack bytes).length = 2 * bytes.length := by
  induction bytes with
  | nil => rfl
  | cons b bytes ih =>
    rw [unpack_four_cons, List.length_cons, List.length_cons, ih, List.length_cons]
    omega

private theorem length_unpack_eight (bytes : List UInt8) :
    (eight.unpack bytes).length = bytes.length :=
  List.length_map _

variable {bytes : List UInt8} {width : Nat}

private theorem exists_pair (h : bytes.length = 2 * (width + 1)) :
    ∃ hi lo rest, bytes = hi :: lo :: rest ∧ rest.length = 2 * width := by
  match bytes, h with
  | hi :: lo :: rest, h =>
    simp only [List.length_cons] at h
    exact ⟨hi, lo, rest, rfl, by omega⟩

theorem exists_quad (h : bytes.length = 4 * (width + 1)) :
    ∃ a b c d rest, bytes = a :: b :: c :: d :: rest ∧ rest.length = 4 * width := by
  match bytes, h with
  | a :: b :: c :: d :: rest, h =>
    simp only [List.length_cons] at h
    exact ⟨a, b, c, d, rest, rfl, by omega⟩

private theorem lt_of_mem_unpack_four : ∀ t ∈ four.unpack bytes, t.toNat < 2 ^ 4 := by
  induction bytes with
  | nil => simp [unpack]
  | cons b bytes ih =>
    have hhigh : ∀ b : UInt8, (b >>> 4).toUInt32.toNat < 2 ^ 4 := by decide +kernel
    have hlow : ∀ b : UInt8, (b &&& 0xF).toUInt32.toNat < 2 ^ 4 := by decide +kernel
    intro t ht
    rw [unpack_four_cons, List.mem_cons, List.mem_cons] at ht
    rcases ht with rfl | rfl | ht
    · exact hhigh b
    · exact hlow b
    · exact ih t ht

private theorem lt_of_mem_unpack_eight : ∀ t ∈ eight.unpack bytes, t.toNat < 2 ^ 8 := by
  intro t ht
  obtain ⟨b, -, rfl⟩ := List.mem_map.mp ht
  rw [UInt8.toNat_toUInt32]
  exact b.toNat_lt

private theorem pack_unpack_four (bytes : List UInt8) : four.pack (four.unpack bytes) = bytes := by
  induction bytes with
  | nil => rfl
  | cons b bytes ih =>
    have hbyte : ∀ b : UInt8, (b >>> 4).toUInt32.toUInt8 <<< 4 |||
        (b &&& 0xF).toUInt32.toUInt8 &&& 0xF = b := by decide +kernel
    rw [unpack_four_cons, pack_four_cons, hbyte, ih]

private theorem pack_unpack_four_single (bytes : List UInt8) (last : UInt8) :
    four.pack (four.unpack bytes ++ [(last >>> 4).toUInt32]) = bytes ++ [last &&& 0xF0] := by
  induction bytes with
  | nil =>
    have hbyte : ∀ b : UInt8, (b >>> 4).toUInt32.toUInt8 <<< 4 = b &&& 0xF0 := by decide +kernel
    rw [show four.unpack [] = [] from rfl, List.nil_append, pack_four_single, hbyte,
      List.nil_append]
  | cons b bytes ih =>
    have hbyte : ∀ b : UInt8, (b >>> 4).toUInt32.toUInt8 <<< 4 |||
        (b &&& 0xF).toUInt32.toUInt8 &&& 0xF = b := by decide +kernel
    rw [unpack_four_cons, List.cons_append, List.cons_append, pack_four_cons, hbyte, ih,
      List.cons_append]

private theorem pack_unpack_eight (bytes : List UInt8) : eight.pack
    (eight.unpack bytes) = bytes := by
  have hbyte : UInt32.toUInt8 ∘ UInt8.toUInt32 = id := funext UInt8.toUInt8_toUInt32
  rw [pack, unpack, List.map_map, hbyte, List.map_id]

private theorem unpack_sixteen (h : bytes.length = 2 * width) :
    (sixteen.unpack bytes).length = width ∧ (∀ t ∈ sixteen.unpack bytes, t.toNat < 2 ^ 16) ∧
      sixteen.pack (sixteen.unpack bytes) = bytes := by
  induction width generalizing bytes with
  | zero =>
    obtain rfl := List.eq_nil_of_length_eq_zero h
    exact ⟨rfl, by simp [unpack, Word.pairs16], rfl⟩
  | succ width ih =>
    obtain ⟨hi, lo, rest, rfl, hrest⟩ := exists_pair h
    obtain ⟨hlength, hsmall, hpack⟩ := ih hrest
    have htexel : (Word.join16 hi lo).toUInt32.toUInt16 = Word.join16 hi lo := by simp
    have hbytes : Word.be16 (Word.join16 hi lo) = [hi, lo] := by
      have hle := Word.le16_join16 hi lo
      simp only [Word.le16, Word.be16, List.cons.injEq, and_true] at hle ⊢
      exact ⟨hle.2, hle.1⟩
    rw [unpack_sixteen_cons]
    refine ⟨by rw [List.length_cons, hlength], fun t ht => ?_, ?_⟩
    · rcases List.mem_cons.mp ht with rfl | ht
      · rw [UInt16.toNat_toUInt32]
        exact (Word.join16 hi lo).toNat_lt
      · exact hsmall t ht
    · rw [pack_sixteen_cons, htexel, hbytes, hpack]
      rfl

private theorem unpack_thirtyTwo (h : bytes.length = 4 * width) :
    (thirtyTwo.unpack bytes).length = width ∧
      thirtyTwo.pack (thirtyTwo.unpack bytes) = bytes := by
  induction width generalizing bytes with
  | zero =>
    obtain rfl := List.eq_nil_of_length_eq_zero h
    exact ⟨rfl, rfl⟩
  | succ width ih =>
    obtain ⟨a, b, c, d, rest, rfl, hrest⟩ := exists_quad h
    obtain ⟨hlength, hpack⟩ := ih hrest
    have hbytes : Word.be32 (Word.join32 a b c d) = [a, b, c, d] := by
      have hle := Word.le32_join32 a b c d
      simp only [Word.le32, Word.be32, List.cons.injEq, and_true] at hle ⊢
      exact ⟨hle.2.2.2, hle.2.2.1, hle.2.1, hle.1⟩
    rw [unpack_thirtyTwo_cons]
    refine ⟨by rw [List.length_cons, hlength], ?_⟩
    rw [pack_thirtyTwo_cons, hbytes, hpack]
    rfl

/-- Whether the lower half of a byte holds no texel: rows fill whole bytes. -/
def halfEmpty (depth : TexelDepth) (width index : Nat) : Bool :=
  depth = .four && width % 2 = 1 && (index + 1) % depth.rowBytes width = 0

/-- The bytes of rows of `width` texels, without what holds no texel. -/
def cleared (depth : TexelDepth) (width : Nat) (bytes : List UInt8) : List UInt8 :=
  bytes.mapIdx fun index byte => if depth.halfEmpty width index then byte &&& 0xF0 else byte

private theorem length_cleared (depth : TexelDepth) (width : Nat) (bytes : List UInt8) :
    (depth.cleared width bytes).length = bytes.length :=
  List.length_mapIdx

private theorem cleared_of_full {depth : TexelDepth} (h : depth ≠ .four ∨ width % 2 = 0)
    (bytes : List UInt8) : depth.cleared width bytes = bytes := by
  have hfull (index : Nat) : depth.halfEmpty width index = false := by
    rcases h with hdepth | heven
    · simp [halfEmpty, hdepth]
    · simp [halfEmpty, heven]
  exact List.ext_getElem (length_cleared depth width bytes) fun index _ _ => by
    simp [cleared, hfull]

private theorem cleared_odd {init : List UInt8} {last : UInt8} (h : width = 2 * init.length + 1) :
    four.cleared width (init ++ [last]) = init ++ [last &&& 0xF0] := by
  have hrow : four.rowBytes width = init.length + 1 := by
    rw [rowBytes, show four.bits = 4 from rfl]
    omega
  have hbefore (index : Nat) (hindex : index < init.length) :
      four.halfEmpty width index = false := by
    have hmod : (index + 1) % (init.length + 1) = index + 1 := Nat.mod_eq_of_lt (by omega)
    simp [halfEmpty, hrow, hmod]
  have hlast : four.halfEmpty width init.length = true := by
    simp only [halfEmpty, hrow, Nat.mod_self]
    simp
    omega
  rw [cleared, List.mapIdx_append]
  congr 1
  · refine List.ext_getElem (by simp) fun index hindex _ => ?_
    rw [List.length_mapIdx] at hindex
    simp [hbefore index hindex]
  · simp [hlast]

theorem cleared_flatten {depth : TexelDepth} {rows : List (List UInt8)}
    (h : ∀ row ∈ rows, row.length = depth.rowBytes width) :
    depth.cleared width rows.flatten = (rows.map (depth.cleared width)).flatten := by
  induction rows with
  | nil => rfl
  | cons row rows ih =>
    have hrow := h row List.mem_cons_self
    have hshift (index : Nat) :
        depth.halfEmpty width (index + row.length) = depth.halfEmpty width index := by
      rw [halfEmpty, halfEmpty, hrow, Nat.add_right_comm, Nat.add_mod_right]
    have hrest := ih fun other hother => h other (List.mem_cons_of_mem row hother)
    rw [List.flatten_cons, List.map_cons, List.flatten_cons, ← hrest]
    simp only [cleared, List.mapIdx_append, hshift]

/-- A row of bytes holds its texels, each within its bits, and packing them clears the row. -/
structure HoldsTexels (depth : TexelDepth) (width : Nat) (row : List UInt8) : Prop where
  enough : width ≤ (depth.unpack row).length
  small : ∀ t ∈ depth.unpack row, t.toNat < 2 ^ depth.bits
  packed : depth.pack ((depth.unpack row).take width) = depth.cleared width row

private theorem holdsTexels_four_even {row : List UInt8} (h : width = 2 * row.length) :
    four.HoldsTexels width row where
  enough := by rw [length_unpack_four, h]
  small := lt_of_mem_unpack_four
  packed := by
    have hall : (four.unpack row).length ≤ width := by rw [length_unpack_four, h]
    rw [List.take_of_length_le hall, pack_unpack_four, cleared_of_full (Or.inr (by omega))]

private theorem holdsTexels_four_odd {init : List UInt8} {last : UInt8}
    (h : width = 2 * init.length + 1) :
    four.HoldsTexels width (init ++ [last]) := by
  have hunpack : four.unpack (init ++ [last]) =
      (four.unpack init ++ [(last >>> 4).toUInt32]) ++ [(last &&& 0xF).toUInt32] := by
    rw [unpack, List.flatMap_append, List.append_assoc]
    rfl
  have hwidth : (four.unpack init ++ [(last >>> 4).toUInt32]).length = width := by
    rw [List.length_append, length_unpack_four, h]
    rfl
  refine ⟨?_, lt_of_mem_unpack_four, ?_⟩
  · rw [hunpack, List.length_append, hwidth]
    exact Nat.le_add_right _ _
  · rw [hunpack, List.take_left' hwidth, pack_unpack_four_single, cleared_odd h]

theorem holdsTexels_of_length {depth : TexelDepth} {row : List UInt8}
    (h : row.length = depth.rowBytes width) : depth.HoldsTexels width row := by
  rw [rowBytes] at h
  cases depth with
  | four =>
    rw [show four.bits = 4 from rfl] at h
    rcases Nat.mod_two_eq_zero_or_one width with heven | hodd
    · exact holdsTexels_four_even (by omega)
    · have hne : row ≠ [] := by
        rintro rfl
        simp only [List.length_nil] at h
        omega
      rw [← List.dropLast_append_getLast hne] at h ⊢
      rw [List.length_append, List.length_singleton] at h
      exact holdsTexels_four_odd (by omega)
  | eight =>
    rw [show eight.bits = 8 from rfl] at h
    have hlength : (eight.unpack row).length = width := by
      rw [length_unpack_eight]
      omega
    refine ⟨hlength.ge, lt_of_mem_unpack_eight, ?_⟩
    rw [List.take_of_length_le hlength.le, pack_unpack_eight,
      cleared_of_full (show eight ≠ four ∨ _ from Or.inl (by decide))]
  | sixteen =>
    rw [show sixteen.bits = 16 from rfl] at h
    obtain ⟨hlength, hsmall, hpack⟩ :=
      unpack_sixteen (show row.length = 2 * width by omega)
    refine ⟨hlength.ge, hsmall, ?_⟩
    rw [List.take_of_length_le hlength.le, hpack,
      cleared_of_full (show sixteen ≠ four ∨ _ from Or.inl (by decide))]
  | thirtyTwo =>
    rw [show thirtyTwo.bits = 32 from rfl] at h
    obtain ⟨hlength, hpack⟩ := unpack_thirtyTwo (show row.length = 4 * width by omega)
    refine ⟨hlength.ge, fun t _ => t.toNat_lt, ?_⟩
    rw [List.take_of_length_le hlength.le, hpack,
      cleared_of_full (show thirtyTwo ≠ four ∨ _ from Or.inl (by decide))]

end Packing

end TexelDepth
end DisplayPipeline
