import DisplayPipeline.Proofs.Checked.Operations
import DisplayPipeline.Proofs.Texel.CarriedError

namespace DisplayPipeline.Checked

open Channel

/-- A signed number that a word of 32 bits is to hold. -/
def signed (n : Int) : Checked Int :=
  if -2147483648 ≤ n ∧ n < 2147483648 then .ok n else .error (.overflow 32 n.natAbs)

/-- A carried error that is to stay within a limit. -/
def limited (limit : Nat) (n : Int) : Checked Int :=
  if n.natAbs ≤ limit then .ok n else .error (.outOfRange limit n.natAbs)

private theorem signed_eq {n : Int} (h : n.natAbs < 2147483648) : signed n = .ok n :=
  if_pos (by omega)

private theorem limited_eq {limit : Nat} {n : Int} (h : n.natAbs ≤ limit) :
    limited limit n = .ok n :=
  if_pos h

/-- Cells of carried errors, one for each pixel of a row and one more at either end. -/
structure Carry where
  row : List Int
  below : List Int

/-- Cells for rows of a width before anything is carried. -/
def Carry.blank (width : Nat) : Carry := ⟨.replicate (width + 2) 0, .replicate (width + 2) 0⟩

def cellAt (cells : List Int) (index : Nat) : Checked Int := do
  return cells.get (← place cells.length index)

def addTo (limit : Nat) (cells : List Int) (index : Nat) (amount : Int) : Checked (List Int) := do
  let total ← signed ((← cellAt cells index) + amount)
  return cells.set index (← limited limit total)

def shareOf (error : Int) (sixteenths : Int) : Checked Int := do
  return (← signed (error * sixteenths)).tdiv 16

def narrowOne (bits : Nat) (v : UInt8) (carried : Int) : Checked Diffused := do
  let scaled ← signed (v.toNat * 16)
  let sum ← signed (scaled + carried)
  let want := max 0 (min 4080 sum)
  let rounded ← signed (want + 8)
  let value := narrow bits (UInt8.ofNat (rounded.tdiv 16).toNat)
  let shown ← signed ((expand bits value).toNat * 16)
  let error ← signed (want - shown)
  return ⟨value, error⟩

def spreadOne (limit column : Nat) (error : Int) (carry : Carry) : Checked Carry := do
  let row ← addTo limit carry.row (column + 2) (← shareOf error 7)
  let below ← addTo limit carry.below column (← shareOf error 3)
  let below ← addTo limit below (column + 1) (← shareOf error 5)
  let below ← addTo limit below (column + 2) (← shareOf error 1)
  return ⟨row, below⟩

def scanRow (bits limit : Nat) : Nat → List UInt8 → Carry → Checked (List Nat × Carry)
  | _, [], carry => return ([], carry)
  | column, v :: row, carry => do
    let d ← narrowOne bits v (← cellAt carry.row (column + 1))
    let (values, after) ← scanRow bits limit (column + 1) row (← spreadOne limit column d.error carry)
    return (d.value :: values, after)

def scanRows (bits limit : Nat) : List (List UInt8) → Carry → Checked (List (List Nat))
  | [], _ => return []
  | row :: rows, carry => do
    let (values, after) ← scanRow bits limit 0 row carry
    return values :: (← scanRows bits limit rows ⟨after.below, .replicate after.row.length 0⟩)

section Scan

variable {bits : Nat}

private theorem spread_lt (hpos : 0 < bits) : spread bits < 2048 := by
  have htop := top_pos hpos
  have hslack : slack bits < 128 := by
    rw [slack, Nat.div_lt_iff_lt_mul htop]
    omega
  rw [spread]
  omega

private theorem cellAt_append {before : List Int} {index : Nat} (hindex : before.length = index)
    (cell : Int) (after : List Int) : cellAt (before ++ cell :: after) index = .ok cell := by
  subst hindex
  simp [cellAt, place]

private theorem addTo_append {limit index : Nat} {before : List Int} {cell amount : Int}
    (hlimit : limit < 2048) (hindex : before.length = index)
    (h : (cell + amount).natAbs ≤ limit) (after : List Int) :
    addTo limit (before ++ cell :: after) index amount =
      .ok (before ++ (cell + amount) :: after) := by
  rw [addTo, cellAt_append hindex, ok_bind, signed_eq (by omega), ok_bind, limited_eq h, ok_bind]
  subst hindex
  simp

private theorem shareOf_eq (hpos : 0 < bits) {error : Int} (h : error.natAbs ≤ spread bits)
    {sixteenths : Nat} (hsixteenths : sixteenths ≤ 16) :
    shareOf error sixteenths = .ok (share error sixteenths) := by
  have hspread := spread_lt hpos
  have hscaled : (error * sixteenths).natAbs ≤ spread bits * 16 := by
    rw [Int.natAbs_mul, Int.natAbs_natCast]
    exact Nat.mul_le_mul h hsixteenths
  rw [shareOf, signed_eq (by omega), ok_bind]
  rfl

private theorem narrowOne_eq (hpos : 0 < bits) (v : UInt8) {carried : Int}
    (h : carried.natAbs ≤ spread bits) : narrowOne bits v carried = .ok (diffuseOne bits v carried) := by
  have hspread := spread_lt hpos
  have hv := v.toNat_lt
  have herror := natAbs_error_le hpos v carried
  rw [narrowOne, diffuseOne]
  rw [diffuseOne] at herror
  dsimp only at herror ⊢
  rw [signed_eq (by omega), ok_bind, signed_eq (by omega), ok_bind]
  generalize hwant : max 0 (min 4080 ((v.toNat : Int) * 16 + carried)) = want at herror ⊢
  have hnonneg : 0 ≤ want + 8 := by omega
  have hbyte : ((want + 8).tdiv 16).toNat = (want.toNat + 8) / 16 := by
    rw [Int.tdiv_eq_ediv_of_nonneg hnonneg]
    omega
  have hshown := (expand bits (narrow bits (UInt8.ofNat ((want.toNat + 8) / 16)))).toNat_lt
  rw [signed_eq (by omega), ok_bind, hbyte, signed_eq (by omega), ok_bind, signed_eq (by omega),
    ok_bind]
  rfl

private theorem spreadOne_eq (hpos : 0 < bits) {column : Nat} {before settled : List Int}
    (after unset : List Int) {error ahead a b : Int} (carried : Int) (herror : error.natAbs ≤ spread bits)
    (hbefore : before.length = column + 1) (hsettled : settled.length = column)
    (hahead : Portion bits 9 ahead) (ha : Portion bits 6 a) (hb : Portion bits 1 b) :
    spreadOne (spread bits) column error
        ⟨before ++ carried :: ahead :: after, settled ++ a :: b :: 0 :: unset⟩ =
      .ok ⟨before ++ carried :: (ahead + share error 7) :: after,
        settled ++ (a + share error 3) :: (b + share error 5) :: (0 + share error 1) :: unset⟩ := by
  have hlimit := spread_lt hpos
  have hshare := portion_share herror
  have hcarried : (before ++ [carried]).length = column + 2 := by simp [hbefore]
  have hone : (settled ++ [a + share error 3]).length = column + 1 := by simp [hsettled]
  have htwo : (settled ++ [a + share error 3, b + share error 5]).length = column + 2 := by
    simp [hsettled]
  have hrow := addTo_append hlimit hcarried ((hahead.add (hshare 7)).le_spread (by decide)) after
  have hfirst := addTo_append hlimit hsettled ((ha.add (hshare 3)).le_spread (by decide))
    (b :: 0 :: unset)
  have hsecond := addTo_append hlimit hone ((hb.add (hshare 5)).le_spread (by decide)) (0 :: unset)
  have hthird := addTo_append hlimit htwo
    (((portion_zero bits 0).add (hshare 1)).le_spread (by decide)) unset
  simp only [List.append_assoc, List.cons_append, List.nil_append] at hrow hsecond hthird
  have hshares (sixteenths : Nat) (h : sixteenths ≤ 16) :
      shareOf error sixteenths = .ok (share error sixteenths) := shareOf_eq hpos herror h
  have hseven := hshares 7 (by decide)
  have hthree := hshares 3 (by decide)
  have hfive := hshares 5 (by decide)
  have hsixteenth := hshares 1 (by decide)
  simp only [Nat.cast_ofNat, Nat.cast_one] at *
  simp only [spreadOne, hseven, hthree, hfive, hsixteenth, hrow, hfirst, hsecond, hthird, ok_bind,
    pure_eq_ok]

/-- What the cells below hold in the end, given the errors of the pixels still to come and what the
first two of these cells hold so far. -/
def settle : Int → Int → List Int → List Int
  | a, b, [] => [a, b]
  | a, b, error :: errors => (a + share error 3) :: settle (b + share error 5) (0 + share error 1) errors

private theorem settle_eq (a left : Int) (errors : List Int) :
    settle a (share left 1) errors = (a + share (errors.headD 0) 3) ::
      handDown left errors ++ [share (errors.getLastD left) 1] := by
  induction errors generalizing a left with
  | nil => simp [settle, handDown, share]
  | cons error errors ih =>
    have hrest := ih (share left 1 + share error 5) error
    rw [settle, Int.zero_add, hrest, handDown, List.headD_cons, List.getLastD_cons]
    rfl

def carryOn (right : Int) : List Int → List Int
  | [] => []
  | above :: rest => (above + right) :: rest

private theorem carryOn_zero (above : List Int) : carryOn 0 above = above := by
  cases above <;> simp [carryOn]

private theorem scanRow_eq (hpos : 0 < bits) {column : Nat} {row : List UInt8}
    {before above settled : List Int} {right a b : Int} (hbefore : before.length = column + 1)
    (hsettled : settled.length = column) (habove : above.length = row.length + 1)
    (hportions : ∀ cell ∈ above, Portion bits 9 cell) (hright : Portion bits 7 right)
    (ha : Portion bits 6 a) (hb : Portion bits 1 b) :
    ∃ left : List Int, left.length = before.length + above.length ∧
      scanRow bits (spread bits) column row
          ⟨before ++ carryOn right above, settled ++ a :: b :: .replicate row.length 0⟩ =
        .ok ((diffuseRow bits right (row.zip above)).map (·.value),
          ⟨left, settled ++ settle a b ((diffuseRow bits right (row.zip above)).map (·.error))⟩) := by
  induction row generalizing column before above settled right a b with
  | nil =>
    refine ⟨before ++ carryOn right above, ?_, ?_⟩
    · cases above <;> simp [carryOn]
    · simp [scanRow, diffuseRow, settle]
  | cons v row ih =>
    obtain ⟨cell, cells, rfl⟩ := List.exists_cons_of_length_eq_add_one habove
    obtain ⟨next, rest, rfl⟩ := List.exists_cons_of_length_eq_add_one (Nat.succ_inj.mp habove)
    obtain ⟨hcell, hrest⟩ := List.forall_mem_cons.mp hportions
    have hnext := hrest next List.mem_cons_self
    have hcarried : (cell + right).natAbs ≤ spread bits :=
      (hcell.add hright).le_spread (Nat.le_refl 16)
    have hread := cellAt_append hbefore (cell + right) (next :: rest)
    have hnarrow := narrowOne_eq hpos v hcarried
    have herror := natAbs_error_le hpos v (cell + right)
    generalize hd : diffuseOne bits v (cell + right) = d at hnarrow herror
    have hspread := spreadOne_eq hpos rest (.replicate row.length 0) (cell + right) herror hbefore
      hsettled hnext ha hb
    have hshare := portion_share herror
    have hpassed : (before ++ [cell + right]).length = column + 1 + 1 := by simp [hbefore]
    have hdealt : (settled ++ [a + share d.error 3]).length = column + 1 := by simp [hsettled]
    have hahead : (next :: rest).length = row.length + 1 := Nat.succ_inj.mp habove
    obtain ⟨left, hleft, hrow⟩ := ih hpassed hdealt hahead hrest (hshare 7) (hb.add (hshare 5))
      ((portion_zero bits 0).add (hshare 1))
    simp only [carryOn, List.append_assoc, List.cons_append, List.nil_append, Nat.cast_ofNat,
      Nat.cast_one] at hrow
    refine ⟨left, by simpa [Nat.add_assoc, Nat.add_comm, Nat.add_left_comm] using hleft, ?_⟩
    simp only [carryOn, List.length_cons, List.replicate_succ]
    rw [scanRow, hread, ok_bind, hnarrow, ok_bind, hspread, ok_bind, hrow, ok_bind,
      List.zip_cons_cons, diffuseRow, hd, List.map_cons, List.map_cons, settle]
    rfl

private theorem natAbs_error_getLastD (hpos : 0 < bits) (cells : List (UInt8 × Int)) :
    (((diffuseRow bits 0 cells).map Diffused.error).getLastD 0).natAbs ≤ spread bits := by
  have hlast : ((diffuseRow bits 0 cells).map (·.error)).getLastD 0 ∈
      0 :: (diffuseRow bits 0 cells).map (·.error) := List.getLastD_mem_cons
  generalize ((diffuseRow bits 0 cells).map (·.error)).getLastD 0 = error at hlast ⊢
  cases List.mem_cons.mp hlast with
  | inl hzero => simp [hzero]
  | inr hmem =>
    obtain ⟨d, hd, rfl⟩ := List.mem_map.mp hmem
    exact natAbs_error_diffuseRow hpos 0 cells d hd

private theorem scanRow_whole (hpos : 0 < bits) {row : List UInt8} (first : Int) {last : Int}
    {above : List Int} (hrow : row.length = above.length) (hportions : ∀ cell ∈ above, Portion bits 9 cell)
    (hlast : Portion bits 9 last) :
    ∃ (left : List Int) (first' last' : Int), left.length = above.length + 2 ∧
      Portion bits 9 last' ∧
      scanRow bits (spread bits) 0 row
          ⟨first :: above ++ [last], .replicate (above.length + 2) 0⟩ =
        .ok ((diffuseRow bits 0 (row.zip above)).map (·.value), ⟨left,
          first' :: handDown 0 ((diffuseRow bits 0 (row.zip above)).map (·.error)) ++ [last']⟩) := by
  have hcells : ∀ cell ∈ above ++ [last], Portion bits 9 cell := by
    simpa [or_imp, forall_and] using ⟨hportions, hlast⟩
  have hfirst : [first].length = 0 + 1 := rfl
  have hsettled : ([] : List Int).length = 0 := rfl
  have hlength : (above ++ [last]).length = row.length + 1 := by simp [hrow]
  obtain ⟨left, hleft, hscan⟩ := scanRow_eq hpos hfirst hsettled hlength hcells
    (portion_zero bits 7) (portion_zero bits 6) (portion_zero bits 1)
  have hzip : row.zip (above ++ [last]) = row.zip above := by
    have hrest : (row ++ []).zip (above ++ [last]) = row.zip above ++ [].zip [last] :=
      List.zip_append hrow
    simpa using hrest
  have hbelow := settle_eq 0 0 ((diffuseRow bits 0 (row.zip above)).map (·.error))
  rw [show share 0 1 = 0 from rfl] at hbelow
  rw [hzip, carryOn_zero, hbelow, hrow] at hscan
  refine ⟨left, _, _, ?_, ?_, hscan⟩
  · simpa [Nat.add_comm, Nat.add_left_comm] using hleft
  · exact (portion_share (natAbs_error_getLastD hpos (row.zip above)) 1).mono (by decide)

private theorem scanRows_eq_of_above (hpos : 0 < bits) {rows : List (List UInt8)} (first : Int)
    {last : Int} {above : List Int} (hlength : ∀ row ∈ rows, row.length = above.length)
    (hportions : ∀ cell ∈ above, Portion bits 9 cell) (hlast : Portion bits 9 last) :
    scanRows bits (spread bits) rows
        ⟨first :: above ++ [last], .replicate (above.length + 2) 0⟩ =
      .ok (diffuseRows bits above rows) := by
  induction rows generalizing first last above with
  | nil => rfl
  | cons row rows ih =>
    obtain ⟨hrow, hrows⟩ := List.forall_mem_cons.mp hlength
    obtain ⟨left, first', last', hleft, hlast', hscan⟩ :=
      scanRow_whole hpos first hrow hportions hlast
    have hdown : (handDown 0 ((diffuseRow bits 0 (row.zip above)).map (·.error))).length =
        above.length := length_handDown_diffuseRow hrow
    rw [← hdown] at hrows
    have hrest := ih first' hrows (portion_handDown_diffuseRow hpos _) hlast'
    rw [hdown] at hrest
    rw [scanRows, hscan, ok_bind]
    dsimp only
    rw [hleft, hrest, ok_bind, diffuseRows, pure_eq_ok]

/-- Diffusion in signed words of 32 bits, its cells kept within the spread of the channel, never fails
a check and is the diffusion that runs. -/
theorem scanRows_eq (hpos : 0 < bits) {width : Nat} {rows : List (List UInt8)}
    (hlength : ∀ row ∈ rows, row.length = width) :
    scanRows bits (spread bits) rows (.blank width) =
      .ok (diffuseRows bits (List.replicate width 0) rows) := by
  have hblank : Carry.blank width = ⟨0 :: List.replicate width 0 ++ [0],
      .replicate ((List.replicate width (0 : Int)).length + 2) 0⟩ := by
    rw [Carry.blank, List.length_replicate, ← List.replicate_succ, ← List.replicate_succ']
  rw [hblank]
  refine scanRows_eq_of_above hpos 0 (by simpa using hlength) (fun cell hcell => ?_)
    (portion_zero bits 9)
  rw [List.eq_of_mem_replicate hcell]
  exact portion_zero bits 9

end Scan

end DisplayPipeline.Checked
