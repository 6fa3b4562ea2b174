import DisplayPipeline.Command.Decode
import DisplayPipeline.Proofs.WordBytes
import Mathlib

namespace DisplayPipeline.Command.Reader

variable {α β : Type} {x : Reader α} {f : α → Reader β} {xs ys : List UInt8} {a : α} {b : β}

/-- The reader takes these bytes and gives `a`, whatever follows. -/
def Reads (x : Reader α) (xs : List UInt8) (a : α) : Prop :=
  ∀ rest, x.run (xs ++ rest) = .ok (a, rest)

def Fails (x : Reader α) (xs : List UInt8) : Prop := ∀ rest, ∃ e, x.run (xs ++ rest) = .error e

theorem reads_pure (a : α) : Reads (pure a) [] a := fun _ => rfl

theorem reads_bind (hx : Reads x xs a) (hf : Reads (f a) ys b) :
    Reads (x >>= f) (xs ++ ys) b := by
  intro rest
  rw [StateT.run_bind, List.append_assoc, hx]
  exact hf rest

theorem fails_bind (hx : Fails x xs) : Fails (x >>= f) (xs ++ ys) := by
  intro rest
  obtain ⟨e, he⟩ := hx (ys ++ rest)
  exact ⟨e, by rw [StateT.run_bind, List.append_assoc, he]; rfl⟩

theorem fails_of_reads (hx : Reads x xs a) (hf : Fails (f a) ys) : Fails (x >>= f) (xs ++ ys) := by
  intro rest
  rw [StateT.run_bind, List.append_assoc, hx]
  exact hf rest

theorem reads_last (hx : Reads x xs a) (hf : Reads (f a) [] b) : Reads (x >>= f) xs b := by
  rw [← List.append_nil xs]
  exact reads_bind hx hf

/-- On these bytes the reader goes on as another one. -/
def Leads (x : Reader β) (xs : List UInt8) (y : Reader β) : Prop :=
  ∀ rest, x.run (xs ++ rest) = y.run rest

section Leads

variable {y z : Reader β}

theorem leads_bind (hx : Reads x xs a) (hf : Leads (f a) ys y) :
    Leads (x >>= f) (xs ++ ys) y := by
  intro rest
  rw [StateT.run_bind, List.append_assoc, hx]
  exact hf rest

theorem leads_last (hx : Reads x xs a) : Leads (x >>= f) xs (f a) := by
  intro rest
  rw [StateT.run_bind, hx]
  rfl

theorem reads_of_leads (hz : Leads z xs y) (hy : Reads y ys b) : Reads z (xs ++ ys) b := by
  intro rest
  rw [List.append_assoc, hz]
  exact hy rest

theorem fails_of_leads (hz : Leads z xs y) (hy : Fails y ys) : Fails z (xs ++ ys) := by
  intro rest
  rw [List.append_assoc, hz]
  exact hy rest

end Leads

section Require

variable {kind : CommandKind} {field : CommandField} {value : Nat} {condition : Bool}
variable {g : Unit → Reader β}

theorem reads_require (h : condition = true) (hg : Reads (g ()) ys b) :
    Reads (require kind field value condition >>= g) ys b := by
  rw [require, if_pos h, pure_bind]
  exact hg

theorem fails_after_require (h : condition = true) (hg : Fails (g ()) ys) :
    Fails (require kind field value condition >>= g) ys := by
  rw [require, if_pos h, pure_bind]
  exact hg

theorem fails_require (h : condition = false) :
    Fails (require kind field value condition >>= g) ys := by
  intro rest
  rw [require, h, if_neg Bool.false_ne_true]
  exact ⟨_, rfl⟩

end Require

section Primitives

variable (kind : CommandKind)

theorem reads_byte (v : UInt8) : Reads (byte kind) [v] v := fun _ => rfl

theorem reads_word16 (v : UInt16) : Reads (word16 kind) (Word.le16 v) v := by
  intro rest
  change Except.ok (Word.join16 _ _, rest) = _
  rw [Word.join16_bytes]

theorem reads_word32 (v : UInt32) : Reads (word32 kind) (Word.le32 v) v := by
  intro rest
  change Except.ok (Word.join32 _ _ _ _, rest) = _
  rw [Word.join32_bytes]

theorem reads_word64 (v : UInt64) : Reads (word64 kind) (Word.le64 v) v := by
  intro rest
  change Except.ok (Word.join64 (Word.join32 _ _ _ _) (Word.join32 _ _ _ _), rest) = _
  rw [Word.join32_bytes, Word.join32_bytes, Word.join64_halves]

theorem reads_single (v : Float32) : Reads (single kind) (Command.single v) v := by
  rw [single, Command.single, ← List.append_nil (Word.le32 _)]
  refine reads_bind (reads_word32 kind v.toBits) ?_
  rw [Float32.ofBits_toBits]
  exact reads_pure v

theorem reads_bytes (xs : List UInt8) : Reads (bytes kind xs.length) xs xs := by
  intro rest
  have hle : xs.length ≤ (xs ++ rest).length := by simp
  change (if _ then _ else _) = _
  rw [if_pos hle, List.take_left, List.drop_left]

theorem reads_times {read : Reader α} {write : α → List UInt8} (h : ∀ a, Reads read (write a) a)
    (as : List α) : Reads (times read as.length) (as.flatMap write) as := by
  induction as with
  | nil => exact reads_pure []
  | cons a as ih =>
    rw [List.flatMap_cons, ← List.append_nil (as.flatMap write)]
    exact reads_bind (h a) (reads_bind ih (reads_pure (a :: as)))

theorem reads_unit {v : UInt8} (h : v ≤ 1) : Reads (unit kind) [v] v :=
  reads_bind (reads_byte kind v) (reads_require (decide_eq_true h) (reads_pure v))

theorem fails_unit {v : UInt8} (h : ¬ v ≤ 1) : Fails (unit kind) [v] :=
  fails_of_reads (reads_byte kind v) (fails_require (decide_eq_false h))

private theorem run_count {n size : Nat} {rest : List UInt8} (hn : n < 2 ^ 32)
    (hrest : rest.length = n * size) :
    (count kind size).run (Command.count n ++ rest) = .ok (n, rest) := by
  have hword : (UInt32.ofNat n).toNat = n := UInt32.toNat_ofNat_of_lt' hn
  have hcondition : decide ((UInt32.ofNat n).toNat * size = rest.length) = true :=
    decide_eq_true (by rw [hword, hrest])
  have hword32 := reads_word32 kind (UInt32.ofNat n) rest
  rw [count, Command.count, StateT.run_bind, hword32]
  change (require kind .count (UInt32.ofNat n).toNat
    (decide ((UInt32.ofNat n).toNat * size = rest.length)) >>= fun _ =>
      pure (UInt32.ofNat n).toNat).run rest = _
  rw [hcondition, hword]
  rfl

theorem run_count_bind {g : Nat → Reader β} {n size : Nat} {rest : List UInt8} (hn : n < 2 ^ 32)
    (hrest : rest.length = n * size) :
    (count kind size >>= g).run (Command.count n ++ rest) = (g n).run rest := by
  rw [StateT.run_bind, run_count kind hn hrest]
  rfl

end Primitives

end DisplayPipeline.Command.Reader
