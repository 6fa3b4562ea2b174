import DisplayPipeline.Proofs.Command.Reading

namespace DisplayPipeline.Command

def writeBits (bits : List UInt32) : List UInt8 := bits.flatMap Word.le32

namespace Reader

variable {α β : Type} {x : Reader α} {f : α → Reader β}

/-- Whenever the reader gives a result, `Q` holds of the result and the bytes it took. -/
def Yields (x : Reader α) (Q : α → List UInt8 → Prop) : Prop :=
  ∀ s a rest, x.run s = .ok (a, rest) → ∃ taken, s = taken ++ rest ∧ Q a taken

def Recovers (x : Reader α) (write : α → List UInt8) : Prop :=
  Yields x fun a taken => taken = write a

section Sequences

variable {R : α → List UInt8 → Prop} {Q : β → List UInt8 → Prop} {b : β}

theorem yields_pure (h : Q b []) : Yields (pure b) Q := by
  intro s a rest hrun
  cases hrun
  exact ⟨[], rfl, h⟩

theorem yields_throw (e : CommandError) : Yields (throw e) Q := by
  intro s a rest hrun
  cases hrun

theorem yields_bind (hx : Yields x R)
    (hf : ∀ a taken, R a taken → Yields (f a) fun b more => Q b (taken ++ more)) :
    Yields (x >>= f) Q := by
  intro s b rest hrun
  rw [StateT.run_bind] at hrun
  cases hfirst : x.run s with
  | error e => rw [hfirst] at hrun; cases hrun
  | ok result =>
    obtain ⟨a, s'⟩ := result
    rw [hfirst] at hrun
    obtain ⟨taken, rfl, htaken⟩ := hx s a s' hfirst
    obtain ⟨more, rfl, hmore⟩ := hf a taken htaken s' b rest hrun
    exact ⟨taken ++ more, by rw [List.append_assoc], hmore⟩

theorem yields_recovered {write : α → List UInt8} (hx : Recovers x write)
    (hf : ∀ a, Yields (f a) fun b more => Q b (write a ++ more)) : Yields (x >>= f) Q := by
  apply yields_bind hx
  rintro a _ rfl
  exact hf a

theorem yields_require {kind : CommandKind} {field : CommandField} {value : Nat}
    {condition : Prop} [Decidable condition] {g : Unit → Reader β}
    (hg : condition → Yields (g ()) Q) :
    Yields (require kind field value (decide condition) >>= g) Q := by
  by_cases h : condition
  · rw [require, if_pos (decide_eq_true h), pure_bind]
    exact hg h
  · intro s b rest hrun
    have hfails : Fails (require kind field value (decide condition) >>= g) [] :=
      fails_require (decide_eq_false h)
    obtain ⟨e, he⟩ := hfails s
    rw [List.nil_append] at he
    rw [he] at hrun
    cases hrun

end Sequences

section Primitives

variable (kind : CommandKind)

theorem recovers_byte : Recovers (byte kind) ([·]) := by
  intro s v rest hrun
  cases s with
  | nil => cases hrun
  | cons b s => cases hrun; exact ⟨[v], rfl, rfl⟩

theorem recovers_word16 : Recovers (word16 kind) Word.le16 := by
  intro s v rest hrun
  match s, hrun with
  | a :: b :: s, hrun =>
    cases hrun
    exact ⟨[a, b], rfl, (Word.le16_join16 b a).symm⟩

theorem recovers_word32 : Recovers (word32 kind) Word.le32 := by
  intro s v rest hrun
  match s, hrun with
  | a :: b :: c :: d :: s, hrun =>
    cases hrun
    exact ⟨[a, b, c, d], rfl, (Word.le32_join32 d c b a).symm⟩

theorem recovers_word64 : Recovers (word64 kind) Word.le64 := by
  intro s v rest hrun
  match s, hrun with
  | a :: b :: c :: d :: e :: f :: g :: h :: s, hrun =>
    cases hrun
    refine ⟨[a, b, c, d, e, f, g, h], rfl, ?_⟩
    change [a, b, c, d, e, f, g, h] = Word.le64 _
    rw [Word.le64_join64, Word.le32_join32, Word.le32_join32]
    rfl

theorem yields_bytes (n : Nat) :
    Yields (bytes kind n) fun xs taken => taken = xs ∧ xs.length = n := by
  intro s xs rest hrun
  by_cases hn : n ≤ s.length
  · have hresult : (bytes kind n).run s = .ok (s.take n, s.drop n) := if_pos hn
    rw [hresult] at hrun
    cases hrun
    exact ⟨s.take n, (List.take_append_drop n s).symm, rfl, List.length_take_of_le hn⟩
  · have hresult : (bytes kind n).run s = .error (.truncated kind) := if_neg hn
    rw [hresult] at hrun
    cases hrun

theorem yields_unit : Yields (unit kind) fun v taken => taken = [v] ∧ v ≤ 1 := by
  apply yields_recovered (recovers_byte kind)
  intro v
  exact yields_require fun hv => yields_pure ⟨rfl, hv⟩

/-- The bytes of a count; that it fits what follows is not needed to tell them. -/
theorem yields_count (size : Nat) :
    Yields (count kind size) fun n taken => n < 2 ^ 32 ∧ taken = Command.count n := by
  have hstate : Yields (get : Reader (List UInt8)) fun _ taken => taken = [] := by
    intro s _ rest hrun
    cases hrun
    exact ⟨[], rfl, rfl⟩
  apply yields_recovered (recovers_word32 kind)
  intro word
  apply yields_bind hstate
  rintro left _ rfl
  refine yields_require fun _ => yields_pure ⟨word.toNat_lt, ?_⟩
  rw [Command.count, UInt32.ofNat_toNat]
  rfl

theorem recovers_times {read : Reader α} {write : α → List UInt8} (h : Recovers read write)
    (n : Nat) :
    Yields (times read n) fun as taken => as.length = n ∧ taken = as.flatMap write := by
  induction n with
  | zero => exact yields_pure ⟨rfl, rfl⟩
  | succ n ih =>
    refine yields_recovered h fun a => yields_bind ih ?_
    rintro as _ ⟨hlength, rfl⟩
    refine yields_pure ⟨congrArg (· + 1) hlength, ?_⟩
    rw [List.append_nil, List.flatMap_cons]

end Primitives

section Numbers

variable {numbers : α → List Float32} {read : Reader α}

/-- The reader takes the words whose numbers `numbers` lists, and gives the thing that has them. -/
structure ReadsNumbers (read : Reader α) (numbers : α → List Float32) : Prop where
  reads : ∀ a bits, bits.map Float32.ofBits = numbers a → Reads read (writeBits bits) a
  yields : Yields read fun a taken =>
    ∃ bits : List UInt32, bits.map Float32.ofBits = numbers a ∧ taken = writeBits bits

private theorem reads_number {kind : CommandKind} {bits : List UInt32} {v : Float32}
    {vs : List Float32} {g : Float32 → Reader β} {b : β} (h : bits.map Float32.ofBits = v :: vs)
    (hg : ∀ bits : List UInt32, bits.map Float32.ofBits = vs → Reads (g v) (writeBits bits) b) :
    Reads (single kind >>= g) (writeBits bits) b := by
  obtain ⟨word, bits, rfl, rfl, hbits⟩ := List.map_eq_cons_iff.mp h
  rw [writeBits, List.flatMap_cons]
  refine reads_bind ?_ (hg bits hbits)
  exact reads_last (reads_word32 kind word) (reads_pure _)

private theorem yields_number {kind : CommandKind} {Q : β → List UInt8 → Prop}
    {g : Float32 → Reader β}
    (h : ∀ word, Yields (g (Float32.ofBits word)) fun b more => Q b (Word.le32 word ++ more)) :
    Yields (single kind >>= g) Q := by
  rw [single, bind_assoc]
  exact yields_recovered (recovers_word32 kind) h

private theorem reads_written_nil {bits : List UInt32} (h : bits.map Float32.ofBits = []) (b : β) :
    Reads (pure b) (writeBits bits) b := by
  rw [List.map_eq_nil_iff.mp h]
  exact reads_pure b

theorem vertex_readsNumbers : ReadsNumbers vertex Vertex.toList where
  reads := by
    intro v bits h
    simp only [vertex, vector, bind_assoc, pure_bind]
    exact reads_number h fun _ h => reads_number h fun _ h => reads_number h fun _ h =>
      reads_number h fun _ h => reads_number h fun _ h => reads_number h fun _ h =>
      reads_number h fun _ h => reads_number h fun _ h => reads_number h fun _ h =>
      reads_number h fun _ h => reads_written_nil h v
  yields := by
    simp only [vertex, vector, bind_assoc, pure_bind]
    exact yields_number fun x => yields_number fun y => yields_number fun z => yields_number fun w =>
      yields_number fun red => yields_number fun green => yields_number fun blue =>
      yields_number fun alpha => yields_number fun u => yields_number fun v =>
      yields_pure ⟨[x, y, z, w, red, green, blue, alpha, u, v], rfl, by simp [writeBits]⟩

theorem rect_readsNumbers : ReadsNumbers rect TexturedRect.toList where
  reads := by
    intro r bits h
    exact reads_number h fun _ h => reads_number h fun _ h => reads_number h fun _ h =>
      reads_number h fun _ h => reads_number h fun _ h => reads_number h fun _ h =>
      reads_number h fun _ h => reads_number h fun _ h => reads_written_nil h r
  yields :=
    yields_number fun x0 => yields_number fun y0 => yields_number fun x1 => yields_number fun y1 =>
      yields_number fun s0 => yields_number fun t0 => yields_number fun s1 => yields_number fun t1 =>
      yields_pure ⟨[x0, y0, x1, y1, s0, t0, s1, t1], rfl, by simp [writeBits]⟩

theorem times_readsNumbers (h : ReadsNumbers read numbers) (as : List α) (bits : List UInt32)
    (hbits : bits.map Float32.ofBits = as.flatMap numbers) :
    Reads (times read as.length) (writeBits bits) as := by
  induction as generalizing bits with
  | nil => exact reads_written_nil hbits []
  | cons a as ih =>
    obtain ⟨first, others, rfl, hfirst, hothers⟩ := List.map_eq_append_iff.mp hbits
    rw [writeBits, List.flatMap_append]
    refine reads_bind (h.reads a first hfirst) ?_
    exact reads_last (ih others hothers) (reads_pure (a :: as))

theorem yields_times_numbers (h : ReadsNumbers read numbers) (n : Nat) :
    Yields (times read n) fun as taken => as.length = n ∧
      ∃ bits : List UInt32, bits.map Float32.ofBits = as.flatMap numbers ∧
        taken = writeBits bits := by
  induction n with
  | zero => exact yields_pure ⟨rfl, [], rfl, rfl⟩
  | succ n ih =>
    apply yields_bind h.yields
    rintro a _ ⟨first, hfirst, rfl⟩
    apply yields_bind ih
    rintro as _ ⟨hlength, others, hothers, rfl⟩
    refine yields_pure ⟨congrArg (· + 1) hlength, first ++ others, ?_, ?_⟩
    · rw [List.map_append, hfirst, hothers, List.flatMap_cons]
    · rw [List.append_nil, writeBits, writeBits, writeBits, List.flatMap_append]

end Numbers

end Reader

end DisplayPipeline.Command
