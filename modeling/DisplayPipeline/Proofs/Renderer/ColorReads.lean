import DisplayPipeline.Proofs.Renderer.TargetCopies

/-!
# What color reads answer

Reads of a render target, between fills and changes of what the device can do. A read of the moment
answers with the pixels as they are. A deferred read answers with the pixels as they were at the
deferred read before it, if that asked for the same region and could be made. Copies are numbered as
they are made, and none answers twice.
-/

namespace DisplayPipeline

inductive ReaderEvent where
  | fill (rect : FillRect)
  /-- The device can do other things from now on. -/
  | enable (capabilities : Capabilities)
  | read (read : ColorRead)

namespace ReaderEvent

/-- What an event does to the device. Reads leave it as it is. -/
def apply (d : Device) : ReaderEvent → Device
  | fill rect => d.fill rect
  | enable capabilities => { d with capabilities }
  | read _ => d

def isDeferred : ReaderEvent → Bool
  | read r => !r.synchronous
  | _ => false

def isSynchronous : ReaderEvent → Bool
  | read r => r.synchronous
  | _ => false

end ReaderEvent

def Device.afterAll (d : Device) (events : List ReaderEvent) : Device :=
  events.foldl ReaderEvent.apply d

/-- A reader and the device that it reads. -/
structure ReadSession where
  reader : ColorReader
  device : Device

namespace ReadSession

def serve (s : ReadSession) : ReaderEvent → ReadSession
  | .read read => { s with reader := (s.reader.read s.device read).1 }
  | event => { s with device := event.apply s.device }

def serveAll (s : ReadSession) (events : List ReaderEvent) : ReadSession := events.foldl serve s

def answer (s : ReadSession) (read : ColorRead) : Option (List UInt8) :=
  (s.reader.read s.device read).2

section Answers

variable {s : ReadSession} {events : List ReaderEvent} {read : ColorRead}

private theorem device_serve (s : ReadSession) (event : ReaderEvent) :
    (s.serve event).device = event.apply s.device := by
  cases event <;> rfl

private theorem device_serveAll (s : ReadSession) (events : List ReaderEvent) :
    (s.serveAll events).device = s.device.afterAll events := by
  induction events generalizing s with
  | nil => rfl
  | cons event events ih =>
    rw [serveAll, List.foldl_cons, ← serveAll, ih, device_serve, Device.afterAll, Device.afterAll,
      List.foldl_cons]

private theorem reader_serve_of_not_deferred {event : ReaderEvent} (h : event.isDeferred = false) :
    (s.serve event).reader = s.reader := by
  cases event with
  | read read =>
    have hsynchronous : read.synchronous = true := by simpa [ReaderEvent.isDeferred] using h
    rw [serve, ColorReader.read, ColorReader.take, if_pos hsynchronous]
  | _ => rfl

private theorem reader_serve_of_deferred (h : read.synchronous = false) :
    (s.serve (.read read)).reader = { s.reader with pending :=
      (ColorReader.copyNow s.device read.region).map (⟨read.region, ·⟩) } := by
  rw [serve, ColorReader.read, ColorReader.take, if_neg (by simp [h])]

private theorem reader_serve_narrowing (s : ReadSession) (event : ReaderEvent) :
    (s.serve event).reader.narrowing = s.reader.narrowing := by
  cases hdeferred : event.isDeferred with
  | false => rw [reader_serve_of_not_deferred hdeferred]
  | true =>
    cases event with
    | read read =>
      rw [reader_serve_of_deferred (by simpa [ReaderEvent.isDeferred] using hdeferred)]
    | _ => cases hdeferred

private theorem reader_serveAll_narrowing (s : ReadSession) (events : List ReaderEvent) :
    (s.serveAll events).reader.narrowing = s.reader.narrowing := by
  induction events generalizing s with
  | nil => rfl
  | cons event events ih =>
    rw [serveAll, List.foldl_cons, ← serveAll, ih, reader_serve_narrowing]

private theorem reader_serveAll_of_not_deferred (h : ∀ event ∈ events, event.isDeferred = false) :
    (s.serveAll events).reader = s.reader := by
  induction events generalizing s with
  | nil => rfl
  | cons event events ih =>
    obtain ⟨hevent, hevents⟩ := List.forall_mem_cons.mp h
    rw [serveAll, List.foldl_cons, ← serveAll, ih hevents, reader_serve_of_not_deferred hevent]

private theorem answer_of_synchronous (h : read.synchronous = true) :
    s.answer read = (s.device.shown? read.region).bind (read.present s.reader.narrowing) := by
  rw [answer, ColorReader.read, ColorReader.take, if_pos h]
  exact ColorReader.convert_copyNow s.device read s.reader.narrowing

private theorem answer_of_deferred (h : read.synchronous = false) :
    s.answer read = ((s.reader.pending.filter fun p => p.region = read.region).map (·.copy)).bind
      (ColorReader.convert s.reader.narrowing read.bitDepth) := by
  rw [answer, ColorReader.read, ColorReader.take, if_neg (by simp [h])]

private theorem serveAll_append (s : ReadSession) (earlier later : List ReaderEvent) :
    s.serveAll (earlier ++ later) = (s.serveAll earlier).serveAll later := by
  rw [serveAll, List.foldl_append]
  rfl

/-- A deferred read answers with what the device showed at the one before. -/
theorem answer_of_previous (h : read.synchronous = false) {last : ColorRead}
    (hlast : last.synchronous = false) (hbetween : ∀ event ∈ events, event.isDeferred = false) :
    ((s.serve (.read last)).serveAll events).answer read =
      if last.region = read.region then
        (s.device.shown? last.region).bind (read.present s.reader.narrowing)
      else none := by
  rw [answer_of_deferred h, reader_serveAll_of_not_deferred hbetween,
    reader_serve_of_deferred hlast]
  by_cases hregion : last.region = read.region
  · rw [if_pos hregion, hregion, ← ColorReader.convert_copyNow]
    cases ColorReader.copyNow s.device read.region with
    | none => rfl
    | some copy => simp [Option.filter]
  · rw [if_neg hregion]
    cases ColorReader.copyNow s.device last.region with
    | none => rfl
    | some copy => simp [Option.filter, hregion]

private theorem answer_of_first (h : read.synchronous = false) (hpending : s.reader.pending = none)
    (hbefore : ∀ event ∈ events, event.isDeferred = false) :
    (s.serveAll events).answer read = none := by
  rw [answer_of_deferred h, reader_serveAll_of_not_deferred hbefore, hpending]
  rfl

private theorem serve_of_synchronous {event : ReaderEvent} (h : event.isSynchronous = true) :
    s.serve event = s := by
  cases event with
  | read read =>
    have hsynchronous : read.synchronous = true := h
    rw [serve, ColorReader.read, ColorReader.take, if_pos hsynchronous]
  | _ => cases h

private theorem serveAll_filter (s : ReadSession) (events : List ReaderEvent) :
    s.serveAll (events.filter (!·.isSynchronous)) = s.serveAll events := by
  induction events generalizing s with
  | nil => rfl
  | cons event events ih =>
    have hcons : s.serveAll (event :: events) = (s.serve event).serveAll events := rfl
    rw [hcons, ← ih]
    cases hsynchronous : event.isSynchronous with
    | true =>
      rw [List.filter_cons_of_neg (by simp [hsynchronous]), serve_of_synchronous hsynchronous]
    | false =>
      rw [List.filter_cons_of_pos (by simp [hsynchronous])]
      rfl

end Answers

def opened (narrowing : Narrowing) (device : Device) : ReadSession := ⟨{ narrowing }, device⟩

/-- The answers to all reads, in order. -/
def answers (s : ReadSession) : List ReaderEvent → List (Option (List UInt8))
  | [] => []
  | .read read :: events => s.answer read :: answers (s.serve (.read read)) events
  | event :: events => answers (s.serve event) events

end ReadSession

structure NumberedCopy where
  number : Nat
  pending : PendingCopy

/-- A reader that numbers all copies in the order in which it makes them. -/
structure NumberedReader where
  narrowing : Narrowing
  waiting : Option NumberedCopy := none
  made : Nat := 0

namespace NumberedReader

def plain (n : NumberedReader) : ColorReader := ⟨n.narrowing, n.waiting.map (·.pending)⟩

def copyNow (n : NumberedReader) (d : Device) (r : Region) :
    NumberedReader × Option (Nat × Readback) :=
  match ColorReader.copyNow d r with
  | none => (n, none)
  | some copy => ({ n with made := n.made + 1 }, some (n.made, copy))

/-- `ColorReader.take` with numbers. -/
def take (n : NumberedReader) (d : Device) (read : ColorRead) :
    NumberedReader × Option (Nat × Readback) :=
  let (after, copy) := n.copyNow d read.region
  if read.synchronous then (after, copy)
  else
    let answer := (n.waiting.filter fun w => w.pending.region = read.region).map fun w =>
      (w.number, w.pending.copy)
    ({ after with waiting := copy.map fun c => ⟨c.1, ⟨read.region, c.2⟩⟩ }, answer)

/-- The answers to all reads, each with the number of the copy that it was taken from. -/
def answers (n : NumberedReader) (d : Device) :
    List ReaderEvent → List (Option Nat × Option (List UInt8))
  | [] => []
  | .read read :: events =>
    let (after, copy) := n.take d read
    (copy.map (·.1), copy.bind fun c => ColorReader.convert n.narrowing read.bitDepth c.2) ::
      answers after d events
  | event :: events => answers n (event.apply d) events

def numbers (n : NumberedReader) (d : Device) (events : List ReaderEvent) : List Nat :=
  (n.answers d events).filterMap (·.1)

section Plain

variable (n : NumberedReader) (d : Device) (read : ColorRead)

private theorem take_plain :
    n.plain.take d read = ((n.take d read).1.plain, (n.take d read).2.map (·.2)) := by
  have hanswer : ((n.waiting.map (·.pending)).filter fun p => p.region = read.region).map (·.copy) =
      ((n.waiting.filter fun w => w.pending.region = read.region).map
        fun w => (w.number, w.pending.copy)).map (·.2) := by
    rw [Option.filter_map, Option.map_map, Option.map_map]
    rfl
  unfold take ColorReader.take copyNow plain
  dsimp only
  rw [hanswer]
  cases ColorReader.copyNow d read.region <;> cases read.synchronous <;> rfl

private theorem narrowing_take : (n.take d read).1.narrowing = n.narrowing := by
  unfold take copyNow
  cases ColorReader.copyNow d read.region <;> cases read.synchronous <;> rfl

end Plain

private theorem answers_plain (n : NumberedReader) (d : Device) (events : List ReaderEvent) :
    (n.answers d events).map (·.2) = (⟨n.plain, d⟩ : ReadSession).answers events := by
  induction events generalizing n d with
  | nil => rfl
  | cons event events ih =>
    cases event with
    | read read =>
      have hanswer : (n.plain.read d read).2 = (n.take d read).2.bind fun c =>
          ColorReader.convert n.narrowing read.bitDepth c.2 := by
        rw [ColorReader.read, take_plain]
        simp only [plain, narrowing_take]
        cases (n.take d read).2 <;> rfl
      have hafter : (n.plain.read d read).1 = (n.take d read).1.plain := by
        rw [ColorReader.read, take_plain]
      rw [answers, List.map_cons, ih, ReadSession.answers, ReadSession.answer, ReadSession.serve,
        hanswer, hafter]
    | _ => exact ih n _

def Ordered (n : NumberedReader) : Prop := ∀ w ∈ n.waiting, w.number < n.made

/-- A number that the reader can still answer from: the waiting copy's, or one to come. -/
def CanAnswer (n : NumberedReader) (number : Nat) : Prop :=
  (∃ w ∈ n.waiting, w.number = number) ∨ n.made ≤ number

section Numbers

variable {n : NumberedReader} {d : Device} {read : ColorRead}

/-- A read of the moment answers from the copy that it makes, if it makes one. A deferred read
answers from the copy that waits, and only what it makes itself waits after it. -/
theorem take_cases (n : NumberedReader) (d : Device) (read : ColorRead) :
    n.take d read = (n, none) ∨
    (∃ copy, n.take d read = ({ n with made := n.made + 1 }, some (n.made, copy))) ∨
    ((∀ w ∈ (n.take d read).1.waiting, w.number = n.made ∧ n.made < (n.take d read).1.made) ∧
      n.made ≤ (n.take d read).1.made ∧
      ∀ copy ∈ (n.take d read).2, ∃ w ∈ n.waiting, w.number = copy.1) := by
  have hanswer : ∀ copy ∈ (n.waiting.filter fun w => w.pending.region = read.region).map
      fun w => (w.number, w.pending.copy), ∃ w ∈ n.waiting, w.number = copy.1 := by
    intro copy hcopy
    obtain ⟨w, hw, rfl⟩ := Option.map_eq_some_iff.mp hcopy
    exact ⟨w, (Option.filter_eq_some_iff.mp hw).1, rfl⟩
  unfold take copyNow
  cases ColorReader.copyNow d read.region with
  | none =>
    cases read.synchronous with
    | true => exact .inl rfl
    | false => exact .inr (.inr ⟨by simp, le_rfl, hanswer⟩)
  | some copy =>
    cases read.synchronous with
    | true => exact .inr (.inl ⟨copy, rfl⟩)
    | false => exact .inr (.inr ⟨by simp, Nat.le_succ _, hanswer⟩)

private theorem Ordered.take (h : n.Ordered) : (n.take d read).1.Ordered := by
  obtain heq | ⟨copy, heq⟩ | ⟨hwaiting, -, -⟩ := n.take_cases d read
  · rwa [heq]
  · rw [heq]
    intro w hw
    exact Nat.lt_succ_of_lt (h w hw)
  · intro w hw
    obtain ⟨hnumber, hmade⟩ := hwaiting w hw
    exact hnumber ▸ hmade

private theorem CanAnswer.of_take {number : Nat} (h : (n.take d read).1.CanAnswer number) :
    n.CanAnswer number := by
  obtain heq | ⟨copy, heq⟩ | ⟨hwaiting, hmade, -⟩ := n.take_cases d read
  · rwa [heq] at h
  · rw [heq] at h
    exact h.imp_right Nat.le_of_succ_le
  · right
    obtain ⟨w, hw, rfl⟩ | hle := h
    · exact (hwaiting w hw).1.ge
    · exact hmade.trans hle

private theorem canAnswer_of_take {copy : Nat × Readback} (h : (n.take d read).2 = some copy) :
    n.CanAnswer copy.1 := by
  obtain heq | ⟨copy, heq⟩ | ⟨-, -, hanswer⟩ := n.take_cases d read
  · rw [heq] at h
    cases h
  · rw [heq] at h
    cases h
    exact .inr le_rfl
  · exact .inl (hanswer copy h)

private theorem Ordered.not_canAnswer_take (h : n.Ordered) {copy : Nat × Readback}
    (hcopy : (n.take d read).2 = some copy) : ¬ (n.take d read).1.CanAnswer copy.1 := by
  obtain heq | ⟨made, heq⟩ | ⟨hwaiting, hmade, hanswer⟩ := n.take_cases d read
  · rw [heq] at hcopy
    cases hcopy
  · rw [heq] at hcopy ⊢
    cases hcopy
    rintro (⟨w, hw, hnumber⟩ | hle)
    · exact (h w hw).ne hnumber
    · exact Nat.not_succ_le_self _ hle
  · -- the number that answers was given out before, whatever waits now was made just then
    obtain ⟨old, hold, hnumber⟩ := hanswer copy hcopy
    have hlt := h old hold
    rintro (⟨w, hw, hsame⟩ | hle)
    · have hnew := (hwaiting w hw).1
      omega
    · omega

private theorem numbers_read (events : List ReaderEvent) : n.numbers d (.read read :: events) =
    ((n.take d read).2.map (·.1)).toList ++ (n.take d read).1.numbers d events := by
  rw [numbers, answers, List.filterMap_cons]
  cases (n.take d read).2 <;> rfl

/-- All numbers of answers could answer at first, and none answers twice. -/
theorem Ordered.nodup_numbers (h : n.Ordered) (d : Device) (events : List ReaderEvent) :
    (n.numbers d events).Nodup ∧ ∀ number ∈ n.numbers d events, n.CanAnswer number := by
  induction events generalizing n d with
  | nil => exact ⟨List.nodup_nil, by simp [numbers, answers]⟩
  | cons event events ih =>
    cases event with
    | read read =>
      have hordered : (n.take d read).1.Ordered := h.take
      obtain ⟨hnodup, hlater⟩ := ih hordered d
      have hearlier : ∀ number ∈ (n.take d read).1.numbers d events, n.CanAnswer number :=
        fun number hnumber => .of_take (hlater number hnumber)
      rw [numbers_read]
      cases hcopy : (n.take d read).2 with
      | none => exact ⟨hnodup, hearlier⟩
      | some copy =>
        -- later answers come from numbers that can still answer, and this one cannot
        have hnew : copy.1 ∉ (n.take d read).1.numbers d events :=
          fun hmem => h.not_canAnswer_take hcopy (hlater copy.1 hmem)
        exact ⟨List.nodup_cons.mpr ⟨hnew, hnodup⟩,
          List.forall_mem_cons.mpr ⟨canAnswer_of_take hcopy, hearlier⟩⟩
    | _ => exact ih h _

end Numbers

end NumberedReader

namespace ReadSession

/-- A read of the moment answers with what the device shows. A deferred read answers with what the
device showed at the deferred read before it, if that asked for the same region, whatever reads of
the moment there were. No copy answers twice. -/
theorem answer_serveAll (narrowing : Narrowing) (first : Device) (before : List ReaderEvent)
    (read : ColorRead) :
    (read.synchronous = true → ((opened narrowing first).serveAll before).answer read =
      ((first.afterAll before).shown? read.region).bind (read.present narrowing)) ∧
    (read.synchronous = false →
      (∀ earlier last later, before = earlier ++ .read last :: later → last.synchronous = false →
        (∀ event ∈ later, event.isDeferred = false) →
        ((opened narrowing first).serveAll before).answer read =
          if last.region = read.region then
            ((first.afterAll earlier).shown? last.region).bind (read.present narrowing)
          else none) ∧
      ((∀ event ∈ before, event.isDeferred = false) →
        ((opened narrowing first).serveAll before).answer read = none) ∧
      ((opened narrowing first).serveAll (before.filter (!·.isSynchronous))).answer read =
        ((opened narrowing first).serveAll before).answer read) ∧
    (({ narrowing } : NumberedReader).answers first before).map (·.2) =
      (opened narrowing first).answers before ∧
    (({ narrowing } : NumberedReader).numbers first before).Nodup := by
  refine ⟨fun hread => ?_, fun hread => ⟨?_, ?_, ?_⟩, ?_, ?_⟩
  · rw [answer_of_synchronous hread, device_serveAll, reader_serveAll_narrowing]
    rfl
  · rintro earlier last later rfl hlast hlater
    have hsplit : (opened narrowing first).serveAll (earlier ++ .read last :: later) =
        (((opened narrowing first).serveAll earlier).serve (.read last)).serveAll later :=
      serveAll_append _ _ _
    rw [hsplit, answer_of_previous hread hlast hlater, device_serveAll, reader_serveAll_narrowing]
    rfl
  · exact answer_of_first hread rfl
  · rw [serveAll_filter]
  · exact NumberedReader.answers_plain _ first before
  · have hordered : ({ narrowing } : NumberedReader).Ordered := by simp [NumberedReader.Ordered]
    exact (hordered.nodup_numbers first before).1

/-- A white pixel that is painted black after a deferred read of it, and then read both ways. -/
theorem answer_serveAll_onePixel :
    let pixel : Region := ⟨0, 0, 1, 1⟩
    let white : FillRect := ⟨0, 0, 1, 1, ⟨255, 255, 255, 255⟩⟩
    let black : FillRect := ⟨0, 0, 1, 1, ⟨0, 0, 0, 255⟩⟩
    let first := Device.ofSpec { width := 1, height := 1 }
    let later := (opened .nearest first).serveAll
      [.fill white, .read ⟨pixel, 32, false⟩, .fill black]
    later.answer ⟨pixel, 32, true⟩ = some [0, 0, 0, 255] ∧
      later.answer ⟨pixel, 16, false⟩ = some [255, 255] := by
  intro pixel white black first later
  have hnow := answer_serveAll .nearest first
    [.fill white, .read ⟨pixel, 32, false⟩, .fill black] ⟨pixel, 32, true⟩
  have hdeferred := answer_serveAll .nearest first
    [.fill white, .read ⟨pixel, 32, false⟩, .fill black] ⟨pixel, 16, false⟩
  refine ⟨(hnow.1 rfl).trans (by decide +kernel), ?_⟩
  refine ((hdeferred.2.1 rfl).1 [.fill white] ⟨pixel, 32, false⟩ [.fill black] rfl rfl ?_).trans
    (by decide +kernel)
  decide

end ReadSession

end DisplayPipeline
