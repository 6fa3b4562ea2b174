import DisplayPipeline.Proofs.DisplayList.SharedPool
import DisplayPipeline.Proofs.Ring.Fifo
import DisplayPipeline.Renderer.Consume

/-!
# The render loop, step by step

Serving a claim takes five steps, and a producer may call the pool between them. A step calls the pool
at most once. Uninterrupted, the steps come to what a renderer does with a claim at once.
-/

namespace DisplayPipeline

/-- How far a render loop is with a claim. -/
inductive LoopStage where
  | waiting
  | taken (pointer : ClaimPointer)
  | read (pointer : ClaimPointer) (bytes : List UInt8)
  | decoded (pointer : ClaimPointer) (command : Command)
  | spent (pointer : ClaimPointer)
deriving DecidableEq, Repr

namespace LoopStage

def pointers : LoopStage → List ClaimPointer
  | waiting => []
  | taken pointer | read pointer _ | decoded pointer _ | spent pointer => [pointer]

/-- The steps until the loop waits again. -/
def remaining : LoopStage → Nat
  | waiting => 0
  | taken _ => 4
  | read _ _ => 3
  | decoded _ _ => 2
  | spent _ => 1

end LoopStage

/-- A renderer that serves a pool. -/
structure RenderLoop where
  renderer : Renderer
  stage : LoopStage := .waiting
  /-- The commands that were carried out, in order. -/
  executed : List Command := []

namespace RenderLoop

/-- One step: to take a claim, to read it, to decode it, to carry it out, or to give it back. -/
def step (l : RenderLoop) (p : Pool) : RenderLoop × Pool :=
  match l.stage with
  | .waiting =>
    match p.next with
    | (p, none) => (l, p)
    | (p, some pointer) => ({ l with stage := .taken pointer }, p)
  | .taken pointer =>
    match p.read pointer with
    | .ok bytes => ({ l with stage := .read pointer bytes }, p)
    | .error cause =>
      ({ l with
          stage := .spent pointer
          renderer.events := l.renderer.events.push (.readFailed cause) }, p)
  | .read pointer bytes =>
    match Command.decode bytes with
    | .ok command => ({ l with stage := .decoded pointer command }, p)
    | .error cause =>
      ({ l with
          stage := .spent pointer
          renderer.tally.decodeErrors := l.renderer.tally.decodeErrors + 1
          renderer.events := l.renderer.events.push (.malformedCommand cause) }, p)
  | .decoded pointer command =>
    ({ renderer := l.renderer.execute command
       stage := .spent pointer
       executed := l.executed ++ [command] }, p)
  | .spent pointer =>
    match p.release pointer with
    | (p, .ok ()) => ({ l with stage := .waiting }, p)
    | (p, .error cause) =>
      ({ l with
          stage := .waiting
          renderer.events := l.renderer.events.push (.releaseFailed cause) }, p)

def steps : Nat → RenderLoop × Pool → RenderLoop × Pool
  | 0, s => s
  | n + 1, (l, p) => steps n (l.step p)

section Stages

variable {l : RenderLoop} {p q : Pool} {pointer : ClaimPointer} {bytes : List UInt8}
  {command : Command}

theorem step_nothing (h : l.stage = .waiting) (hnext : p.next = (q, none)) : l.step p = (l, q) := by
  simp only [step, h, hnext]

theorem step_next (h : l.stage = .waiting) (hnext : p.next = (q, some pointer)) :
    l.step p = ({ l with stage := .taken pointer }, q) := by
  simp only [step, h, hnext]

theorem step_read (h : l.stage = .taken pointer) (hread : p.read pointer = .ok bytes) :
    l.step p = ({ l with stage := .read pointer bytes }, p) := by
  simp only [step, h, hread]

private theorem step_unread {cause : PoolError} (h : l.stage = .taken pointer)
    (hread : p.read pointer = .error cause) :
    l.step p = ({ l with
      stage := .spent pointer
      renderer.events := l.renderer.events.push (.readFailed cause) }, p) := by
  simp only [step, h, hread]

theorem step_decode (h : l.stage = .read pointer bytes)
    (hdecode : Command.decode bytes = .ok command) :
    l.step p = ({ l with stage := .decoded pointer command }, p) := by
  simp only [step, h, hdecode]

private theorem step_malformed {cause : CommandError} (h : l.stage = .read pointer bytes)
    (hdecode : Command.decode bytes = .error cause) :
    l.step p =
      ({ l with stage := .spent pointer, renderer := l.renderer.executeBytes bytes }, p) := by
  simp only [step, h, hdecode, Renderer.executeBytes]

theorem step_execute (h : l.stage = .decoded pointer command) :
    l.step p = (⟨l.renderer.execute command, .spent pointer, l.executed ++ [command]⟩, p) := by
  simp only [step, h]

theorem step_release (h : l.stage = .spent pointer) (hrelease : p.release pointer = (q, .ok ())) :
    l.step p = ({ l with stage := .waiting }, q) := by
  simp only [step, h, hrelease]

private theorem step_unreleased {cause : PoolError} (h : l.stage = .spent pointer)
    (hrelease : p.release pointer = (q, .error cause)) :
    l.step p = ({ l with
      stage := .waiting
      renderer.events := l.renderer.events.push (.releaseFailed cause) }, q) := by
  simp only [step, h, hrelease]

end Stages

/-- All that a step does to the pool is one call, if any. -/
theorem step_calls (l : RenderLoop) (p : Pool) :
    ∃ calls : List PoolCall, (l.step p).2 = p.serveAll calls := by
  unfold step
  split
  · refine ⟨[.next], ?_⟩
    change _ = p.next.1
    split <;> rename_i hnext <;> rw [hnext]
  · refine ⟨[], ?_⟩
    split <;> rfl
  · refine ⟨[], ?_⟩
    split <;> rfl
  · exact ⟨[], rfl⟩
  · rename_i pointer _
    refine ⟨[.release pointer], ?_⟩
    change _ = (p.release pointer).1
    split <;> rename_i hrelease <;> rw [hrelease]

theorem steps_calls (n : Nat) (l : RenderLoop) (p : Pool) :
    ∃ calls : List PoolCall, (steps n (l, p)).2 = p.serveAll calls := by
  induction n generalizing l p with
  | zero => exact ⟨[], rfl⟩
  | succ n ih =>
    obtain ⟨first, hfirst⟩ := l.step_calls p
    obtain ⟨rest, hrest⟩ := ih (l.step p).1 (l.step p).2
    refine ⟨first ++ rest, ?_⟩
    rw [Pool.serveAll, List.foldl_append]
    change (steps n ((l.step p).1, (l.step p).2)).2 = (p.serveAll first).serveAll rest
    rw [hrest, hfirst]

private theorem steps_add (m n : Nat) (s : RenderLoop × Pool) : steps (m + n) s = steps n
    (steps m s) := by
  induction m generalizing s with
  | zero => rw [Nat.zero_add, steps]
  | succ m ih =>
    rw [Nat.succ_add]
    exact ih _

section Uninterrupted

variable {l : RenderLoop} {p q : Pool} {pointer : ClaimPointer}

private theorem exists_steps_read {bytes : List UInt8} (h : l.stage = .read pointer bytes)
    (p : Pool) :
    ∃ n executed, steps n (l, p) =
      (⟨l.renderer.executeBytes bytes, .spent pointer, executed⟩, p) := by
  cases hdecode : Command.decode bytes with
  | error cause =>
    refine ⟨1, l.executed, ?_⟩
    rw [steps, steps, step_malformed h hdecode]
  | ok command =>
    refine ⟨2, l.executed ++ [command], ?_⟩
    rw [steps, steps, steps, step_decode h hdecode, step_execute rfl, Renderer.executeBytes,
      hdecode]

private theorem exists_steps_taken (h : l.stage = .taken pointer) (p : Pool) :
    ∃ n executed, steps n (l, p) =
      (⟨match p.read pointer with
        | .ok bytes => l.renderer.executeBytes bytes
        | .error cause =>
          { l.renderer with events := l.renderer.events.push (.readFailed cause) },
        .spent pointer, executed⟩, p) := by
  cases hread : p.read pointer with
  | error cause =>
    refine ⟨1, l.executed, ?_⟩
    rw [steps, steps, step_unread h hread]
  | ok bytes =>
    obtain ⟨n, executed, hsteps⟩ :=
      exists_steps_read (l := { l with stage := .read pointer bytes }) rfl p
    refine ⟨n + 1, executed, ?_⟩
    rw [steps, step_read h hread, hsteps]

/-- Uninterrupted, the steps from one claim to the next come to what a renderer does at once. -/
theorem exists_steps_serve (h : l.stage = .waiting) (hnext : p.next = (q, some pointer)) :
    ∃ n executed, steps n (l, p) =
      (⟨(l.renderer.serve q pointer).1, .waiting, executed⟩, (l.renderer.serve q pointer).2) := by
  obtain ⟨n, executed, hsteps⟩ :=
    exists_steps_taken (l := { l with stage := .taken pointer }) rfl q
  have hfirst : steps (n + 1) (l, p) = steps n (l.step p) := rfl
  refine ⟨n + 1 + 1, executed, ?_⟩
  rw [steps_add, hfirst, step_next h hnext, hsteps, steps, steps, Renderer.serve]
  cases hrelease : q.release pointer with
  | mk r answer =>
    cases answer with
    | ok _ => exact step_release rfl hrelease
    | error cause => exact step_unreleased rfl hrelease

end Uninterrupted

end RenderLoop

end DisplayPipeline
