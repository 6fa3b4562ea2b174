import DisplayPipeline.Proofs.Checked.Decoding
import DisplayPipeline.Proofs.Checked.Delivery
import DisplayPipeline.Proofs.Checked.Registers
import DisplayPipeline.Proofs.DisplayList.Hosting
import DisplayPipeline.Proofs.DisplayList.Indifference

/-!
# Nothing that a host asks for can fault

Every call of a host in checked operations: runs of display lists in any memory, notes of writes and
ends of frames, through any outlet. The registers keep to their bounds from the first instruction on,
so that each step goes on as it does without the checks.
-/

namespace DisplayPipeline.Checked

variable {σ : Type}

/-! ## Moving on -/

def culls (scene : Scene) (first last : Nat) : Checked Bool := do
  let vertices := scene.registers.geometry.vertices.toList
  let last := min last 31
  if first ≤ last then
    slice 32 first (last + 1)
    return triviallyRejected (((vertices.take (last + 1)).drop first).map (·.clip))
  else return false

private theorem culls_eq (scene : Scene) (first last : Nat) :
    culls scene first last = .ok (scene.culls first last) := by
  have hlength : scene.registers.geometry.vertices.toList.length = 32 := Vector.length_toList
  unfold culls Scene.culls
  dsimp only
  rw [hlength]
  split
  · rename_i h
    rw [slice_eq (by omega) (by omega), ok_bind, decide_eq_true h, Bool.true_and]
    rfl
  · rename_i h
    rw [decide_eq_false h, Bool.false_and]
    rfl

def target (scene : Scene) (address : UInt32) : Checked UInt32 := do
  return scene.ram.clamp (← resolve scene.registers.geometry.segments address)

private theorem target_eq (scene : Scene) (address : UInt32) :
    target scene address = .ok (scene.locate address) := by
  rw [target, resolve_eq]
  rfl

def turn (scene : Scene) (after : UInt32) : Flow → Checked Move
  | .call address => do return .call (← target scene address) after
  | .jump address => do return .goTo (← target scene address)
  | .branch => do return .goTo (← target scene scene.registers.geometry.heldWord)
  | .finish => return .leave
  | .cull first last => do return if ← culls scene first last then .leave else .goTo after

def move (scene : Scene) (after : UInt32) : Instruction → Checked Move
  | .flow flow => turn scene after flow
  | _ => return .goTo after

private theorem move_eq (scene : Scene) (after : UInt32) (instruction : Instruction) :
    move scene after instruction = .ok (scene.move after instruction) := by
  cases instruction with
  | flow flow =>
    cases flow with
    | finish => rfl
    | cull first last =>
      rw [move, turn, culls_eq, ok_bind]
      rfl
    | _ =>
      rw [move, turn, target_eq, ok_bind]
      rfl
  | _ => rfl

def note (m : Machine σ) (scene : Scene) (address : UInt32) (instruction : Instruction) :
    Checked (Machine σ) := do
  if let .unknown code := instruction then
    let _ ← place 4 (code.toNat / 64)
    let _ ← shiftLeft 64 1 (code.toNat % 64)
  return m.note scene address instruction

private theorem note_eq (m : Machine σ) (scene : Scene) (address : UInt32)
    (instruction : Instruction) :
    note m scene address instruction = .ok (m.note scene address instruction) := by
  cases instruction with
  | unknown code =>
    have hcode := code.toNat_lt
    simp only [note]
    rw [place_eq (by omega), ok_bind, shiftLeft_one (by omega)]
    rfl
  | _ => rfl

/-! ## Steps and runs -/

def step (o : Outlet σ) (ram : Ram) (settings : ListSettings) (m : Machine σ) :
    Checked (Machine.Step σ) := do
  let address := m.walk.address
  let scene : Scene := ⟨ram, settings, m.registers⟩
  let (instruction, after) ← fetch ram address
  let requests ← requests scene instruction
  match ← (performAll o scene requests).run.run m.counted with
  | (.error cause, link) => return .stop ⟨m.registers, m.walk, link⟩ (.aborted (.refused cause))
  | (.ok (), link) =>
    let m ← note ⟨m.registers, m.walk, link⟩ scene address instruction
    let registers ← advance scene instruction
    let move ← move scene after instruction
    return { m with registers }.follow settings.maxDepth address move

private theorem step_eq (o : Outlet σ) (ram : Ram) (settings : ListSettings) {m : Machine σ}
    (h : m.registers.Bounded) : step o ram settings m = .ok (m.step o ram settings) := by
  have hfetched := Instruction.bounded_fetch ram m.walk.address
  have hrequests := @requests_eq ⟨ram, settings, m.registers⟩ h _ hfetched
  have hadvance := @advance_eq ⟨ram, settings, m.registers⟩ h _ hfetched
  have hperform := @performAll_eq σ o ⟨ram, settings, m.registers⟩ h
  simp only [step, fetch_eq, ok_bind, hrequests, hperform, note_eq, hadvance, move_eq]
  rw [Machine.step_eq]
  cases hresult : DeliverM.performAll o (m.visit.scene ram settings)
      ((m.visit.scene ram settings).requests (m.visit.instruction ram)) m.counted with
  -- What was requested is delivered with the registers of before, and they change after it.
  | ok _ link =>
    have hrun := run_lift_of_ok hresult
    simp only [Visit.scene, Visit.instruction, Machine.visit] at hrun
    rw [hrun]
    rfl
  | error cause link =>
    have hrun := run_lift_of_error hresult
    simp only [Visit.scene, Visit.instruction, Machine.visit] at hrun
    rw [hrun]
    rfl

def walkFor (o : Outlet σ) (ram : Ram) (settings : ListSettings) :
    Nat → Machine σ → Checked (Machine σ × Option ListOutcome)
  | 0, m => return (m, none)
  | budget + 1, m => do
    match ← step o ram settings m with
    | .next m => walkFor o ram settings budget m
    | .stop m outcome => return (m, some outcome)

private theorem walkFor_eq (o : Outlet σ) (ram : Ram) (settings : ListSettings) (budget : Nat)
    {m : Machine σ} (h : m.registers.Bounded) :
    walkFor o ram settings budget m = .ok (m.walkFor o ram settings budget) := by
  induction budget generalizing m with
  | zero => rfl
  | succ budget ih =>
    have hnext : (m.step o ram settings).after.registers.Bounded :=
      Machine.step_keepsRegisters Scene.bounded_advance_fetch h
    rw [walkFor, step_eq o ram settings h, ok_bind, Machine.walkFor]
    cases hstep : m.step o ram settings with
    | next next =>
      rw [hstep] at hnext
      exact ih hnext
    | stop last outcome => rfl

/-! ## Calls of a host -/

def run (p : ListProcessor) (o : Outlet σ) (ram : Ram) (start : UInt32) (sink : σ) :
    Checked (ListProcessor × σ × ListOutcome) := do
  let first ← resolve p.registers.geometry.segments start
  let walked ← walkFor o ram p.settings p.settings.budget
    { registers := p.registers
      walk := { address := ram.clamp first }
      link := ⟨p.delivery, p.journal, sink⟩ }
  let (m, outcome) := (p.afterLast start walked).finish o (walked.2.getD .exhausted)
  return (⟨p.settings, m.registers, m.link.delivery, m.link.journal⟩, m.link.sink, outcome)

private theorem run_eq {p : ListProcessor} (h : p.registers.Bounded) (o : Outlet σ) (ram : Ram)
    (start : UInt32) (sink : σ) : run p o ram start sink = .ok (p.run o ram start sink) := by
  rw [run, resolve_eq, ok_bind, walkFor_eq, ok_bind]
  · rfl
  · exact h

def serve (o : Outlet σ) (h : Hosting σ) : HostCall → Checked (Hosting σ)
  | .run ram start => do
    let (processor, sink, outcome) ← run h.processor o ram start h.sink
    return ⟨processor, sink, h.replies ++ [.ran outcome]⟩
  | call => return h.serve o call

variable {h : Hosting σ}

private theorem serve_eq (o : Outlet σ) (hbounded : h.processor.registers.Bounded)
    (call : HostCall) :
    serve o h call = .ok (h.serve o call) := by
  cases call with
  | run ram start =>
    rw [serve, run_eq hbounded, ok_bind]
    rfl
  | _ => rfl

/-- Calls of the host leave the registers within their bounds. -/
theorem bounded_serveAll (o : Outlet σ) (calls : List HostCall)
    (hbounded : h.processor.registers.Bounded) :
    (h.serveAll o calls).processor.registers.Bounded :=
  h.serveAll_keepsRegisters Scene.bounded_advance_fetch (fun _ hr => hr.endFrame) calls hbounded

def serveAll (o : Outlet σ) (h : Hosting σ) (calls : List HostCall) : Checked (Hosting σ) :=
  calls.foldlM (serve o) h

private theorem serveAll_eq (o : Outlet σ) (hbounded : h.processor.registers.Bounded)
    (calls : List HostCall) : serveAll o h calls = .ok (h.serveAll o calls) := by
  induction calls generalizing h with
  | nil => rfl
  | cons call calls ih =>
    rw [serveAll, List.foldlM_cons, serve_eq o hbounded, ok_bind]
    exact ih (bounded_serveAll o [call] hbounded)

/-- Whatever a host asks for, whatever memory holds, and whatever the outlet answers, no operation goes
wrong: every place is in range, no divisor is zero, no difference falls below zero, no shift is as wide
as its word, and no product or sum outgrows it. The calls are served as they are without the checks. -/
theorem serveAll_unfaulted (settings : ListSettings) (o : Outlet σ) (sink : σ)
    (calls : List HostCall) :
    serveAll o (Hosting.start settings sink) calls =
      .ok ((Hosting.start settings sink).serveAll o calls) :=
  serveAll_eq o (Registers.bounded_initial settings) calls

end DisplayPipeline.Checked
