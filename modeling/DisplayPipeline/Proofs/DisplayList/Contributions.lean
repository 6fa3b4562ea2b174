import DisplayPipeline.Proofs.DisplayList.Hosting

/-!
# What instructions contribute to a history

Some instructions leave behind what the registers remember for later, such as a load into texture memory
or a color image. The history of it is told from the instructions that were carried out. What one of
them keeps between history and registers is kept over a run and by the calls of a host.
-/

namespace DisplayPipeline

/-- What some instructions contribute, told from the registers before them. Each of these instructions
leads on to another one. -/
structure Contribution (β : Type) where
  of? : Scene → Instruction → Option β
  leadsOn : ∀ {scene instruction b}, of? scene instruction = some b → ∀ after,
    ∃ target, scene.move after instruction = .goTo target

variable {σ β : Type}

/-- The registers go along with the history from one instruction to the next. -/
def Contribution.KeptBy (c : Contribution β) (P : List β → Registers → Prop) : Prop :=
  ∀ made (scene : Scene) instruction, P made scene.registers →
    P (made ++ (c.of? scene instruction).toList) (scene.advance instruction)

section Keeping

variable {c : Contribution β} {P : List β → Registers → Prop} {made : List β} {o : Outlet σ}

namespace Machine

variable {ram : Ram} {settings : ListSettings} {m : Machine σ}

/-- What the next instruction contributes, if it is carried out and the run goes on. -/
def contributed (c : Contribution β) (o : Outlet σ) (ram : Ram) (settings : ListSettings)
    (m : Machine σ) : List β :=
  match m.step o ram settings with
  | .next _ => (c.of? (m.visit.scene ram settings) (m.visit.instruction ram)).toList
  | .stop _ _ => []

def contributions (c : Contribution β) (o : Outlet σ) (ram : Ram) (settings : ListSettings)
    (budget : Nat) (m : Machine σ) : List β :=
  (m.course o ram settings budget).flatMap (contributed c o ram settings)

private theorem contributed_kept (hc : c.KeptBy P) (hm : P made m.registers) :
    P (made ++ m.contributed c o ram settings) (m.step o ram settings).after.registers := by
  let scene := m.visit.scene ram settings
  let instruction := m.visit.instruction ram
  rw [contributed]
  cases hperform : DeliverM.performAll o scene (scene.requests instruction) m.counted with
  | error cause link =>
    have hstep : m.step o ram settings =
        .stop ⟨m.registers, m.walk, link⟩ (.aborted (.refused cause)) := by rw [step_eq, hperform]
    rw [hstep]
    exact (List.append_nil made).symm ▸ hm
  | ok _ link =>
    obtain ⟨after, hbeside, -, -, hstep⟩ := step_of_performed hperform
    have hadvanced : P (made ++ (c.of? scene instruction).toList) (scene.advance instruction) :=
      hc made scene instruction hm
    have hregisters : (m.step o ram settings).after.registers = scene.advance instruction := by
      rw [hstep, (after.follow_beside _ _ _).registers, hbeside.registers]
    rw [hregisters]
    cases hnext : m.step o ram settings with
    | next next => exact hadvanced
    | stop last outcome =>
      have hnone : c.of? scene instruction = none := by
        cases hof : c.of? scene instruction with
        | none => rfl
        | some b =>
          obtain ⟨target, hmove⟩ := c.leadsOn hof (Instruction.fetch ram m.walk.address).2
          rw [hstep, hmove] at hnext
          cases hnext
      rwa [hnone] at hadvanced

theorem contributions_kept (hc : c.KeptBy P) (budget : Nat) (hm : P made m.registers) :
    P (made ++ m.contributions c o ram settings budget)
      (m.walkFor o ram settings budget).1.registers := by
  refine walkFor_accumulates (R := fun past m _ =>
    P (made ++ past.flatMap (contributed c o ram settings)) m.registers) ?_ budget ?_
  · intro past m hpast
    rw [List.flatMap_append, List.flatMap_singleton, ← List.append_assoc]
    exact contributed_kept hc hpast
  · rwa [List.flatMap_nil, List.append_nil]

end Machine

namespace Hosting

/-- What the instructions contribute that a call has carried out. -/
def contributionsOf (c : Contribution β) (o : Outlet σ) (h : Hosting σ) : HostCall → List β
  | .run ram start =>
    (h.processor.machine ram start h.sink).contributions c o ram h.processor.settings
      h.processor.settings.budget
  | .notify _ _ | .endFrame => []

theorem contributionsOf_kept (hc : c.KeptBy P) {h : Hosting σ} {call : HostCall}
    (hcall : call ≠ .endFrame) (hh : P made h.processor.registers) :
    P (made ++ h.contributionsOf c o call) (h.serve o call).processor.registers := by
  cases call with
  | run ram start =>
    change P _ (h.processor.run o ram start h.sink).1.registers
    rw [ListProcessor.registers_run]
    exact Machine.contributions_kept (m := h.processor.machine ram start h.sink) hc _ hh
  | notify address length =>
    change P (made ++ []) (h.processor.notify address length).registers
    rwa [List.append_nil, ListProcessor.registers_notify]
  | endFrame => exact absurd rfl hcall

end Hosting

end Keeping

end DisplayPipeline
