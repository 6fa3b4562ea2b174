import DisplayPipeline.Proofs.DisplayList.Refusal

/-!
# The course of a run

The machines that a run goes through, one before each instruction. Where it goes and what its
registers become depends on memory and registers alone, as long as no refusal is final.
-/

namespace DisplayPipeline

/-- An instruction that was carried out: where it stands, how many calls were open, and what the
registers held before. -/
structure Visit where
  address : UInt32
  depth : Nat
  registers : Registers
deriving DecidableEq, Repr

namespace Visit

def scene (v : Visit) (ram : Ram) (settings : ListSettings) : Scene := ⟨ram, settings, v.registers⟩

def instruction (v : Visit) (ram : Ram) : Instruction := (Instruction.fetch ram v.address).1

end Visit

namespace Machine

variable {σ : Type}

def visit (m : Machine σ) : Visit := ⟨m.walk.address, m.walk.returns.size, m.registers⟩

/-- The machines before each instruction that is carried out. -/
def course (o : Outlet σ) (ram : Ram) (settings : ListSettings) :
    Nat → Machine σ → List (Machine σ)
  | 0, _ => []
  | budget + 1, m =>
    m :: match m.step o ram settings with
      | .next next => course o ram settings budget next
      | .stop _ _ => []

def Step.after : Step σ → Machine σ
  | .next m => m
  | .stop m _ => m

def Step.ending? : Step σ → Option ListOutcome
  | .next _ => none
  | .stop _ outcome => some outcome

/-- The machines differ in where they are and in what else was counted and reported. -/
structure Beside (m after : Machine σ) : Prop where
  registers : after.registers = m.registers
  delivery : after.link.delivery = m.link.delivery
  sink : after.link.sink = m.link.sink
  triangles : after.link.journal.tally.triangles = m.link.journal.tally.triangles
  dropped : after.link.journal.tally.droppedTriangles = m.link.journal.tally.droppedTriangles

theorem Beside.trans {m after last : Machine σ} (h : m.Beside after) (h' : after.Beside last) :
    m.Beside last :=
  ⟨h'.registers.trans h.registers, h'.delivery.trans h.delivery, h'.sink.trans h.sink,
    h'.triangles.trans h.triangles, h'.dropped.trans h.dropped⟩

theorem note_beside (m : Machine σ) (scene : Scene) (address : UInt32)
    (instruction : Instruction) :
    m.Beside (m.note scene address instruction) ∧
      (m.note scene address instruction).walk.address = m.walk.address ∧
      (m.note scene address instruction).walk.returns = m.walk.returns := by
  unfold note
  split
  · unfold noteUnknown
    dsimp only
    split <;> exact ⟨⟨rfl, rfl, rfl, rfl, rfl⟩, rfl, rfl⟩
  · split <;> exact ⟨⟨rfl, rfl, rfl, rfl, rfl⟩, rfl, rfl⟩
  · split <;> exact ⟨⟨rfl, rfl, rfl, rfl, rfl⟩, rfl, rfl⟩
  · exact ⟨⟨rfl, rfl, rfl, rfl, rfl⟩, rfl, rfl⟩

theorem follow_beside (m : Machine σ) (maxDepth : Nat) (address : UInt32) (move : Move) :
    m.Beside (m.follow maxDepth address move).after := by
  cases move with
  | goTo target => exact ⟨rfl, rfl, rfl, rfl, rfl⟩
  | call target back =>
    simp only [follow]
    split <;> exact ⟨rfl, rfl, rfl, rfl, rfl⟩
  | leave =>
    simp only [follow]
    split <;> exact ⟨rfl, rfl, rfl, rfl, rfl⟩

theorem follow_not_refused (m : Machine σ) (maxDepth : Nat) (address : UInt32) (move : Move)
    (cause : PoolError) :
    (m.follow maxDepth address move).ending? ≠ some (.aborted (.refused cause)) := by
  cases move with
  | goTo target => simp [follow, Step.ending?]
  | call target back =>
    simp only [follow]
    split <;> simp [Step.ending?]
  | leave =>
    simp only [follow]
    split <;> simp [Step.ending?]

section Step

variable {o : Outlet σ} {ram : Ram} {settings : ListSettings} {m : Machine σ}

/-- The link as an instruction is carried out: the instruction is counted first. -/
def counted (m : Machine σ) : Link σ :=
  (m.log fun j => { j with tally.commands := j.tally.commands + 1 }).link

/-- Once what an instruction asks for is delivered, the registers change and the run moves on. -/
theorem step_of_performed {link : Link σ}
    (h : DeliverM.performAll o (m.visit.scene ram settings)
      ((m.visit.scene ram settings).requests (m.visit.instruction ram)) m.counted = .ok () link) :
    ∃ after : Machine σ,
      Beside ⟨(m.visit.scene ram settings).advance (m.visit.instruction ram), m.walk, link⟩ after ∧
      after.walk.address = m.walk.address ∧ after.walk.returns = m.walk.returns ∧
      m.step o ram settings = after.follow settings.maxDepth m.walk.address
        ((m.visit.scene ram settings).move (Instruction.fetch ram m.walk.address).2
          (m.visit.instruction ram)) := by
  let scene := m.visit.scene ram settings
  let fetched := Instruction.fetch ram m.walk.address
  let delivered : Machine σ := ⟨m.registers, m.walk, link⟩
  obtain ⟨hbeside, haddress, hreturns⟩ := note_beside delivered scene m.walk.address fetched.1
  refine ⟨{ delivered.note scene m.walk.address fetched.1 with
      registers := scene.advance fetched.1 }, ?_, haddress, hreturns, ?_⟩
  · exact ⟨rfl, hbeside.delivery, hbeside.sink, hbeside.triangles, hbeside.dropped⟩
  · unfold step
    dsimp only
    split
    · rename_i cause last hfailed
      cases hfailed.symm.trans h
    · rename_i last hperformed
      cases hperformed.symm.trans h
      rfl

theorem registers_step (o : Outlet σ) (ram : Ram) (settings : ListSettings) (m : Machine σ) :
    (m.step o ram settings).after.registers = m.registers ∨
      (m.step o ram settings).after.registers =
        (m.visit.scene ram settings).advance (m.visit.instruction ram) := by
  cases hperform : DeliverM.performAll o (m.visit.scene ram settings)
      ((m.visit.scene ram settings).requests (m.visit.instruction ram)) m.counted with
  | ok _ link =>
    obtain ⟨after, hbeside, -, -, hstep⟩ := step_of_performed hperform
    rw [hstep, (after.follow_beside _ _ _).registers, hbeside.registers]
    exact .inr rfl
  | error cause link =>
    unfold step
    dsimp only
    split
    · exact .inl rfl
    · rename_i performed
      cases performed.symm.trans hperform

theorem step_of_forgiving (ho : o.Forgiving) (ram : Ram) (settings : ListSettings)
    (m : Machine σ) :
    ∃ after : Machine σ,
      after.registers = (m.visit.scene ram settings).advance (m.visit.instruction ram) ∧
      after.walk.address = m.walk.address ∧ after.walk.returns = m.walk.returns ∧
      m.step o ram settings = after.follow settings.maxDepth m.walk.address
        ((m.visit.scene ram settings).move (Instruction.fetch ram m.walk.address).2
          (m.visit.instruction ram)) := by
  obtain ⟨_, link, hperformed, _⟩ :=
    DeliverM.gives_performAll_true ho (m.visit.scene ram settings) _ m.counted
  obtain ⟨after, hbeside, haddress, hreturns, hstep⟩ := step_of_performed hperformed
  exact ⟨after, hbeside.registers, haddress, hreturns, hstep⟩

/-- What every instruction keeps, of the machines gone through, of the machine and of how the run ended
with it, holds of a whole run. -/
theorem walkFor_accumulates {R : List (Machine σ) → Machine σ → Option ListOutcome → Prop}
    (h : ∀ past m, R past m none →
      R (past ++ [m]) (m.step o ram settings).after (m.step o ram settings).ending?)
    (budget : Nat) (hm : R [] m none) :
    R (m.course o ram settings budget) (m.walkFor o ram settings budget).1
      (m.walkFor o ram settings budget).2 := by
  -- What was gone through before is part of the relation, so that the rest can start from any machine.
  induction budget generalizing m R with
  | zero => exact hm
  | succ budget ih =>
    have hafter := h [] m hm
    rw [walkFor, course]
    cases hstep : m.step o ram settings with
    | next next =>
      rw [hstep] at hafter
      exact ih (R := fun past => R (m :: past)) (fun past => h (m :: past)) hafter
    | stop last outcome =>
      rw [hstep] at hafter
      exact hafter

/-- What every instruction keeps holds before each instruction of a run and at its end. -/
theorem walkFor_keeps {P : Machine σ → Prop}
    (h : ∀ m, P m → P (m.step o ram settings).after) (budget : Nat) (hm : P m) :
    P (m.walkFor o ram settings budget).1 ∧
      ∀ before ∈ m.course o ram settings budget, P before :=
  walkFor_accumulates (R := fun past m _ => P m ∧ ∀ before ∈ past, P before)
    (fun _ m ⟨hm, hpast⟩ =>
      ⟨h m hm, List.forall_mem_append.mpr ⟨hpast, List.forall_mem_singleton.mpr hm⟩⟩)
    budget ⟨hm, List.forall_mem_nil _⟩

/-- A history that is told with each instruction keeps what it has in common with the machine. -/
theorem walkFor_tells {α : Type} {tell : α → Machine σ → α} {R : α → Machine σ → Prop}
    (h : ∀ a m, R a m → R (tell a m) (m.step o ram settings).after) (budget : Nat) {a : α}
    (hm : R a m) :
    R ((m.course o ram settings budget).foldl tell a) (m.walkFor o ram settings budget).1 := by
  refine walkFor_accumulates (R := fun past m _ => R (past.foldl tell a) m) ?_ budget hm
  intro past m hpast
  rw [List.foldl_append]
  exact h _ m hpast

/-- Through a forgiving outlet no refusal ends a run. -/
theorem walkFor_not_refused (ho : o.Forgiving) (ram : Ram) (settings : ListSettings) (budget : Nat)
    (m : Machine σ) (cause : PoolError) :
    (m.walkFor o ram settings budget).2 ≠ some (.aborted (.refused cause)) := by
  refine walkFor_accumulates (R := fun _ _ ended => ended ≠ some (.aborted (.refused cause))) ?_
    budget nofun
  intro _ m _
  obtain ⟨after, _, _, _, hstep⟩ := step_of_forgiving ho ram settings m
  rw [hstep]
  exact follow_not_refused _ _ _ _ cause

section Registers

variable {P : Registers → Prop} (h : ∀ (scene : Scene) (address : UInt32), P scene.registers →
  P (scene.advance (Instruction.fetch scene.ram address).1))

include h

/-- What carrying out an instruction keeps of the registers is also kept when it is refused. -/
theorem step_keepsRegisters (hm : P m.registers) : P (m.step o ram settings).after.registers := by
  obtain hsame | hadvanced := m.registers_step o ram settings
  · rwa [hsame]
  · rw [hadvanced]
    exact h (m.visit.scene ram settings) m.walk.address hm

theorem walkFor_keepsRegisters (budget : Nat) (hm : P m.registers) :
    P (m.walkFor o ram settings budget).1.registers :=
  (walkFor_keeps (P := fun m => P m.registers) (fun _ => step_keepsRegisters h) budget hm).1

end Registers

end Step

private theorem registers_finish (o : Outlet σ) (m : Machine σ) (outcome : ListOutcome) :
    (m.finish o outcome).1.registers = m.registers := by
  unfold finish
  split
  · rfl
  · cases DeliverM.closeBatch o m.link <;> rfl

private theorem finish_eq {o : Outlet σ} {m : Machine σ} {outcome : ListOutcome} {link : Link σ}
    (houtcome : ∀ cause, outcome ≠ .aborted (.refused cause))
    (hclosed : DeliverM.closeBatch o m.link = .ok () link) :
    m.finish o outcome = ({ m with link }, outcome) := by
  unfold finish
  split
  · exact absurd rfl (houtcome _)
  · rw [hclosed]

private theorem getD_not_refused {ended : Option ListOutcome} {cause : PoolError}
    (h : ended ≠ some (.aborted (.refused cause))) :
    ended.getD .exhausted ≠ .aborted (.refused cause) := by
  cases ended with
  | none => exact nofun
  | some outcome => exact fun hsame => h (congrArg some hsame)

end Machine

namespace ListProcessor

variable {σ : Type}

def machine (p : ListProcessor) (ram : Ram) (start : UInt32) (sink : σ) : Machine σ where
  registers := p.registers
  walk := { address := ram.clamp (p.registers.geometry.segments.resolve start) }
  link := ⟨p.delivery, p.journal, sink⟩

/-- The instructions that a run carries out, in order. -/
def visits (p : ListProcessor) (o : Outlet σ) (ram : Ram) (start : UInt32) (sink : σ) :
    List Visit :=
  ((p.machine ram start sink).course o ram p.settings p.settings.budget).map (·.visit)

/-- The machine after the last instruction of a run, with a report if there were too many. -/
def afterLast (p : ListProcessor) (start : UInt32) (walked : Machine σ × Option ListOutcome) :
    Machine σ :=
  if walked.2.isNone then walked.1.log (·.report (.budgetExhausted p.settings.budget start))
  else walked.1

private theorem afterLast_beside (p : ListProcessor) (start : UInt32)
    (walked : Machine σ × Option ListOutcome) : walked.1.Beside (p.afterLast start walked) := by
  unfold afterLast
  split <;> exact ⟨rfl, rfl, rfl, rfl, rfl⟩

theorem run_eq_finish (p : ListProcessor) (o : Outlet σ) (ram : Ram) (start : UInt32) (sink : σ) :
    let walked := (p.machine ram start sink).walkFor o ram p.settings p.settings.budget
    let finished := (p.afterLast start walked).finish o (walked.2.getD .exhausted)
    p.run o ram start sink =
      (⟨p.settings, finished.1.registers, finished.1.link.delivery, finished.1.link.journal⟩,
        finished.1.link.sink, finished.2) := rfl

theorem registers_run (p : ListProcessor) (o : Outlet σ) (ram : Ram) (start : UInt32) (sink : σ) :
    (p.run o ram start sink).1.registers =
      ((p.machine ram start sink).walkFor o ram p.settings p.settings.budget).1.registers := by
  rw [run_eq_finish]
  exact (Machine.registers_finish o _ _).trans (p.afterLast_beside start _).registers

theorem registers_notify (p : ListProcessor) (address length : UInt32) :
    (p.notify address length).registers = p.registers := by
  unfold notify
  split <;> rfl

theorem registers_endFrame (p : ListProcessor) (o : Outlet σ) (sink : σ) :
    (p.endFrame o sink).1.registers =
        { p.registers with render := p.registers.render.endFrame } ∨
      (p.endFrame o sink).1.registers = p.registers ∧
        ∃ cause, (p.endFrame o sink).2.2 = .error (.refused cause) := by
  unfold endFrame
  cases DeliverM.settle o ⟨p.delivery, p.journal, sink⟩ with
  | error cause link => exact .inr ⟨rfl, cause, rfl⟩
  | ok _ link =>
    dsimp only
    cases DeliverM.submit o .endFrame link <;> exact .inl rfl

/-- Unless a refusal ended the run, closing the batch is all that is left to do. -/
theorem run_closes {o : Outlet σ} {p : ListProcessor} {ram : Ram} {start : UInt32} {sink : σ}
    {walked : Machine σ × Option ListOutcome}
    (hwalk : (p.machine ram start sink).walkFor o ram p.settings p.settings.budget = walked)
    (hended : ∀ cause, walked.2 ≠ some (.aborted (.refused cause))) {Q : Link σ → Prop}
    (hclose : ∀ link : Link σ, walked.1.Beside ⟨walked.1.registers, walked.1.walk, link⟩ →
      DeliverM.Gives (DeliverM.closeBatch o) link fun _ => Q) :
    ∃ link, Q link ∧ p.run o ram start sink =
      (⟨p.settings, walked.1.registers, link.delivery, link.journal⟩, link.sink,
        walked.2.getD .exhausted) := by
  have hbeside := p.afterLast_beside start walked
  obtain ⟨_, link, hclosed, hlink⟩ := hclose (p.afterLast start walked).link
    ⟨rfl, hbeside.delivery, hbeside.sink, hbeside.triangles, hbeside.dropped⟩
  refine ⟨link, hlink, ?_⟩
  have hfinish := Machine.finish_eq (fun cause => Machine.getD_not_refused (hended cause)) hclosed
  rw [run_eq_finish, hwalk, hfinish, ← hbeside.registers]

theorem run_outcome {o : Outlet σ} (ho : o.Forgiving) (p : ListProcessor) (ram : Ram)
    (start : UInt32) (sink : σ) :
    (p.run o ram start sink).2.2 =
      ((p.machine ram start sink).walkFor o ram p.settings p.settings.budget).2.getD
        .exhausted := by
  have hwalk : (p.machine ram start sink).walkFor o ram p.settings p.settings.budget = _ := rfl
  obtain ⟨_, -, hrun⟩ := run_closes hwalk
    (Machine.walkFor_not_refused ho ram p.settings p.settings.budget _)
    fun link _ => ((DeliverM.lasting_true ho).closeBatch link trivial)
  rw [hrun]

theorem run_not_refused {o : Outlet σ} (ho : o.Forgiving) (p : ListProcessor) (ram : Ram)
    (start : UInt32) (sink : σ) (cause : PoolError) :
    (p.run o ram start sink).2.2 ≠ .aborted (.refused cause) := by
  rw [run_outcome ho]
  exact Machine.getD_not_refused
    (Machine.walkFor_not_refused ho ram p.settings p.settings.budget _ cause)

theorem endFrame_eq {o : Outlet σ} {p : ListProcessor} {sink : σ} {settled last : Link σ}
    {taken : Bool} (hsettle : DeliverM.settle o ⟨p.delivery, p.journal, sink⟩ = .ok () settled)
    (hsubmit : DeliverM.submit o .endFrame settled = .ok taken last) :
    p.endFrame o sink =
      (⟨p.settings, { p.registers with render := p.registers.render.endFrame }, last.delivery,
        last.journal⟩, last.sink, .ok ()) := by
  unfold endFrame
  rw [hsettle]
  dsimp only
  rw [hsubmit]

end ListProcessor

end DisplayPipeline
