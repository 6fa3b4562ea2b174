import DisplayPipeline.Proofs.DisplayList.Conversation
import DisplayPipeline.Proofs.DisplayList.Timeline

/-!
# All calls of a host are one dialogue

A processor that serves a host, with the sink of its outlet beside it and the replies so far. From
the first call to the last, what it submits is a dialogue of well-formed commands; a fault that the
host is told of is one of the refusals.
-/

namespace DisplayPipeline

inductive HostReply where
  | ran (outcome : ListOutcome)
  | noted
  | ended (result : Except ListFault Unit)
deriving DecidableEq, Repr

namespace HostReply

def fault? : HostReply → Option ListFault
  | ran (.aborted fault) => some fault
  | ended (.error fault) => some fault
  | _ => none

theorem ran_of_fault? {outcome : ListOutcome} {fault : ListFault}
    (h : (ran outcome).fault? = some fault) : outcome = .aborted fault := by
  cases outcome with
  | aborted other => exact congrArg _ (Option.some.inj h)
  | completed => cases h
  | exhausted => cases h

theorem ended_of_fault? {result : Except ListFault Unit} {fault : ListFault}
    (h : (ended result).fault? = some fault) : result = .error fault := by
  cases result with
  | error other => exact congrArg _ (Option.some.inj h)
  | ok _ => cases h

def Blames (A : PoolError → Prop) (reply : HostReply) : Prop :=
  ∀ cause, reply.fault? = some (.refused cause) → A cause

end HostReply

/-- A processor at the service of a host. -/
structure Hosting (σ : Type) where
  processor : ListProcessor
  sink : σ
  /-- In the order of the calls. -/
  replies : List HostReply := []

namespace Hosting

variable {σ : Type}

def start (settings : ListSettings) (sink : σ) : Hosting σ where
  processor := .ofSettings settings
  sink

def serve (o : Outlet σ) (h : Hosting σ) : HostCall → Hosting σ
  | .run ram start =>
    let (processor, sink, outcome) := h.processor.run o ram start h.sink
    ⟨processor, sink, h.replies ++ [.ran outcome]⟩
  | .notify address length =>
    ⟨h.processor.notify address length, h.sink, h.replies ++ [.noted]⟩
  | .endFrame =>
    let (processor, sink, result) := h.processor.endFrame o h.sink
    ⟨processor, sink, h.replies ++ [.ended result]⟩

def serveAll (o : Outlet σ) (h : Hosting σ) (calls : List HostCall) : Hosting σ :=
  calls.foldl (serve o) h

/-- The calls, each with the processor as it was when it was called. -/
def turns (o : Outlet σ) : Hosting σ → List HostCall → List (Hosting σ × HostCall)
  | _, [] => []
  | h, call :: calls => (h, call) :: turns o (h.serve o call) calls

/-- What every call keeps, of the turns before and of the processor, holds after all calls. -/
theorem serveAll_accumulates {o : Outlet σ} {R : List (Hosting σ × HostCall) → Hosting σ → Prop}
    (hserve : ∀ past h call, R past h → R (past ++ [(h, call)]) (h.serve o call))
    (calls : List HostCall) {h : Hosting σ} (hfirst : R [] h) :
    R (h.turns o calls) (h.serveAll o calls) := by
  induction calls generalizing h R with
  | nil => exact hfirst
  | cons call calls ih =>
    exact ih (R := fun past => R ((h, call) :: past)) (fun past => hserve ((h, call) :: past))
      (hserve [] h call hfirst)

/-- What every instruction and every end of a frame keeps of the registers, all calls keep of them. -/
theorem serveAll_keepsRegisters {o : Outlet σ} {P : Registers → Prop}
    (hadvance : ∀ (scene : Scene) (address : UInt32), P scene.registers →
      P (scene.advance (Instruction.fetch scene.ram address).1))
    (hend : ∀ r : Registers, P r → P { r with render := r.render.endFrame })
    (calls : List HostCall) {h : Hosting σ} (hfirst : P h.processor.registers) :
    P (h.serveAll o calls).processor.registers := by
  refine List.foldlRecOn (motive := fun h => P h.processor.registers) calls (serve o) hfirst ?_
  intro h hregisters call _
  cases call with
  | run ram start =>
    change P (h.processor.run o ram start h.sink).1.registers
    rw [ListProcessor.registers_run]
    exact Machine.walkFor_keepsRegisters hadvance _ hregisters
  | notify address length =>
    change P (h.processor.notify address length).registers
    rwa [ListProcessor.registers_notify]
  | endFrame =>
    change P (h.processor.endFrame o h.sink).1.registers
    obtain hended | ⟨hsame, -⟩ := h.processor.registers_endFrame o h.sink
    · rw [hended]
      exact hend _ hregisters
    · rwa [hsame]

theorem turns_append {o : Outlet σ} (h : Hosting σ) (calls more : List HostCall) :
    h.turns o (calls ++ more) = h.turns o calls ++ (h.serveAll o calls).turns o more := by
  induction calls generalizing h with
  | nil => rfl
  | cons call calls ih => exact congrArg (List.cons (h, call)) (ih (h.serve o call))

end Hosting

private def ListOutcome.Blames (A : PoolError → Prop) (outcome : ListOutcome) : Prop :=
  ∀ cause, outcome = .aborted (.refused cause) → A cause

namespace Machine

variable {σ : Type} {A : PoolError → Prop}

private def bare (m : Machine σ) : Machine Unit :=
  ⟨m.registers, m.walk, ⟨m.link.delivery, m.link.journal, ()⟩⟩

private def on (m : Machine Unit) (sink : σ) : Machine σ :=
  ⟨m.registers, m.walk, ⟨m.link.delivery, m.link.journal, sink⟩⟩

private def Step.split : Step σ → Step Unit × σ
  | .next m => (.next m.bare, m.link.sink)
  | .stop m outcome => (.stop m.bare outcome, m.link.sink)

private theorem noteUnknown_on (m : Machine Unit) (sink : σ) (code : UInt8) (address : UInt32) :
    (m.on sink).noteUnknown code address = (m.noteUnknown code address).on sink := by
  unfold noteUnknown
  dsimp only [log, on]
  split <;> rfl

private theorem note_on (m : Machine Unit) (sink : σ) (scene : Scene) (address : UInt32)
    (instruction : Instruction) :
    (m.on sink).note scene address instruction = (m.note scene address instruction).on sink := by
  unfold note
  split
  · exact noteUnknown_on m sink _ address
  · split <;> rfl
  · split <;> rfl
  · rfl

private theorem follow_on (m : Machine Unit) (sink : σ) (maxDepth : Nat) (address : UInt32)
    (move : Move) :
    ((m.on sink).follow maxDepth address move).split = (m.follow maxDepth address move, sink) := by
  cases move with
  | goTo target => rfl
  | call target back =>
    dsimp only [follow, on]
    split <;> rfl
  | leave =>
    dsimp only [follow, on]
    split <;> rfl

private def Step.Sound (A : PoolError → Prop) (s : Step Unit) : Prop :=
  s.after.link.delivery.Ready ∧ ∀ outcome, s.ending? = some outcome → outcome.Blames A

private def Left (A : PoolError → Prop) (left : Machine Unit × Option ListOutcome) : Prop :=
  left.1.link.delivery.Ready ∧ ∀ outcome, left.2 = some outcome → outcome.Blames A

variable {m : Machine Unit}

/-- How a run moves on once what an instruction asks for is delivered. -/
def moved (scene : Scene) (m : Machine σ) : Step σ :=
  let fetched := Instruction.fetch scene.ram m.walk.address
  { m.note scene m.walk.address fetched.1 with registers := scene.advance fetched.1 }.follow
    scene.settings.maxDepth m.walk.address (scene.move fetched.2 fetched.1)

private theorem moved_on (scene : Scene) (m : Machine Unit) (sink : σ) :
    ((m.on sink).moved scene).split = (m.moved scene, sink) := by
  have hnote := m.note_on sink scene m.walk.address (Instruction.fetch scene.ram m.walk.address).1
  unfold moved
  dsimp only
  rw [show (m.on sink).walk.address = m.walk.address from rfl, hnote]
  exact follow_on { m.note scene m.walk.address (Instruction.fetch scene.ram m.walk.address).1 with
    registers := scene.advance (Instruction.fetch scene.ram m.walk.address).1 } sink _ _ _

theorem step_eq (o : Outlet σ) (ram : Ram) (settings : ListSettings) (m : Machine σ) :
    m.step o ram settings =
      match DeliverM.performAll o (m.visit.scene ram settings)
        ((m.visit.scene ram settings).requests (m.visit.instruction ram)) m.counted with
      | .error cause link => .stop ⟨m.registers, m.walk, link⟩ (.aborted (.refused cause))
      | .ok () link => moved (m.visit.scene ram settings) ⟨m.registers, m.walk, link⟩ := by
  unfold step
  rfl

private def moveOn (scene : Scene) (m : Machine Unit) : DeliverM.Outcome Unit → Step Unit
  | (.error cause, d, j) => .stop ⟨m.registers, m.walk, ⟨d, j, ()⟩⟩ (.aborted (.refused cause))
  | (.ok (), d, j) => moved scene ⟨m.registers, m.walk, ⟨d, j, ()⟩⟩

private theorem moveOn_sound (scene : Scene) {e : DeliverM.Outcome Unit}
    (he : DeliverM.Outcome.As A (fun _ after => after.Ready) e) : (m.moveOn scene e).Sound A := by
  obtain ⟨cause | _, d, j⟩ := e
  · obtain ⟨hcause, hready⟩ := he
    refine ⟨hready, ?_⟩
    rintro outcome ⟨⟩ other ⟨⟩
    exact hcause
  · let delivered : Machine Unit := ⟨m.registers, m.walk, ⟨d, j, ()⟩⟩
    let fetched := Instruction.fetch scene.ram m.walk.address
    have hd : d.Ready := he
    obtain ⟨hnote, -, -⟩ := note_beside delivered scene m.walk.address fetched.1
    constructor
    · refine hd.congr (congrArg Delivery.batch ?_)
      exact (follow_beside _ _ _ _).delivery.trans hnote.delivery
    · intro outcome houtcome cause hcause
      rw [hcause] at houtcome
      exact absurd houtcome (follow_not_refused _ _ _ _ cause)

private theorem step_speaks (hm : m.link.delivery.Ready) (ram : Ram) (settings : ListSettings) :
    Exchange.Speaks Command.WellFormed
      (fun _ o sink => ((m.on sink).step o ram settings).split) Step.Sound := by
  let scene := m.visit.scene ram settings
  have hresult {σ : Type} (result : EStateM.Result PoolError (Link σ) Unit) :
      Step.split (match result with
        | .error cause link => .stop ⟨m.registers, m.walk, link⟩ (.aborted (.refused cause))
        | .ok () link => moved scene ⟨m.registers, m.walk, link⟩) =
        (m.moveOn scene (DeliverM.split result).1, (DeliverM.split result).2) := by
    cases result with
    | error cause link => rfl
    | ok _ link => exact moved_on scene ⟨m.registers, m.walk, ⟨link.delivery, link.journal, ()⟩⟩ _
  have hperform := DeliverM.talks_performAll hm scene
    (scene.suits_requests (m.visit.instruction ram)) m.counted.journal
  refine hperform.map (f := m.moveOn scene) (fun A e he => moveOn_sound scene he) ?_
  intro σ o sink
  rw [step_eq]
  exact hresult _

private def walkOn (ram : Ram) (settings : ListSettings) (budget : Nat) :
    Step Unit → Exchange (Machine Unit × Option ListOutcome)
  | .next next => fun _ o sink =>
    let walked := (next.on sink).walkFor o ram settings budget
    ((walked.1.bare, walked.2), walked.1.link.sink)
  | .stop last outcome => fun _ _ sink => ((last, some outcome), sink)

private theorem walkFor_speaks (hm : m.link.delivery.Ready) (ram : Ram) (settings : ListSettings)
    (budget : Nat) :
    Exchange.Speaks Command.WellFormed (walkOn ram settings budget (.next m)) Left := by
  -- What one instruction leaves for the next is room in the batch.
  induction budget generalizing m with
  | zero => exact Exchange.speaks_done (a := (m, none)) (fun _ => ⟨hm, nofun⟩) fun _ _ _ => rfl
  | succ budget ih =>
    refine (step_speaks hm ram settings).bind (y := walkOn ram settings budget) ?_ ?_
    · rintro (next | ⟨last, outcome⟩) ⟨A, hready, -⟩
      · exact (ih hready).imp fun B left hleft _ => hleft
      · exact Exchange.speaks_done (a := (last, some outcome)) (fun B hstep => hstep)
          fun _ _ _ => rfl
    · intro σ o sink
      unfold walkOn
      dsimp only
      rw [walkFor]
      cases (m.on sink).step o ram settings <;> rfl

private def finishOn (m : Machine Unit) (outcome : ListOutcome) : Exchange
    (Machine Unit × ListOutcome) :=
  fun _ o sink =>
    let finished := (m.on sink).finish o outcome
    ((finished.1.bare, finished.2), finished.1.link.sink)

private def closed (m : Machine Unit) (outcome : ListOutcome) :
    DeliverM.Outcome Unit → Machine Unit × ListOutcome
  | (.error cause, d, j) => (⟨m.registers, m.walk, ⟨d, j, ()⟩⟩, .aborted (.refused cause))
  | (.ok (), d, j) => (⟨m.registers, m.walk, ⟨d, j, ()⟩⟩, outcome)

private theorem finish_speaks (hm : m.link.delivery.Ready) (outcome : ListOutcome) :
    Exchange.Speaks Command.WellFormed (m.finishOn outcome) fun A finished =>
      finished.1.link.delivery.Ready ∧ (outcome.Blames A → finished.2.Blames A) := by
  by_cases hrefused : ∃ cause, outcome = .aborted (.refused cause)
  · -- After such a refusal the batch is not closed.
    obtain ⟨cause, rfl⟩ := hrefused
    exact Exchange.speaks_done (a := (m, _)) (fun A => ⟨hm, id⟩) fun _ _ _ => rfl
  · refine (DeliverM.talks_closeBatch hm.sound m.link.journal).map (f := m.closed outcome) ?_ ?_
    · rintro A ⟨cause | _, d, j⟩ he
      · refine ⟨he.2, fun _ other hother => ?_⟩
        cases hother
        exact he.1
      · have hnone : d.batch = none := he
        exact ⟨Delivery.ready_of_none hnone, id⟩
    · intro σ o sink
      unfold finishOn finish
      dsimp only
      split
      · rename_i cause
        exact absurd ⟨cause, rfl⟩ hrefused
      · change _ = Prod.map (m.closed outcome) id
          (DeliverM.split (DeliverM.closeBatch o (m.on sink).link))
        cases DeliverM.closeBatch o (m.on sink).link <;> rfl

end Machine

namespace ListProcessor

variable {p : ListProcessor}

private def runOn (p : ListProcessor) (ram : Ram) (start : UInt32) :
    Exchange (ListProcessor × ListOutcome) := fun _ o sink =>
  let result := p.run o ram start sink
  ((result.1, result.2.2), result.2.1)

private def leftBy (p : ListProcessor) (m : Machine Unit) : ListProcessor :=
  ⟨p.settings, m.registers, m.link.delivery, m.link.journal⟩

private theorem run_speaks (hp : p.delivery.Ready) (ram : Ram) (start : UInt32) :
    Exchange.Speaks Command.WellFormed (p.runOn ram start) fun A result =>
      result.1.delivery.Ready ∧ result.2.Blames A := by
  let m := p.machine ram start ()
  refine (m.walkFor_speaks hp ram p.settings p.settings.budget).bind
    (y := fun left σ o sink =>
      let result := (p.afterLast start left).finishOn (left.2.getD .exhausted) σ o sink
      ((p.leftBy result.1.1, result.1.2), result.2)) ?_ ?_
  · rintro ⟨last, ended⟩ ⟨A, hready, -⟩
    have hreported : (p.afterLast start (last, ended)).link.delivery.Ready := by
      refine hready.congr ?_
      unfold afterLast
      split <;> rfl
    refine (Machine.finish_speaks hreported (ended.getD .exhausted)).map
      (f := fun finished => (p.leftBy finished.1, finished.2)) ?_ fun _ _ _ => rfl
    intro B finished hfinished hleft
    refine ⟨hfinished.1, hfinished.2 ?_⟩
    cases ended with
    | none => exact fun _ hnone => nomatch hnone
    | some outcome => exact hleft.2 outcome rfl
  · intro σ o sink
    have hresult (walked : Machine σ × Option ListOutcome) :
        (if walked.2.isNone then
          walked.1.log (·.report (.budgetExhausted p.settings.budget start)) else walked.1) =
          (p.afterLast start (walked.1.bare, walked.2)).on walked.1.link.sink := by
      unfold afterLast
      split <;> rfl
    unfold runOn run
    dsimp only
    rw [hresult]
    rfl

theorem notify_delivery (p : ListProcessor) (address length : UInt32) :
    ∃ writes, (p.notify address length).delivery = { p.delivery with writes } := by
  unfold notify
  split
  · exact ⟨p.delivery.writes, rfl⟩
  · exact ⟨p.delivery.writes ++ [⟨address, length⟩], rfl⟩

private def endFrameOn (p : ListProcessor) : Exchange (ListProcessor × Except ListFault Unit) :=
  fun _ o sink =>
    let result := p.endFrame o sink
    ((result.1, result.2.2), result.2.1)

private def submitEnd (p : ListProcessor) :
    DeliverM.Outcome Unit → Exchange (ListProcessor × Except ListFault Unit)
  | (.error cause, d, j) => fun _ _ sink =>
    (({ p with delivery := d, journal := j }, .error (.refused cause)), sink)
  | (.ok (), d, j) => fun _ o sink =>
    let ended := DeliverM.split (DeliverM.submit o .endFrame ⟨d, j, sink⟩)
    ((⟨p.settings, { p.registers with render := p.registers.render.endFrame }, ended.1.2.1,
      ended.1.2.2⟩, (ended.1.1.map fun _ => ()).mapError .refused), ended.2)

private theorem endFrame_speaks (hp : p.delivery.Ready) :
    Exchange.Speaks Command.WellFormed p.endFrameOn fun A result =>
      result.1.delivery.Ready ∧ ∀ cause, result.2 = .error (.refused cause) → A cause := by
  refine (DeliverM.talks_settle hp.sound p.journal).bind (y := p.submitEnd) ?_ ?_
  · rintro ⟨cause | _, d, j⟩ ⟨A, he⟩
    · refine Exchange.speaks_done (fun B he => ⟨he.2, fun other hother => ?_⟩) fun _ _ _ => rfl
      cases hother
      exact he.1
    · have hready : d.Ready := Delivery.ready_of_none he
      have hsubmit : DeliverM.Talks (fun _ o => DeliverM.submit o .endFrame) d
          fun _ after => after.Ready :=
        DeliverM.talks_submit Command.wellFormed_endFrame hready hready (hready.congr rfl)
      refine (hsubmit j).map (f := fun e =>
        (⟨p.settings, { p.registers with render := p.registers.render.endFrame }, e.2.1, e.2.2⟩,
          (e.1.map fun _ => ()).mapError .refused)) ?_ fun _ _ _ => rfl
      rintro B ⟨cause | accepted, after, k⟩ hend -
      · refine ⟨hend.2, fun other hother => ?_⟩
        cases hother
        exact hend.1
      · exact ⟨hend, nofun⟩
  · intro σ o sink
    unfold endFrameOn endFrame
    dsimp only
    cases DeliverM.settle o ⟨p.delivery, p.journal, sink⟩ with
    | error cause link => rfl
    | ok _ link =>
      dsimp only [DeliverM.split, submitEnd]
      cases DeliverM.submit o .endFrame link <;> rfl

end ListProcessor

namespace Hosting

variable {p : ListProcessor}

def split {σ : Type} (h : Hosting σ) : (ListProcessor × List HostReply) × σ :=
  ((h.processor, h.replies), h.sink)

private def Sound (replies : List HostReply) (A : PoolError → Prop)
    (served : ListProcessor × List HostReply) : Prop :=
  served.1.delivery.Ready ∧
    ((∀ reply ∈ replies, reply.Blames A) → ∀ reply ∈ served.2, reply.Blames A)

private theorem sound_append {replies : List HostReply} {A : PoolError → Prop} {reply : HostReply}
    (hp : p.delivery.Ready) (h : reply.Blames A) : Sound replies A (p, replies ++ [reply]) :=
  ⟨hp, fun hreplies => List.forall_mem_append.mpr ⟨hreplies, List.forall_mem_singleton.mpr h⟩⟩

private theorem serve_speaks (hp : p.delivery.Ready) (replies : List HostReply) (call : HostCall) :
    Exchange.Speaks Command.WellFormed
      (fun σ o sink => ((⟨p, sink, replies⟩ : Hosting σ).serve o call).split) (Sound replies) := by
  cases call with
  | run ram start =>
    refine (ListProcessor.run_speaks hp ram start).map
      (f := fun result => (result.1, replies ++ [.ran result.2])) ?_ fun _ _ _ => rfl
    rintro A ⟨after, outcome⟩ ⟨hafter, hblames⟩
    exact sound_append hafter fun cause hcause => hblames cause (HostReply.ran_of_fault? hcause)
  | notify address length =>
    refine Exchange.speaks_done (a := (p.notify address length, replies ++ [.noted]))
      (fun A => sound_append ?_ nofun) fun _ _ _ => rfl
    obtain ⟨writes, hnoted⟩ := p.notify_delivery address length
    refine hp.congr ?_
    rw [hnoted]
  | endFrame =>
    refine (ListProcessor.endFrame_speaks hp).map
      (f := fun result => (result.1, replies ++ [.ended result.2])) ?_ fun _ _ _ => rfl
    rintro A ⟨after, result⟩ ⟨hafter, hblames⟩
    exact sound_append hafter fun cause hcause => hblames cause (HostReply.ended_of_fault? hcause)

private theorem serveAll_speaks (hp : p.delivery.Ready) (replies : List HostReply)
    (calls : List HostCall) :
    Exchange.Speaks Command.WellFormed
      (fun σ o sink => ((⟨p, sink, replies⟩ : Hosting σ).serveAll o calls).split)
      (Sound replies) := by
  induction calls generalizing p replies with
  | nil => exact Exchange.speaks_done (a := (p, replies)) (fun _ => ⟨hp, id⟩) fun _ _ _ => rfl
  | cons call calls ih =>
    refine (serve_speaks hp replies call).bind
      (y := fun served σ o sink =>
        ((⟨served.1, sink, served.2⟩ : Hosting σ).serveAll o calls).split) ?_ fun _ _ _ => rfl
    rintro ⟨after, told⟩ ⟨A, hafter, -⟩
    exact (ih hafter told).imp fun B last hlast hserved =>
      ⟨hlast.1, fun hreplies => hlast.2 (hserved.2 hreplies)⟩

/-- Whatever a host asks of a new processor is one dialogue of well-formed commands with any outlet,
and a refusal that the host is told of is one of those that the outlet gave. -/
theorem start_speaks (settings : ListSettings) (calls : List HostCall) :
    Exchange.Speaks Command.WellFormed
      (fun _ o sink => ((start settings sink).serveAll o calls).split)
      fun A served => ∀ reply ∈ served.2, reply.Blames A :=
  (serveAll_speaks (p := .ofSettings settings) (Delivery.ready_of_none rfl) [] calls).imp
    fun _ _ hserved => hserved.2 fun _ hnone => absurd hnone List.not_mem_nil

end Hosting

end DisplayPipeline
