import DisplayPipeline.Proofs.DisplayList.Essence
import DisplayPipeline.Proofs.DisplayList.Hosting
import DisplayPipeline.Proofs.DisplayList.RegisterDelivery

/-!
# What a run owes to refusals

Two runs of the same list whose sinks refuse different submissions go the same way, as long as no
refusal is final: before each instruction the two machines are abreast, which is that they differ in
nothing but what the renderer is known to know, in the reports, and in how often something was
refused.
-/

namespace DisplayPipeline

variable {σ τ : Type}

namespace Machine

/-- The machines differ in nothing but what refusals touch. -/
structure Abreast (m : Machine (Traced σ)) (n : Machine (Traced τ)) : Prop where
  registers : m.registers = n.registers
  walk : m.walk = n.walk
  essence : m.link.essence = n.link.essence

def Step.Abreast : Step (Traced σ) → Step (Traced τ) → Prop
  | .next m, .next n => m.Abreast n
  | .stop m outcome, .stop n other => outcome = other ∧ m.Abreast n
  | _, _ => False

def Refused (ended : Option ListOutcome) : Prop :=
  ∃ cause, ended = some (.aborted (.refused cause))

variable {o : Outlet σ} {u : Outlet τ} {m : Machine (Traced σ)} {n : Machine (Traced τ)}

private theorem Abreast.log {f : Journal → Journal} (g : ListTally → ListTally) (h : m.Abreast n)
    (hf : ∀ j, (f j).tally.served = g j.tally.served) : (m.log f).Abreast (n.log f) where
  registers := h.registers
  walk := h.walk
  essence := by
    have htally : m.link.journal.tally.served = n.link.journal.tally.served :=
      congrArg Essence.tally h.essence
    have hnew : (f m.link.journal).tally.served = (f n.link.journal).tally.served := by
      rw [hf, hf, htally]
    exact congrArg₂ (fun (e : Essence) tally => { e with tally }) h.essence hnew

private theorem Abreast.visit (h : m.Abreast n) : m.visit = n.visit := by
  rw [Machine.visit, Machine.visit, h.walk, h.registers]

private theorem Abreast.withWalk (h : m.Abreast n) (walk : Walk → Walk) :
    Abreast { m with walk := walk m.walk } { n with walk := walk n.walk } :=
  ⟨h.registers, congrArg walk h.walk, h.essence⟩

private theorem Abreast.withRegisters (h : m.Abreast n) (registers : Registers) :
    Abreast { m with registers } { n with registers } :=
  ⟨rfl, h.walk, h.essence⟩

private theorem Abreast.noteUnknown (h : m.Abreast n) (code : UInt8) (address : UInt32) :
    (m.noteUnknown code address).Abreast (n.noteUnknown code address) := by
  have hcounted := h.log (f := fun j =>
    { j with tally.unknownOpcodes := j.tally.unknownOpcodes + 1 })
    (fun tally => { tally with unknownOpcodes := tally.unknownOpcodes + 1 }) fun _ => rfl
  have hreported := (hcounted.log (f := (·.report (.unknownOpcode code address))) id
    fun _ => rfl).withWalk fun walk => { walk with reported := walk.reported.insert code }
  have hsame : n.walk.reported.contains code = m.walk.reported.contains code := by rw [h.walk]
  unfold Machine.noteUnknown
  change Abreast (if m.walk.reported.contains code then _ else _)
    (if n.walk.reported.contains code then _ else _)
  rw [hsame]
  split
  · exact hcounted
  · exact hreported

private theorem Abreast.note (h : m.Abreast n) (scene : Scene) (address : UInt32)
    (instruction : Instruction) :
    (m.note scene address instruction).Abreast (n.note scene address instruction) := by
  unfold Machine.note
  split
  · exact h.noteUnknown _ address
  · split
    · exact h.log id fun _ => rfl
    · exact h
  · split
    · exact h.log (fun tally => { tally with culledLists := tally.culledLists + 1 }) fun _ => rfl
    · exact h
  · exact h

private theorem Abreast.follow (h : m.Abreast n) (maxDepth : Nat) (address : UInt32) (move : Move) :
    (m.follow maxDepth address move).Abreast (n.follow maxDepth address move) := by
  cases move with
  | goTo target => exact h.withWalk ({ · with address := target })
  | call target back =>
    have hdepth : n.walk.returns.size = m.walk.returns.size := by rw [h.walk]
    simp only [Machine.follow, hdepth]
    split
    · refine ⟨rfl, ?_⟩
      exact h.log (fun tally => { tally with stackOverflows := tally.stackOverflows + 1 })
        fun _ => rfl
    · exact h.withWalk fun walk =>
        { walk with address := target, returns := walk.returns.push back }
  | leave =>
    have hback : n.walk.returns.back? = m.walk.returns.back? := by rw [h.walk]
    simp only [Machine.follow, hback]
    cases m.walk.returns.back? with
    | none => exact ⟨rfl, h⟩
    | some back =>
      exact h.withWalk fun walk => { walk with address := back, returns := walk.returns.pop }

private theorem Abreast.moved (h : m.Abreast n) (scene : Scene) : (m.moved scene).Abreast
    (n.moved scene) := by
  unfold Machine.moved
  rw [h.walk]
  exact ((h.note scene _ _).withRegisters _).follow _ _ _

/-- An instruction keeps machines abreast, unless one of the runs ends there with a final refusal. -/
theorem Abreast.step (h : m.Abreast n) (ram : Ram) (settings : ListSettings) :
    Refused (m.step o.traced ram settings).ending? ∨ Refused (n.step u.traced ram settings).ending? ∨
      (m.step o.traced ram settings).Abreast (n.step u.traced ram settings) := by
  let scene := m.visit.scene ram settings
  have hcounted : m.counted.essence = n.counted.essence :=
    (h.log (f := fun j => { j with tally.commands := j.tally.commands + 1 })
      (fun tally => { tally with commands := tally.commands + 1 }) fun _ => rfl).essence
  rw [step_eq, step_eq, ← h.visit]
  have hfirst := DeliverM.comesTo_performAll (o := o) scene
    (scene.requests (m.visit.instruction ram)) (rfl : m.counted.essence = _)
  have hsecond := DeliverM.comesTo_performAll (o := u) scene
    (scene.requests (m.visit.instruction ram)) hcounted.symm
  cases hm : DeliverM.performAll o.traced scene (scene.requests (m.visit.instruction ram))
      m.counted with
  | error cause link => exact Or.inl ⟨cause, rfl⟩
  | ok _ link =>
    cases hn : DeliverM.performAll u.traced scene (scene.requests (m.visit.instruction ram))
        n.counted with
    | error cause other => exact Or.inr (Or.inl ⟨cause, rfl⟩)
    | ok _ other =>
      have hessence : link.essence = other.essence :=
        (hfirst.of_ok hm).trans (hsecond.of_ok hn).symm
      have hperformed : Abreast ⟨m.registers, m.walk, link⟩ ⟨n.registers, n.walk, other⟩ :=
        ⟨h.registers, h.walk, hessence⟩
      exact Or.inr (Or.inr (hperformed.moved scene))

/-- Two runs that are abreast at first go the same way and end so. -/
theorem Abreast.walkFor (ram : Ram) (settings : ListSettings) (budget : Nat) (h : m.Abreast n)
    (hm : ¬ Refused (m.walkFor o.traced ram settings budget).2)
    (hn : ¬ Refused (n.walkFor u.traced ram settings budget).2) :
    (m.walkFor o.traced ram settings budget).2 = (n.walkFor u.traced ram settings budget).2 ∧
      (m.walkFor o.traced ram settings budget).1.Abreast
        (n.walkFor u.traced ram settings budget).1 ∧
      (m.course o.traced ram settings budget).map (·.visit) =
        (n.course u.traced ram settings budget).map (·.visit) := by
  induction budget generalizing m n with
  | zero => exact ⟨rfl, h, rfl⟩
  | succ budget ih =>
    have hstep := h.step (o := o) (u := u) ram settings
    rw [Machine.walkFor] at hm hn ⊢
    rw [Machine.walkFor, course, course, List.map_cons, List.map_cons, h.visit]
    cases hfirst : m.step o.traced ram settings with
    | next next =>
      cases hsecond : n.step u.traced ram settings with
      | next other =>
        rw [hfirst, hsecond] at hstep
        rw [hfirst] at hm
        rw [hsecond] at hn
        rcases hstep with ⟨_, ⟨⟩⟩ | ⟨_, ⟨⟩⟩ | hnext
        obtain ⟨hended, hlast, hcourse⟩ := ih hnext hm hn
        exact ⟨hended, hlast, congrArg _ hcourse⟩
      | stop last outcome =>
        rw [hfirst, hsecond] at hstep
        rw [hsecond] at hn
        rcases hstep with ⟨_, ⟨⟩⟩ | hrefused | hnever
        · exact absurd hrefused hn
        · exact False.elim hnever
    | stop last outcome =>
      rw [hfirst] at hm
      cases hsecond : n.step u.traced ram settings with
      | next other =>
        rw [hfirst, hsecond] at hstep
        rcases hstep with hrefused | ⟨_, ⟨⟩⟩ | hnever
        · exact absurd hrefused hm
        · exact False.elim hnever
      | stop other ended =>
        rw [hfirst, hsecond] at hstep
        rw [hsecond] at hn
        rcases hstep with hrefused | hrefused | ⟨hended, hlast⟩
        · exact absurd hrefused hm
        · exact absurd hrefused hn
        · exact ⟨congrArg some hended, hlast, rfl⟩

private theorem finish_of_not_refused {outcome : ListOutcome}
    (h : ∀ cause, (m.finish o.traced outcome).2 ≠ .aborted (.refused cause)) :
    (∀ cause, outcome ≠ .aborted (.refused cause)) ∧
      ∃ link, DeliverM.closeBatch o.traced m.link = .ok () link ∧
        m.finish o.traced outcome = ({ m with link }, outcome) := by
  have houtcome (cause : PoolError) : outcome ≠ .aborted (.refused cause) := by
    rintro rfl
    exact h cause rfl
  unfold finish at h ⊢
  split at h
  · rename_i cause
    exact absurd rfl (h cause)
  · cases hclosed : DeliverM.closeBatch o.traced m.link with
    | error cause link =>
      rw [hclosed] at h
      exact absurd rfl (h cause)
    | ok _ link => exact ⟨houtcome, link, rfl, rfl⟩

private theorem Abreast.finish (h : m.Abreast n) {outcome : ListOutcome}
    (hm : ∀ cause, (m.finish o.traced outcome).2 ≠ .aborted (.refused cause))
    (hn : ∀ cause, (n.finish u.traced outcome).2 ≠ .aborted (.refused cause)) :
    (m.finish o.traced outcome).2 = (n.finish u.traced outcome).2 ∧
      (m.finish o.traced outcome).1.Abreast (n.finish u.traced outcome).1 := by
  obtain ⟨-, link, hclosed, hfinished⟩ := finish_of_not_refused hm
  obtain ⟨-, other, hclosed', hfinished'⟩ := finish_of_not_refused hn
  have hfirst := (DeliverM.comesTo_closeBatch (o := o) h.essence).of_ok hclosed
  have hsecond := (DeliverM.comesTo_closeBatch (o := u) (rfl : n.link.essence = _)).of_ok hclosed'
  rw [hfinished, hfinished']
  exact ⟨rfl, h.registers, h.walk, hfirst.trans hsecond.symm⟩

end Machine

namespace ListProcessor

private theorem afterLast_abreast (p : ListProcessor) (start : UInt32)
    {walked : Machine (Traced σ) × Option ListOutcome}
    {other : Machine (Traced τ) × Option ListOutcome} (hended : walked.2 = other.2)
    (h : walked.1.Abreast other.1) : (p.afterLast start walked).Abreast (p.afterLast start other) := by
  unfold afterLast
  rw [hended]
  split
  · exact h.log id fun _ => rfl
  · exact h

/-- Two runs from the same state, through outlets that refuse what they like, carry out the same
instructions with the same registers before each and after the last, and end with the same outcome.
They submit the same draws, fills and reports of writes in the same order, and their counts differ in
refusals only. Neither is to end with a final refusal. -/
theorem run_indifferent (p : ListProcessor) (ram : Ram) (start : UInt32) (o : Outlet σ) (sink : σ)
    (u : Outlet τ) (other : τ)
    (hfirst : ∀ cause, (p.run o.traced ram start ⟨sink, []⟩).2.2 ≠ .aborted (.refused cause))
    (hsecond : ∀ cause, (p.run u.traced ram start ⟨other, []⟩).2.2 ≠ .aborted (.refused cause)) :
    let first := p.run o.traced ram start ⟨sink, []⟩
    let second := p.run u.traced ram start ⟨other, []⟩
    first.2.2 = second.2.2 ∧
      p.visits o.traced ram start ⟨sink, []⟩ = p.visits u.traced ram start ⟨other, []⟩ ∧
      first.2.1.essential = second.2.1.essential ∧
      first.1.registers = second.1.registers ∧
      first.1.journal.tally.served = second.1.journal.tally.served := by
  have hstart : (p.machine ram start (⟨sink, []⟩ : Traced σ)).Abreast
      (p.machine ram start (⟨other, []⟩ : Traced τ)) := ⟨rfl, rfl, rfl⟩
  have hnot {walked : Option ListOutcome}
      (h : ∀ cause, walked.getD .exhausted ≠ .aborted (.refused cause)) :
      ¬ Machine.Refused walked := by
    rintro ⟨cause, rfl⟩
    exact h cause rfl
  obtain ⟨hended, habreast, hvisits⟩ := hstart.walkFor ram p.settings p.settings.budget
    (hnot (Machine.finish_of_not_refused hfirst).1)
    (hnot (Machine.finish_of_not_refused hsecond).1)
  rw [run_eq_finish] at hfirst hsecond ⊢
  rw [run_eq_finish p u.traced]
  rw [← hended] at hsecond ⊢
  obtain ⟨houtcome, hlast⟩ := (p.afterLast_abreast start hended habreast).finish hfirst hsecond
  exact ⟨houtcome, hvisits, congrArg Essence.commands hlast.essence, hlast.registers,
    congrArg Essence.tally hlast.essence⟩

/-- A refusal leads to more commands, and to the same two rectangles. -/
theorem run_indifferent_twoRects :
    let p := ofSettings {}
    let first := p.run (Outlet.refusingOnly 1).traced Narrated.twoRectsRam 0 ⟨0, []⟩
    let second := p.run Outlet.accepting.traced Narrated.twoRectsRam 0 ⟨(), []⟩
    first.2.2 = second.2.2 ∧ first.2.1.essential = second.2.1.essential ∧
      first.2.1.essential.length = 2 ∧
      first.2.1.attempts.length = 8 ∧ second.2.1.attempts.length = 6 := by
  intro p first second
  have hfirst := run_not_refused (Outlet.refusingOnly_forgiving 1).traced p Narrated.twoRectsRam 0
    ⟨0, []⟩
  have hsecond := run_not_refused Outlet.accepting_forgiving.traced p Narrated.twoRectsRam 0
    ⟨(), []⟩
  have h := run_indifferent p Narrated.twoRectsRam 0 (Outlet.refusingOnly 1) 0 Outlet.accepting ()
    hfirst hsecond
  exact ⟨h.1, h.2.2.1, by decide +kernel, by decide +kernel, by decide +kernel⟩

end ListProcessor

end DisplayPipeline
