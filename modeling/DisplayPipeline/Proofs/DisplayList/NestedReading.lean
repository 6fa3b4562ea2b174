import DisplayPipeline.Proofs.DisplayList.Course

/-!
# Display lists read by nesting

A call reads the list that it names to its end and then goes on after the call. A run with its own
stack of return addresses carries out the same instructions in the same order, up to its budget.
-/

namespace DisplayPipeline

namespace Scene

/-- Where the instruction at an address leads, by its opcode. -/
def onward (scene : Scene) (address : UInt32) : Move :=
  let w0 := scene.ram.read32 address
  let w1 := scene.ram.read32 (address + 4)
  let next := Instruction.following scene.ram address
  match Opcode.ofByte? (Instruction.codeOf w0) with
  | some .callList =>
    if Word.fieldNat w0 16 8 = 0 then .call (scene.locate w1) next else .goTo (scene.locate w1)
  | some .branchDepth => .goTo (scene.locate scene.registers.geometry.heldWord)
  | some .endList => .leave
  | some .cullList =>
    if scene.culls (Word.fieldNat w0 0 16 / 2) (Word.fieldNat w1 0 16 / 2) then .leave
    else .goTo next
  | some .texturedRect | some .flippedRect =>
    -- The coordinates are held in one pair of words or in two instructions.
    if Opcode.ofByte? (Instruction.codeOf (scene.ram.read32 next)) = some .halfWord1 then
      .goTo (Instruction.following scene.ram (Instruction.following scene.ram next))
    else .goTo (Instruction.following scene.ram next)
  | _ => .goTo next

end Scene

namespace Visit

end Visit

/-- How the reading of a list ends. -/
inductive Ending where
  /-- The list came to its end, with these registers. -/
  | ended (registers : Registers)
  /-- A call at this address with as many calls open as may be. -/
  | tooDeep (depth : Nat) (address : UInt32)
  /-- There was no telling within the bound on the reading. -/
  | unfinished
deriving DecidableEq, Repr

namespace Ending

def outcome? : Ending → Option ListOutcome
  | ended _ => some .completed
  | tooDeep depth address => some (.aborted (.callsTooDeep depth address))
  | unfinished => none

end Ending

/-- The instructions that are carried out in reading a list, and how that ends. -/
structure Reading where
  visits : List Visit
  ending : Ending
deriving DecidableEq, Repr

namespace Reading

def cons (v : Visit) (r : Reading) : Reading := ⟨v :: r.visits, r.ending⟩

/-- The list has ended, or a call went too deep, after at most so many instructions. -/
def EndsWithin (r : Reading) (budget : Nat) : Prop :=
  r.visits.length ≤ budget ∧ r.ending ≠ .unfinished

end Reading

section Frames

variable (ram : Ram) (settings : ListSettings)

variable {ram settings}

/-- What was done with a budget, and how that ended if it did, is the reading cut at the budget. -/
def Reading.Agrees (r : Reading) (budget : Nat) (visits : List Visit)
    (ended : Option ListOutcome) : Prop :=
  visits = r.visits.take budget ∧
    ended = if r.visits.length ≤ budget then r.ending.outcome? else none

private theorem Reading.Agrees.cons {r : Reading} {budget : Nat} {visits : List Visit}
    {ended : Option ListOutcome} (h : r.Agrees budget visits ended) (v : Visit) :
    (r.cons v).Agrees (budget + 1) (v :: visits) ended := by
  obtain ⟨hvisits, hended⟩ := h
  refine ⟨by rw [hvisits]; rfl, ?_⟩
  rw [hended]
  simp [Reading.cons]

private theorem Reading.Agrees.outcome {r : Reading} {budget : Nat} {visits : List Visit}
    {ended : Option ListOutcome} (h : r.Agrees budget visits ended) (hends : r.EndsWithin budget) :
    r.ending.outcome? = some (ended.getD .exhausted) := by
  obtain ⟨hlength, hending⟩ := hends
  rw [h.2, if_pos hlength]
  cases hending' : r.ending with
  | ended registers => rfl
  | tooDeep depth address => rfl
  | unfinished => exact absurd hending' hending

section Equations

variable {fuel : Nat} {v : Visit}

end Equations

end Frames

namespace Machine

variable {σ : Type} {o : Outlet σ} {ram : Ram} {settings : ListSettings}

end Machine

namespace ListProcessor

variable {σ : Type} {o : Outlet σ}

end ListProcessor

end DisplayPipeline
