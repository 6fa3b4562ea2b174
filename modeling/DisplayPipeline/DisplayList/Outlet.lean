import DisplayPipeline.Command.Encode
import DisplayPipeline.Ring.Pool

/-!
# Outlets

Where the commands of display lists go. A refusal is final if no later command can be expected to
get through.
-/

namespace DisplayPipeline

/-- Whether nothing more can be submitted after this error. -/
def PoolError.isFinal : PoolError → Bool
  | .closed | .tooLarge .. => true
  | .timeout _ | .invalidPointer | .overflow .. => false

/-- A place that takes commands, with a state of its own. -/
structure Outlet (σ : Type) where
  submit : Command → σ → σ × Except PoolError Unit

namespace Outlet

/-- Writes commands to a pool, one claim for each. -/
def pool : Outlet Pool where
  submit command p := p.push command.encode

/-- Keeps to the outlet whose state it is given. -/
def either {σ τ : Type} (a : Outlet σ) (b : Outlet τ) : Outlet (σ ⊕ τ) where
  submit command
    | .inl s =>
      let (s, answer) := a.submit command s
      (.inl s, answer)
    | .inr t =>
      let (t, answer) := b.submit command t
      (.inr t, answer)

end Outlet

/-- What was submitted, and what became of it. -/
structure Attempt where
  command : Command
  /-- Why it was refused, if it was. -/
  refusal : Option PoolError
deriving DecidableEq, Repr

/-- A record of what is submitted. -/
structure Recording where
  attempts : Array Attempt := #[]
  /-- The answers to the next submissions; none stands for acceptance. -/
  fates : List (Option PoolError) := []
deriving DecidableEq, Repr

namespace Recording

/-- Keeps a submission and answers it as planned. Without a plan everything is accepted. -/
def submit (command : Command) (r : Recording) : Recording × Except PoolError Unit :=
  let refusal := r.fates.head?.join
  ({ attempts := r.attempts.push ⟨command, refusal⟩, fates := r.fates.tail },
    match refusal with
    | none => .ok ()
    | some cause => .error cause)

/-- The commands that were accepted, in order. -/
def accepted (r : Recording) : List Command :=
  (r.attempts.toList.filter fun a => a.refusal.isNone).map (·.command)

end Recording

def Outlet.recording : Outlet Recording where
  submit := Recording.submit

end DisplayPipeline
