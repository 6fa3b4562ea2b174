import DisplayPipeline.Renderer.Basic

/-!
# Rendering from a pool

The consumer's side of a pool: commands are taken in order, carried out, and only then given back,
so that an idle pool means that all work is done.
-/

namespace DisplayPipeline.Renderer

/-- Carries out the command written in a claim. Bytes that are no command are reported and
dropped. -/
def executeBytes (r : Renderer) (bytes : List UInt8) : Renderer :=
  match Command.decode bytes with
  | .ok command => r.execute command
  | .error cause =>
    { r with
      tally := { r.tally with decodeErrors := r.tally.decodeErrors + 1 }
      events := r.events.push (.malformedCommand cause) }

/-- Carries out the command in a claim that the pool handed out, and gives the claim back. -/
def serve (r : Renderer) (p : Pool) (pointer : ClaimPointer) : Renderer × Pool :=
  let r :=
    match p.read pointer with
    | .ok bytes => r.executeBytes bytes
    | .error cause => { r with events := r.events.push (.readFailed cause) }
  match p.release pointer with
  | (p, .ok ()) => (r, p)
  | (p, .error cause) => ({ r with events := r.events.push (.releaseFailed cause) }, p)

def serveUpTo (limit : Nat) (r : Renderer) (p : Pool) : Renderer × Pool :=
  match limit with
  | 0 => (r, p)
  | n + 1 =>
    match p.next with
    | (p, none) => (r, p)
    | (p, some pointer) =>
      let (r, p) := r.serve p pointer
      serveUpTo n r p

/-- Serves every claim that is ready. No more claims can be ready than are held. -/
def consume (r : Renderer) (p : Pool) : Renderer × Pool := serveUpTo p.claims.length r p

end DisplayPipeline.Renderer
