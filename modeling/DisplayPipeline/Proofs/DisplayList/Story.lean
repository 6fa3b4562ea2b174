import DisplayPipeline.Proofs.DisplayList.Batching
import DisplayPipeline.Proofs.DisplayList.Timeline

/-!
# Stories

What was submitted, when batches were opened and what was added to them, in the order in which it
happened. A story is computed from the states that a processor goes through, whatever the outlet
answers.
-/

namespace DisplayPipeline

variable {σ : Type}

inductive Event where
  | attempted (attempt : Attempt)
  /-- A texture register was set, or a write to memory was reported. -/
  | changed
  /-- A batch was opened, and this was submitted on the way. -/
  | opened (opening : Opening) (attempts : List Attempt)
  /-- A primitive was added to the batch. -/
  | recorded (scene : Scene) (primitive : Primitive)

/-- What happened, the latest first. -/
abbrev Story := List Event

namespace Story

/-- The submissions, in order. -/
def attempts (s : Story) : List Attempt :=
  (s.filterMap fun
    | .attempted a => some a
    | _ => none).reverse

def hear (s : Story) (attempts : List Attempt) : Story :=
  attempts.foldl (fun s a => .attempted a :: s) s

/-- The story with what was submitted since. -/
def upTo (s : Story) (trace : Traced σ) : Story := s.hear (trace.attempts.drop s.attempts.length)

/-- The last batch that was opened, and what was submitted on the way. -/
def opening? (s : Story) : Option (Opening × List Attempt) :=
  s.findSome? fun
    | .opened o attempts => some (o, attempts)
    | _ => none

/-- What was added to the batch since it was opened or drawn, in order. -/
def waiting : Story → List (Scene × Primitive)
  | [] => []
  | .attempted a :: s => if a.command.draws then [] else waiting s
  | .changed :: s => waiting s
  | .opened _ _ :: _ => []
  | .recorded scene primitive :: s => waiting s ++ [(scene, primitive)]

/-- A relation between a command that draws and what happened before holds whenever one is
submitted. -/
def AtDraws (P : Command → Story → Prop) : Story → Prop
  | [] => True
  | .attempted a :: s => (a.command.draws = true → P a.command s) ∧ AtDraws P s
  | .changed :: s => AtDraws P s
  | .opened _ _ :: s => AtDraws P s
  | .recorded _ _ :: s => AtDraws P s

end Story

def DeliverM.after {α : Type} (x : DeliverM σ α) (link : Link σ) : Link σ :=
  match x link with
  | .ok _ after => after
  | .error _ after => after

theorem DeliverM.after_eq {α : Type} {x : DeliverM σ α} {link last : Link σ} {a : α}
    (h : x link = .ok a last) : after x link = last := by
  rw [after, h]

namespace Story

open DeliverM

/-- Tells that a batch was opened, unless the open one is for the same key. -/
def withOpening (s : Story) (o : Opening) (link opened : Link (Traced σ)) : Story :=
  if link.delivery.batch.map (·.key) = some o.key then s
  else .opened o (opened.sink.attempts.drop link.sink.attempts.length) :: s.upTo opened.sink

/-- What happens as a request is carried out. -/
def watch (o : Outlet σ) (scene : Scene) (request : Request) (link : Link (Traced σ)) (s : Story) :
    Story :=
  match request with
  | .draw key primitive =>
    let opened := after (openBatch o.traced scene key) link
    let s := s.withOpening ⟨scene, key⟩ link opened
    let spaced := after (drawBatchIf o.traced (·.isCrowdedFor primitive)) opened
    let s : Story := .recorded scene primitive :: s.upTo spaced.sink
    s.upTo (after (perform o.traced scene request) link).sink
  | .retexture => .changed :: s.upTo (after (perform o.traced scene .retexture) link).sink
  | request => s.upTo (after (perform o.traced scene request) link).sink

def watchAll (o : Outlet σ) (scene : Scene) : List Request → Link (Traced σ) → Story → Story
  | [], _, s => s
  | request :: requests, link, s =>
    watchAll o scene requests (after (perform o.traced scene request) link)
      (watch o scene request link s)

def watchStep (o : Outlet σ) (ram : Ram) (settings : ListSettings) (s : Story)
    (m : Machine (Traced σ)) : Story :=
  let scene := m.visit.scene ram settings
  watchAll o scene (scene.requests (m.visit.instruction ram)) m.counted s

end Story

/-- A processor, what it submitted to an outlet, and what happened. -/
structure Narrated (σ : Type) where
  processor : ListProcessor
  trace : Traced σ
  story : Story := []

namespace Narrated

def start (settings : ListSettings) (sink : σ) : Narrated σ where
  processor := .ofSettings settings
  trace := ⟨sink, []⟩

def serve (o : Outlet σ) (n : Narrated σ) : HostCall → Narrated σ
  | .run ram start =>
    let p := n.processor
    let result := p.run o.traced ram start n.trace
    let course := (p.machine ram start n.trace).course o.traced ram p.settings p.settings.budget
    ⟨result.1, result.2.1,
      (course.foldl (Story.watchStep o ram p.settings) n.story).upTo result.2.1⟩
  | .notify address length =>
    { n with
      processor := n.processor.notify address length
      story := if length = 0 then n.story else .changed :: n.story }
  | .endFrame =>
    let result := n.processor.endFrame o.traced n.trace
    ⟨result.1, result.2.1, n.story.upTo result.2.1⟩

def serveAll (o : Outlet σ) (n : Narrated σ) (calls : List HostCall) : Narrated σ :=
  calls.foldl (serve o) n

end Narrated

theorem Batch.draws_of_command? {b : Batch} {command : Command} (h : b.command? = some command) :
    command.draws = true := by
  rcases command?_cases h with ⟨rfl, _⟩ | ⟨rfl, _⟩ | ⟨rfl, _⟩ <;> rfl

namespace Story

section Lemmas

variable {s : Story} {t later : Traced σ} {a : Attempt}

theorem attempts_attempted (s : Story) (a : Attempt) :
    attempts (.attempted a :: s) = s.attempts ++ [a] := by
  simp [attempts]

private theorem attempts_hear (s : Story) (attempts : List Attempt) :
    (s.hear attempts).attempts = s.attempts ++ attempts := by
  induction attempts generalizing s with
  | nil => exact (List.append_nil _).symm
  | cons a rest ih =>
    refine (ih (.attempted a :: s)).trans ?_
    rw [attempts_attempted, List.append_assoc]
    rfl

theorem upTo_self (h : s.attempts = t.attempts) : s.upTo t = s := by
  rw [upTo, h, List.drop_length]
  rfl

theorem upTo_append (h : (s.upTo t).attempts = t.attempts)
    (hlater : later.attempts = t.attempts ++ [a]) : s.upTo later = .attempted a :: s.upTo t := by
  have hlength : s.attempts.length ≤ t.attempts.length := by
    rw [← h, upTo, attempts_hear, List.length_append]
    exact Nat.le_add_right _ _
  rw [upTo, hlater, List.drop_append_of_le_length hlength, hear, List.foldl_append]
  rfl

end Lemmas

/-- The story tells of all that was submitted, and every draw was as it should be. -/
structure RecordsDraws (s : Story) (P : Command → Story → Prop) (link : Link (Traced σ)) :
    Prop where
  attempts : s.attempts = link.sink.attempts
  draws : s.AtDraws P

/-- The story also tells what is to be known of the batch. -/
structure RecordsBatch (s : Story) (P : Command → Story → Prop) (H : Story → Batch → Prop)
    (link : Link (Traced σ)) : Prop extends s.RecordsDraws P link where
  batch : ∀ b, link.delivery.batch = some b → H s b

end Story

end DisplayPipeline
