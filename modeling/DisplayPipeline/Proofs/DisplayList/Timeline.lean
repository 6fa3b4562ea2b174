import DisplayPipeline.Proofs.DisplayList.Course

/-!
# Timelines

What matters for textures, in the order in which it happens: commands that are submitted, batches
that are opened, and changes of the texture registers or of memory. A timeline is computed from the
states that a processor goes through and has no influence on them.
-/

namespace DisplayPipeline

/-- The opening of a batch, with what the console held then. -/
structure Opening where
  scene : Scene
  key : BatchKey

inductive Happening where
  | submitted (command : Command)
  /-- A texture register was set, or a write to memory was reported. -/
  | changed
  | opened (opening : Opening)

/-- What has happened, the latest first. -/
abbrev Timeline := List Happening

namespace Opening

def isTextured (o : Opening) : Bool := o.key.shape ≠ .fills && o.key.textured

def reads (o : Opening) (unit : UInt8) : Bool :=
  o.isTextured &&
    (unit = 0 ||
      (Combiner.Key.ofMux (o.scene.combinerFor o.key).1 .none).stages.readsSecondTexel)

/-- The tile that a texture unit samples: the batch's own, or for the second unit the one after. -/
def tileOf (o : Opening) (unit : UInt8) : TileIndex :=
  if unit = 0 then o.key.tile else o.key.tile.next

theorem isTextured_of_reads {o : Opening} {unit : UInt8} (h : o.reads unit = true) :
    o.isTextured = true := by
  simp only [reads, Bool.and_eq_true] at h
  exact h.1

end Opening

namespace Command

def textureUnit? : Command → Option UInt8
  | loadTexture load => some load.unit
  | captureColorBuffer capture => some capture.unit
  | _ => none

def draws : Command → Bool
  | drawTriangles _ | drawRects _ | fillRects _ => true
  | _ => false

theorem draws_of_textureUnit? {command : Command} {unit : UInt8}
    (h : command.textureUnit? = some unit) : command.draws = false := by
  cases command <;> first | rfl | cases h

theorem textureUnit?_of_draws {command : Command} (h : command.draws = true) :
    command.textureUnit? = none := by
  cases command <;> first | rfl | cases h

end Command

theorem Scene.textureUnit?_of_textureCommand? {scene : Scene} {unit : UInt8} {tile : TileIndex}
    {command : Command} (h : scene.textureCommand? unit tile = some command) :
    command.textureUnit? = some unit := by
  obtain ⟨format, _, h⟩ := Option.bind_eq_some_iff.mp h
  obtain ⟨load, _, h⟩ := Option.bind_eq_some_iff.mp h
  split at h
  · cases h
    rfl
  · obtain ⟨source, _, h⟩ := Option.bind_eq_some_iff.mp h
    cases h
    rfl

namespace Timeline

def sinceChange : Timeline → Timeline
  | [] => []
  | .changed :: _ => []
  | .submitted command :: t => .submitted command :: sinceChange t
  | .opened o :: t => .opened o :: sinceChange t

def untilChange : Timeline → Timeline
  | [] => []
  | .changed :: t => t
  | .submitted _ :: t => untilChange t
  | .opened _ :: t => untilChange t

def openings (t : Timeline) : List Opening :=
  t.filterMap fun
    | .opened o => some o
    | _ => none

def readers (t : Timeline) (unit : UInt8) : List Opening := t.openings.filter (·.reads unit)

def submissions (t : Timeline) : List Command :=
  (t.filterMap fun
    | .submitted command => some command
    | _ => none).reverse

/-- The last command that gave a texture unit something to sample. -/
def given? (t : Timeline) (unit : UInt8) : Option Command :=
  t.findSome? fun
    | .submitted command => if command.textureUnit? = some unit then some command else none
    | _ => none

def hear (t : Timeline) (commands : List Command) : Timeline :=
  commands.foldl (fun t command => .submitted command :: t) t

/-- What a texture unit was given last, if there was anything to give, is what the console held for a
batch that was opened since the last change, with the same texture registers and the same tile. -/
def UpToDate (t : Timeline) (unit : UInt8) (o : Opening) : Prop :=
  ∃ earlier ∈ t.sinceChange.readers unit,
    earlier.scene.registers.texture = o.scene.registers.texture ∧
    earlier.tileOf unit = o.tileOf unit ∧
    ∀ command, earlier.scene.textureCommand? unit (o.tileOf unit) = some command →
      t.sinceChange.given? unit = some command

def firstTextured? (t : Timeline) : Option Opening :=
  (t.sinceChange.openings.filter (·.isTextured)).getLast?

/-- The first textured batch since the last change does not read the unit, and each one that does
samples the tile that was sampled last before the change. -/
def Overlooked (t : Timeline) (unit : UInt8) : Prop :=
  (∃ first, t.firstTextured? = some first ∧ first.reads unit = false) ∧
  ∃ last, (t.untilChange.readers unit).head? = some last ∧
    ∀ o ∈ t.sinceChange.readers unit, o.tileOf unit = last.tileOf unit

/-- A property of what had happened holds whenever something is drawn. -/
def AtDraws (P : Timeline → Prop) : Timeline → Prop
  | [] => True
  | .submitted command :: t => (command.draws = true → P t) ∧ AtDraws P t
  | .changed :: t => AtDraws P t
  | .opened _ :: t => AtDraws P t

section Lemmas

variable (t : Timeline)

@[simp] theorem sinceChange_hear (commands : List Command) :
    (t.hear commands).sinceChange = t.sinceChange.hear commands := by
  induction commands generalizing t with
  | nil => rfl
  | cons command commands ih => exact ih (.submitted command :: t)

@[simp] theorem untilChange_hear (commands : List Command) :
    (t.hear commands).untilChange = t.untilChange := by
  induction commands generalizing t with
  | nil => rfl
  | cons command commands ih => exact ih (.submitted command :: t)

@[simp] theorem openings_hear (commands : List Command) :
    (t.hear commands).openings = t.openings := by
  induction commands generalizing t with
  | nil => rfl
  | cons command commands ih => exact ih (.submitted command :: t)

@[simp] theorem readers_hear (commands : List Command) (unit : UInt8) :
    (t.hear commands).readers unit = t.readers unit := by
  rw [readers, openings_hear, readers]

@[simp] theorem firstTextured?_hear (commands : List Command) :
    (t.hear commands).firstTextured? = t.firstTextured? := by
  rw [firstTextured?, sinceChange_hear, openings_hear, firstTextured?]

theorem firstTextured?_opened (o : Opening) :
    firstTextured? (.opened o :: t) =
      t.firstTextured?.or (if o.isTextured then some o else none) := by
  change (List.filter _ (o :: t.sinceChange.openings)).getLast? = _
  rw [List.filter_cons, firstTextured?]
  by_cases htextured : o.isTextured = true
  · rw [if_pos htextured, if_pos htextured, List.getLast?_cons]
    cases (t.sinceChange.openings.filter (·.isTextured)).getLast? <;> rfl
  · rw [if_neg htextured, if_neg htextured, Option.or_none]

theorem firstTextured?_ne_none {o : Opening} {unit : UInt8}
    (h : o ∈ t.sinceChange.readers unit) : t.firstTextured? ≠ none := by
  obtain ⟨hopened, hreads⟩ := List.mem_filter.mp h
  intro hnone
  rw [firstTextured?, List.getLast?_eq_none_iff, List.filter_eq_nil_iff] at hnone
  exact hnone o hopened (Opening.isTextured_of_reads hreads)

theorem mem_of_firstTextured? {o : Opening} (h : t.firstTextured? = some o) :
    o ∈ t.sinceChange.openings :=
  (List.mem_filter.mp (List.mem_of_getLast? h)).1

theorem mem_openings_of_head? {o : Opening} {unit : UInt8} (h : (t.readers unit).head? = some o) :
    o ∈ t.openings :=
  (List.mem_filter.mp (List.mem_of_mem_head? h)).1

theorem readers_opened (o : Opening) (unit : UInt8) :
    readers (.opened o :: t) unit =
      if o.reads unit then o :: t.readers unit else t.readers unit := by
  change List.filter _ (o :: t.openings) = _
  rw [List.filter_cons]
  rfl

theorem given?_submitted (command : Command) (unit : UInt8) :
    given? (.submitted command :: t) unit =
      if command.textureUnit? = some unit then some command else t.given? unit := by
  by_cases hunit : command.textureUnit? = some unit
  · simp [given?, hunit]
  · simp [given?, hunit]

theorem given?_hear_congr {t u : Timeline} {unit : UInt8} (h : t.given? unit = u.given? unit)
    (commands : List Command) : (t.hear commands).given? unit = (u.hear commands).given? unit := by
  induction commands generalizing t u with
  | nil => exact h
  | cons command commands ih =>
    apply ih
    rw [given?_submitted, given?_submitted, h]

theorem hear_append (xs ys : List Command) : t.hear (xs ++ ys) = (t.hear xs).hear ys :=
  List.foldl_append

theorem given?_hear_of_forall {commands : List Command} {unit : UInt8}
    (h : ∀ command ∈ commands, command.textureUnit? ≠ some unit) :
    (t.hear commands).given? unit = t.given? unit := by
  induction commands generalizing t with
  | nil => rfl
  | cons command commands ih =>
    have hrest := ih (.submitted command :: t) fun c hc => h c (List.mem_cons_of_mem _ hc)
    rw [given?_submitted, if_neg (h command List.mem_cons_self)] at hrest
    exact hrest

private theorem openings_eq_append :
    t.openings = t.sinceChange.openings ++ t.untilChange.openings := by
  induction t with
  | nil => rfl
  | cons happening t ih =>
    cases happening with
    | submitted command => exact ih
    | changed => rfl
    | opened o =>
      change o :: openings t = o :: (openings (sinceChange t) ++ openings (untilChange t))
      rw [← ih]

theorem readers_eq_append (unit : UInt8) :
    t.readers unit = t.sinceChange.readers unit ++ t.untilChange.readers unit := by
  rw [readers, openings_eq_append, List.filter_append, readers, readers]

theorem submissions_hear (commands : List Command) :
    (t.hear commands).submissions = t.submissions ++ commands := by
  induction commands generalizing t with
  | nil => exact (List.append_nil _).symm
  | cons command commands ih =>
    have hone : submissions (.submitted command :: t) = t.submissions ++ [command] := by
      simp [submissions]
    exact (ih (.submitted command :: t)).trans (by rw [hone, List.append_assoc]; rfl)

end Lemmas

end Timeline

/-- The commands that one record has and an earlier one lacks. -/
def Recording.addedTo (earlier later : Recording) : List Command :=
  (later.attempts.toList.drop earlier.attempts.size).map (·.command)

namespace Timeline

open DeliverM

def said {α : Type} (x : DeliverM Recording α) (link : Link Recording) : List Command :=
  match x link with
  | .ok _ after => link.sink.addedTo after.sink
  | .error _ after => link.sink.addedTo after.sink

/-- What happens as a request is carried out. -/
def watch (scene : Scene) (request : Request) (link : Link Recording) (t : Timeline) : Timeline :=
  let commands := said (perform .recording scene request) link
  match request with
  | .close | .drop => t.hear commands
  | .retexture => .changed :: t.hear commands
  | .draw key _ =>
    if link.delivery.batch.map (·.key) = some key then t.hear commands
    else
      -- The batch is open once it is prepared, before anything is added to it.
      let preparing := said (openBatch .recording scene key) link
      hear (.opened ⟨scene, key⟩ :: t.hear preparing) (commands.drop preparing.length)

def watchAll (scene : Scene) : List Request → Link Recording → Timeline → Timeline
  | [], _, t => t
  | request :: requests, link, t =>
    let t := watch scene request link t
    match perform .recording scene request link with
    | .ok _ link => watchAll scene requests link t
    | .error _ _ => t

def watchStep (ram : Ram) (settings : ListSettings) (t : Timeline) (m : Machine Recording) :
    Timeline :=
  let scene := m.visit.scene ram settings
  watchAll scene (scene.requests (m.visit.instruction ram)) m.counted t

section Changes

variable {scene : Scene} {instruction : Instruction}

theorem requests_ne_retexture (h : ∀ change, instruction ≠ .texture change) :
    ∀ request ∈ scene.requests instruction, request ≠ .retexture := by
  have htriangle (corners : Corners) : scene.triangleRequest corners ≠ .retexture := by
    unfold Scene.triangleRequest
    split
    · simp
    · dsimp only
      split <;> simp
  intro request hrequest
  have hdraw {condition : Prop} [Decidable condition] {key : BatchKey} {primitive : Primitive}
      (hmem : request ∈ if condition then [] else [.draw key primitive]) :
      request ≠ .retexture := by
    split at hmem
    · cases hmem
    · rw [List.mem_singleton.mp hmem]
      simp
  have heither {condition : Prop} [Decidable condition] {flipped : Bool} {key other : BatchKey}
      {primitive another : Primitive}
      (hmem : request ∈ if condition then [] else
        if flipped then [.draw key primitive] else [.draw other another]) :
      request ≠ .retexture := by
    cases flipped with
    | true => exact hdraw hmem
    | false => exact hdraw hmem
  cases instruction with
  | texture change => exact absurd rfl (h change)
  | render change =>
    rw [List.mem_singleton.mp hrequest]
    simp
  | triangle corners =>
    rw [List.mem_singleton.mp hrequest]
    exact htriangle corners
  | twoTriangles first second =>
    rcases List.mem_cons.mp hrequest with rfl | hrequest
    · exact htriangle first
    · rw [List.mem_singleton.mp hrequest]
      exact htriangle second
  | fillRect bounds => exact hdraw hrequest
  | texturedRect rect => exact heither hrequest
  | _ => cases hrequest

theorem texture_advance (h : ∀ change, instruction ≠ .texture change) :
    (scene.advance instruction).texture = scene.registers.texture := by
  cases instruction with
  | texture change => exact absurd rfl (h change)
  | _ => rfl

end Changes

end Timeline

/-- What a host asks of a display list processor. -/
inductive HostCall where
  | run (ram : Ram) (start : UInt32)
  | notify (address length : UInt32)
  | endFrame

/-- A processor, the record of what it submitted, and what happened. -/
structure Watched where
  processor : ListProcessor
  record : Recording := {}
  timeline : Timeline := []

namespace Watched

def start (settings : ListSettings) : Watched where
  processor := .ofSettings settings

/-- Serves the host. The record accepts everything. -/
def serve (w : Watched) : HostCall → Watched
  | .run ram start =>
    let p := w.processor
    let result := p.run .recording ram start w.record
    let m := p.machine ram start w.record
    let course := m.course .recording ram p.settings p.settings.budget
    let last := (m.walkFor .recording ram p.settings p.settings.budget).1
    -- What is left in the batch is drawn at the end.
    ⟨result.1, result.2.1,
      (course.foldl (Timeline.watchStep ram p.settings) w.timeline).hear
        (last.link.sink.addedTo result.2.1)⟩
  | .notify address length =>
    { w with
      processor := w.processor.notify address length
      timeline := if length = 0 then w.timeline else .changed :: w.timeline }
  | .endFrame =>
    let (processor, record, _) := w.processor.endFrame .recording w.record
    ⟨processor, record, w.timeline.hear (w.record.addedTo record)⟩

def serveAll (w : Watched) (calls : List HostCall) : Watched := calls.foldl serve w

end Watched

end DisplayPipeline
