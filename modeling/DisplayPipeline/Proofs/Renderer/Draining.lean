import DisplayPipeline.Proofs.Renderer.Drawing
import DisplayPipeline.Proofs.Renderer.Interleaving

/-!
# Draining a pool

A renderer at a pool of any bytes carries out the commands among them, in the order in which they were
pushed, and gives back every claim. Bytes that are no command are counted and reported, and leave no
other trace.
-/

namespace DisplayPipeline

def RenderEvent.isMalformed : RenderEvent → Bool
  | malformedCommand _ => true
  | _ => false

namespace Renderer

def withReports (r : Renderer) (decodeErrors : Nat) (events : Array RenderEvent) : Renderer :=
  { r with tally := { r.tally with decodeErrors }, events }

/-- The step adds reports, none of malformed bytes, and nothing else of it depends on what was
reported before. -/
def Reports (step : Renderer → Renderer) (r : Renderer) : Prop :=
  ∃ added : Array RenderEvent, (∀ e ∈ added, e.isMalformed = false) ∧
    ∀ decodeErrors events, step (r.withReports decodeErrors events) =
      (step r).withReports decodeErrors (events ++ added)

section Reports

variable {r : Renderer}

private theorem reports_silently {step : Renderer → Renderer}
    (h : ∀ decodeErrors events, step (r.withReports decodeErrors events) =
      (step r).withReports decodeErrors events) : Reports step r :=
  ⟨#[], by simp, fun decodeErrors events => by rw [h, Array.append_empty]⟩

private theorem reports_bindSource (unit : UInt8) (source : TextureSource) :
    Reports (·.bindSource unit source) r := by
  cases hfetch : r.textures.fetch source r.device with
  | mk textures rest =>
    obtain ⟨device, result⟩ := rest
    cases result with
    | ok fetched =>
      apply reports_silently
      intro decodeErrors events
      simp only [bindSource, fetch, withReports, hfetch]
      split <;> rfl
    | error cause =>
      refine ⟨#[.textureFailed source cause], by simp [RenderEvent.isMalformed],
        fun decodeErrors events => ?_⟩
      simp only [bindSource, fetch, withReports, hfetch, Array.append_singleton]

private theorem reports_capture (capture : ColorCapture) : Reports (·.capture capture) r := by
  cases hread : r.reader.read r.device capture.read with
  | mk reader bytes =>
    cases bytes with
    | none =>
      apply reports_silently
      intro decodeErrors events
      simp only [Renderer.capture, withReports, hread]
    | some bytes =>
      let counted : Renderer :=
        { r with reader, tally := { r.tally with colorReads := r.tally.colorReads + 1 } }
      obtain ⟨added, hadded, hbind⟩ :=
        reports_bindSource (r := counted) capture.unit (captureSource capture bytes)
      refine ⟨added, hadded, fun decodeErrors events => ?_⟩
      have hcapture : r.capture capture =
          counted.bindSource capture.unit (captureSource capture bytes) := by
        simp only [Renderer.capture, hread, counted]
      have hother : (r.withReports decodeErrors events).capture capture =
          (counted.withReports decodeErrors events).bindSource capture.unit
            (captureSource capture bytes) := by
        simp only [Renderer.capture, withReports, hread, counted]
      simp only [hcapture, hother, hbind]

private theorem reports_drawWith (program : ProgramHandle) (vertices : List Vertex) :
    Reports (·.drawWith program vertices) r := by
  have hdrawOf (decodeErrors : Nat) (events : Array RenderEvent) :
      (r.withReports decodeErrors events).device.draw
          ((r.withReports decodeErrors events).drawOf program vertices) =
        r.device.draw (r.drawOf program vertices) := rfl
  cases hdraw : r.device.draw (r.drawOf program vertices) with
  | mk device answer =>
    cases answer with
    | ok _ =>
      apply reports_silently
      intro decodeErrors events
      rw [drawWith_ok hdraw, drawWith_ok ((hdrawOf decodeErrors events).trans hdraw)]
      rfl
    | error cause =>
      refine ⟨#[.drawRejected cause], by simp [RenderEvent.isMalformed],
        fun decodeErrors events => ?_⟩
      dsimp only
      rw [drawWith_error hdraw, drawWith_error ((hdrawOf decodeErrors events).trans hdraw),
        Array.append_singleton]
      rfl

private theorem exists_currentProgram (r : Renderer) :
    ∃ added : Array RenderEvent, (∀ e ∈ added, e.isMalformed = false) ∧
      ∀ decodeErrors events, (r.withReports decodeErrors events).currentProgram =
        (r.currentProgram.1.withReports decodeErrors (events ++ added), r.currentProgram.2) := by
  cases hbuild : r.programs.build r.key r.device with
  | mk programs rest =>
    obtain ⟨device, program, compiled⟩ := rest
    refine ⟨(compiled.map RenderEvent.compilation).toArray, ?_, fun decodeErrors events => ?_⟩
    · intro e he
      obtain ⟨event, -, rfl⟩ := List.mem_map.mp (List.mem_toArray.mp he)
      rfl
    · simp only [currentProgram, withReports, hbuild]

private theorem reports_draw (vertices : List Vertex) : Reports (·.draw vertices) r := by
  by_cases hempty : vertices.isEmpty = true
  · apply reports_silently
    intro decodeErrors events
    rw [draw_empty hempty, draw_empty hempty]
  · obtain ⟨added, hadded, hprogram⟩ := exists_currentProgram r
    cases hcurrent : r.currentProgram with
    | mk after handle =>
      rw [hcurrent] at hprogram
      cases handle with
      | none =>
        refine ⟨added, hadded, fun decodeErrors events => ?_⟩
        dsimp only
        rw [draw_skipped hempty hcurrent, draw_skipped hempty (hprogram decodeErrors events)]
        rfl
      | some program =>
        obtain ⟨more, hmore, hdraw⟩ := reports_drawWith (r := after) program vertices
        refine ⟨added ++ more, ?_, fun decodeErrors events => ?_⟩
        · intro e he
          exact (Array.mem_append.mp he).elim (hadded e) (hmore e)
        · dsimp only at hdraw ⊢
          rw [draw_drawWith hempty hcurrent, draw_drawWith hempty (hprogram decodeErrors events),
            hdraw, Array.append_assoc]

private theorem reports_execute (command : Command) : Reports (·.execute command) r := by
  cases command with
  | loadTexture load => exact reports_bindSource load.unit load.source
  | captureColorBuffer capture => exact reports_capture capture
  | drawTriangles vertices => exact reports_draw vertices
  | drawRects rects =>
    obtain ⟨added, hadded, hdraw⟩ := reports_draw (r := r) (rects.flatMap
      (rectVertices (Single.ofNat r.screenWidth) (Single.ofNat r.screenHeight)))
    exact ⟨added, hadded, hdraw⟩
  | _ => exact reports_silently fun _ _ => rfl

end Reports

/-- `s` is `r` after bytes that are no commands, for these causes: they are counted, and reported
among whatever else is reported. -/
structure DiffersBy (r s : Renderer) (causes : List CommandError) : Prop where
  state : s = r.withReports (r.tally.decodeErrors + causes.length) s.events
  others : s.events.toList.filter (!·.isMalformed) = r.events.toList.filter (!·.isMalformed)
  malformed : s.events.toList.filter (·.isMalformed) =
    r.events.toList.filter (·.isMalformed) ++ causes.map .malformedCommand

def written (strings : List (List UInt8)) : List Command :=
  strings.filterMap fun bytes => (Command.decode bytes).toOption

def refusals (strings : List (List UInt8)) : List CommandError :=
  strings.filterMap fun bytes =>
    match Command.decode bytes with
    | .ok _ => none
    | .error cause => some cause

section DiffersBy

variable {r s : Renderer} {causes : List CommandError}

private theorem differsBy_self (r : Renderer) : DiffersBy r r [] :=
  ⟨rfl, rfl, by simp⟩

private theorem DiffersBy.execute (h : DiffersBy r s causes) (command : Command) :
    DiffersBy (r.execute command) (s.execute command) causes := by
  obtain ⟨added, hadded, hstep⟩ := reports_execute (r := r) command
  have hr : r.execute command =
      (r.execute command).withReports r.tally.decodeErrors (r.events ++ added) :=
    hstep r.tally.decodeErrors r.events
  have hs : s.execute command = (r.execute command).withReports
      (r.tally.decodeErrors + causes.length) (s.events ++ added) := by
    rw [← hstep, ← h.state]
  have herrors : (r.execute command).tally.decodeErrors = r.tally.decodeErrors := by rw [hr]; rfl
  have hevents : (r.execute command).events = r.events ++ added := by rw [hr]; rfl
  have hnone : added.toList.filter (·.isMalformed) = [] :=
    List.filter_eq_nil_iff.mpr fun e he => by simp [hadded e (Array.mem_toList_iff.mp he)]
  constructor
  · rw [hs, herrors]
    rfl
  · rw [hs, hevents]
    simp only [withReports, Array.toList_append, List.filter_append, h.others]
  · rw [hs, hevents]
    simp only [withReports, Array.toList_append, List.filter_append, hnone, List.append_nil]
    exact h.malformed

private theorem DiffersBy.refuse (h : DiffersBy r s causes) {bytes : List UInt8}
    {cause : CommandError} (hdecode : Command.decode bytes = .error cause) :
    DiffersBy r (s.executeBytes bytes) (causes ++ [cause]) := by
  have hs : s.executeBytes bytes = { s with
      tally := { s.tally with decodeErrors := s.tally.decodeErrors + 1 }
      events := s.events.push (.malformedCommand cause) } := by
    rw [executeBytes, hdecode]
  have hmark : (RenderEvent.malformedCommand cause).isMalformed = true := rfl
  constructor
  · rw [hs, h.state, List.length_append, ← Nat.add_assoc]
    rfl
  · rw [hs]
    simp [hmark, h.others]
  · rw [hs]
    simp [hmark, h.malformed]

/-- Bytes one after the other come to the commands among them, the count and the reports of the
others apart. -/
theorem DiffersBy.foldl (h : DiffersBy r s causes) (strings : List (List UInt8)) :
    DiffersBy ((written strings).foldl Renderer.execute r) (strings.foldl executeBytes s)
      (causes ++ refusals strings) := by
  induction strings generalizing r s causes with
  | nil => simpa [written, refusals] using h
  | cons bytes strings ih =>
    cases hdecode : Command.decode bytes with
    | ok command =>
      have hbytes : s.executeBytes bytes = s.execute command := by rw [executeBytes, hdecode]
      have hnext := ih (h.execute command)
      simpa [written, refusals, hdecode, Except.toOption, hbytes] using hnext
    | error cause =>
      have hnext := ih (h.refuse hdecode)
      simpa [written, refusals, hdecode, Except.toOption] using hnext

end DiffersBy

end Renderer

structure Parcel.Bears (x : Parcel) (bytes : List UInt8) : Prop where
  contents : x.contents = bytes.map some
  ready : x.ready = true

/-- The pool holds these bytes for a consumer, in this order, and nothing else. -/
def Pool.Queues (p : Pool) (strings : List (List UInt8)) : Prop :=
  ∃ contents, Traffic.Models ⟨p, [], []⟩ contents ∧
    p.capacity + Pool.alignment < Pool.wordLimit ∧
    List.Forall₂ Parcel.Bears (p.backlog contents).waiting strings ∧
    (p.backlog contents).delivered = []

namespace Pool

namespace Queues

variable {p q : Pool} {strings : List (List UInt8)} {bytes : List UInt8}

private theorem of_isIdle {bytes patience : Nat} (hbytes : bytes + alignment < wordLimit)
    (turns : List Turn)
    (hidle : (Traffic.run ⟨.ofCapacity bytes patience, [], []⟩ turns).1.pool.isIdle = true) :
    Queues (Traffic.run ⟨.ofCapacity bytes patience, [], []⟩ turns).1.pool [] := by
  let start : Traffic := ⟨.ofCapacity bytes patience, [], []⟩
  have hstart : start.Models fun _ => [] :=
    ⟨Pool.storesContents_ofCapacity bytes patience _, by simp [start, Pool.ofCapacity], rfl, rfl⟩
  have hcapacity : roundedCapacity bytes + alignment < wordLimit :=
    Nat.lt_of_le_of_lt (Nat.add_le_add_right (Nat.div_mul_le_self _ _) _) hbytes
  obtain ⟨after, hmodels, hrun⟩ := Traffic.run_followsBacklog hstart hcapacity .start turns
  have hsame : (start.run turns).1.pool.capacity = roundedCapacity bytes := hrun.capacity
  have hclaims : (start.run turns).1.pool.claims = [] := List.isEmpty_iff.mp hidle
  refine ⟨after, ⟨hmodels.stores, hmodels.oldest, ?_, ?_⟩, hsame ▸ hcapacity, ?_, ?_⟩
  · simp [start, hclaims, select]
  · simp [start, hclaims, select]
  · simp [start, Pool.backlog, hclaims, select]
  · simp [start, Pool.backlog, hclaims, select]

private theorem push (h : p.Queues strings) (bytes : List UInt8) :
    (∃ q, p.push bytes = (q, .ok ()) ∧ q.Queues (strings ++ [bytes])) ∨
      ∃ q cause, p.push bytes = (q, .error cause) ∧ q.Queues strings := by
  obtain ⟨contents, hmodels, hcapacity, hwaiting, hdelivered⟩ := h
  obtain ⟨after, hafter, hturn⟩ := Traffic.followsBacklog hmodels hcapacity (.push bytes)
  cases hpush : p.push bytes with
  | mk q answer =>
    have hstep : (⟨p, [], []⟩ : Traffic).step (.push bytes) = (⟨q, [], []⟩, .ofResult answer) := by
      simp only [Traffic.step, hpush]
    rw [hstep] at hafter hturn
    have hsame : q.capacity = p.capacity := hturn.capacity
    rcases hturn.push_cases with ⟨hreply, hlast⟩ | ⟨⟨cause, hreply⟩, hlast⟩
    · cases answer with
      | error cause => cases hreply
      | ok _ =>
        refine Or.inl ⟨q, rfl, after, hafter, hsame ▸ hcapacity, ?_, ?_⟩
        · rw [hlast]
          exact List.rel_append hwaiting (.cons ⟨rfl, rfl⟩ .nil)
        · rw [hlast]
          exact hdelivered
    · cases answer with
      | ok _ => cases hreply
      | error cause =>
        exact Or.inr ⟨q, cause, rfl, after, hafter, hsame ▸ hcapacity, hlast ▸ hwaiting,
          hlast ▸ hdelivered⟩

private theorem close (h : p.Queues strings) : p.close.Queues strings := by
  obtain ⟨contents, hmodels, hcapacity, hwaiting, hdelivered⟩ := h
  obtain ⟨after, hafter, hturn⟩ := Traffic.followsBacklog_close hmodels
  have hlast : p.close.backlog after = { p.backlog contents with isClosed := true } :=
    hturn.close_cases
  refine ⟨after, hafter, hcapacity, ?_, ?_⟩
  · rw [hlast]
    exact hwaiting
  · rw [hlast]
    exact hdelivered

private theorem idle_nil (h : p.Queues []) : p.claims = [] ∧ p.inUse = 0 := by
  obtain ⟨contents, hmodels, -, hwaiting, hdelivered⟩ := h
  have hclaims := hmodels.claims_nil (List.forall₂_nil_right_iff.mp hwaiting) hdelivered
  have hinUse := hmodels.stores.invariant.inUse
  rw [hclaims] at hinUse
  exact ⟨hclaims, hinUse⟩

private theorem next_nil (h : p.Queues []) : ∃ q, p.next = (q, none) ∧ q.Queues [] := by
  obtain ⟨contents, hmodels, hcapacity, hwaiting, hdelivered⟩ := h
  obtain ⟨after, hafter, hturn⟩ := Traffic.followsBacklog_next hmodels
  cases hnext : p.next with
  | mk q answer =>
    rcases hturn.next_cases with ⟨y, others, hsplit, _, _, _⟩ | ⟨_, hreply, hlast⟩
    · cases (List.forall₂_nil_right_iff.mp hwaiting).symm.trans hsplit
    · cases answer with
      | none =>
        have hstep : (⟨p, [], []⟩ : Traffic).step .next = (⟨q, [], []⟩, .nothing) := by
          simp only [Traffic.step, hnext]
        rw [hstep] at hafter hlast
        have hsame : q.capacity = p.capacity := congrArg Backlog.capacity hlast
        exact ⟨q, rfl, after, hafter, hsame ▸ hcapacity, hlast ▸ hwaiting, hlast ▸ hdelivered⟩
      | some pointer =>
        have hstep : (⟨p, [], []⟩ : Traffic).step .next =
            (⟨q, [], [pointer]⟩, .delivered pointer.seq) := by
          simp only [Traffic.step, hnext, List.nil_append]
        rw [hstep] at hreply
        cases hreply

private theorem read_taken {contents : Contents} {pointer : ClaimPointer} {x : Parcel}
    (hmodels : Traffic.Models ⟨p, [], [pointer]⟩ contents)
    (hdelivered : (p.backlog contents).delivered = [x]) (hx : x.Bears bytes) :
    p.read pointer = .ok bytes := by
  obtain ⟨after, -, hturn⟩ := Traffic.followsBacklog_read hmodels pointer.seq
  cases hread : p.read pointer with
  | error cause =>
    have hstep : (⟨p, [], [pointer]⟩ : Traffic).step (.read pointer.seq) =
        (⟨p, [], [pointer]⟩, .refused cause) := by
      simp only [Traffic.step, Traffic.pointer?_single, hread]
    rw [hstep] at hturn
    rcases hturn.read_cases with ⟨_, _, _, _, hreply, _⟩ | ⟨_, hreply⟩ <;> cases hreply
  | ok told =>
    have hstep : (⟨p, [], [pointer]⟩ : Traffic).step (.read pointer.seq) =
        (⟨p, [], [pointer]⟩, .bytes told) := by
      simp only [Traffic.step, Traffic.pointer?_single, hread]
    rw [hstep] at hturn
    rcases hturn.read_cases with ⟨y, _, hmem, _, hreply, hlength, hbytes, _⟩ | ⟨_, hreply⟩
    · obtain rfl : y = x := List.mem_singleton.mp (hdelivered ▸ hmem)
      obtain rfl := Reply.bytes.inj hreply
      rw [hx.contents] at hlength hbytes
      rw [RenderLoop.eq_of_written hlength hbytes]
    · cases hreply

private theorem release_taken {contents : Contents} {pointer : ClaimPointer} {x : Parcel}
    (hmodels : Traffic.Models ⟨p, [], [pointer]⟩ contents)
    (hdelivered : (p.backlog contents).delivered = [x]) :
    ∃ q after, p.release pointer = (q, .ok ()) ∧ Traffic.Models ⟨q, [], []⟩ after ∧
      q.backlog after = (p.backlog contents).withDelivered [] := by
  obtain ⟨after, hafter, hturn⟩ := Traffic.followsBacklog_release hmodels pointer.seq
  cases hrelease : p.release pointer with
  | mk q answer =>
    have hstep : (⟨p, [], [pointer]⟩ : Traffic).step (.release pointer.seq) =
        (⟨q, [], []⟩, .ofResult answer) := by
      simp only [Traffic.step, Traffic.pointer?_single, Traffic.without_single, hrelease]
    rw [hstep] at hafter hturn
    rcases hturn.release_cases with ⟨xs, y, ys, hsplit, _, hreply, hlast⟩ | ⟨_, hreply⟩
    · cases answer with
      | error cause => cases hreply
      | ok _ =>
        obtain ⟨rfl, rfl⟩ : xs = [] ∧ ys = [] := by
          have hlength := congrArg List.length (hsplit.symm.trans hdelivered)
          simp only [List.length_append, List.length_cons, List.length_nil] at hlength
          exact ⟨List.eq_nil_of_length_eq_zero (by omega), List.eq_nil_of_length_eq_zero (by omega)⟩
        exact ⟨q, after, rfl, hafter, hlast⟩
    · cases answer <;> cases hreply

private theorem next_cons (h : p.Queues (bytes :: strings)) :
    ∃ q pointer contents x, p.next = (q, some pointer) ∧
      Traffic.Models ⟨q, [], [pointer]⟩ contents ∧ q.capacity = p.capacity ∧ x.Bears bytes ∧
      (q.backlog contents).delivered = [x] ∧
      List.Forall₂ Parcel.Bears (q.backlog contents).waiting strings := by
  obtain ⟨contents, hmodels, hcapacity, hwaiting, hdelivered⟩ := h
  obtain ⟨after, hafter, hturn⟩ := Traffic.followsBacklog_next hmodels
  obtain ⟨x, rest, hx, hrest, hbacklog⟩ := List.forall₂_cons_right_iff.mp hwaiting
  rcases hturn.next_cases with ⟨y, others, hsplit, _, hreply, hlast⟩ | ⟨hhead, _, _⟩
  · obtain ⟨rfl, rfl⟩ : x = y ∧ rest = others := List.cons.inj (hbacklog.symm.trans hsplit)
    cases hnext : p.next with
    | mk q answer =>
      cases answer with
      | none =>
        have hstep : (⟨p, [], []⟩ : Traffic).step .next = (⟨q, [], []⟩, .nothing) := by
          simp only [Traffic.step, hnext]
        rw [hstep] at hreply
        cases hreply
      | some pointer =>
        have hstep : (⟨p, [], []⟩ : Traffic).step .next =
            (⟨q, [], [pointer]⟩, .delivered pointer.seq) := by
          simp only [Traffic.step, hnext, List.nil_append]
        rw [hstep] at hafter hlast
        refine ⟨q, pointer, after, x, rfl, hafter, congrArg Backlog.capacity hlast, hx, ?_, ?_⟩
        · rw [hlast]
          exact congrArg (· ++ [x]) hdelivered
        · rw [hlast]
          exact hrest
  · have hunready := hhead x (by rw [hbacklog]; rfl)
    rw [hx.ready] at hunready
    cases hunready

/-- A renderer that serves the oldest claim carries out its bytes and leaves the others. -/
theorem serve (h : p.Queues (bytes :: strings)) (r : Renderer) :
    ∃ q pointer, p.next = (q, some pointer) ∧ (r.serve q pointer).1 = r.executeBytes bytes ∧
      (r.serve q pointer).2.Queues strings := by
  obtain ⟨q, pointer, contents, x, hnext, hmodels, hcapacity, hx, hdelivered, hwaiting⟩ :=
    h.next_cons
  have hread := read_taken hmodels hdelivered hx
  obtain ⟨last, after, hrelease, hlast, hgiven⟩ := release_taken hmodels hdelivered
  have hserve : r.serve q pointer = (r.executeBytes bytes, last) := by
    rw [Renderer.serve, hread, hrelease]
  have hsame : last.capacity = q.capacity := congrArg Backlog.capacity hgiven
  obtain ⟨_, -, hbound, -, -⟩ := h
  refine ⟨q, pointer, hnext, by rw [hserve], ?_⟩
  rw [hserve]
  refine ⟨after, hlast, ?_, ?_, ?_⟩
  · rw [hsame, hcapacity]
    exact hbound
  · rw [hgiven]
    exact hwaiting
  · rw [hgiven]
    rfl

private theorem serveUpTo (h : p.Queues strings) (r : Renderer) (limit : Nat) :
    (Renderer.serveUpTo limit r p).1 = (strings.take limit).foldl Renderer.executeBytes r ∧
      (Renderer.serveUpTo limit r p).2.Queues (strings.drop limit) := by
  induction limit generalizing p r strings with
  | zero => exact ⟨rfl, h⟩
  | succ limit ih =>
    cases strings with
    | nil =>
      obtain ⟨q, hnext, hqueues⟩ := h.next_nil
      have hstep : Renderer.serveUpTo (limit + 1) r p = (r, q) := by
        rw [Renderer.serveUpTo, hnext]
      rw [hstep]
      exact ⟨rfl, hqueues⟩
    | cons bytes strings =>
      obtain ⟨q, pointer, hnext, hserved, hrest⟩ := h.serve r
      have hstep : Renderer.serveUpTo (limit + 1) r p =
          Renderer.serveUpTo limit (r.serve q pointer).1 (r.serve q pointer).2 := by
        rw [Renderer.serveUpTo, hnext]
      obtain ⟨hrenderer, hqueues⟩ := ih hrest (r.serve q pointer).1
      rw [hstep]
      refine ⟨?_, hqueues⟩
      rw [hrenderer, hserved]
      rfl

private theorem length_le (h : p.Queues strings) : strings.length ≤ p.claims.length := by
  obtain ⟨contents, -, -, hwaiting, -⟩ := h
  rw [← hwaiting.length_eq, Pool.backlog, List.length_map]
  exact List.length_filter_le _ _

private theorem consume (h : p.Queues strings) (r : Renderer) :
    (r.consume p).1 = strings.foldl Renderer.executeBytes r ∧ (r.consume p).2.Queues [] := by
  have hall := h.serveUpTo r p.claims.length
  rw [List.take_of_length_le h.length_le, List.drop_of_length_le h.length_le] at hall
  exact hall

end Queues

section Closed

variable (p : Pool)

private theorem isClosed_serve (r : Renderer) (pointer : ClaimPointer) :
    (r.serve p pointer).2.isClosed = p.isClosed := by
  have hrelease := isClosed_release p pointer
  unfold Renderer.serve
  dsimp only
  split <;> rename_i hreleased <;> rw [hreleased] at hrelease <;> exact hrelease

private theorem isClosed_serveUpTo (r : Renderer) (limit : Nat) :
    (r.serveUpTo limit p).2.isClosed = p.isClosed := by
  induction limit generalizing p r with
  | zero => rfl
  | succ limit ih =>
    have hnext := isClosed_next p
    rw [Renderer.serveUpTo]
    split <;> rename_i hanswer <;> rw [hanswer] at hnext
    · exact hnext
    · exact (ih _ _).trans ((isClosed_serve _ _ _).trans hnext)

end Closed

end Pool

/-- A closed pool of which nothing is held, so that there is nothing to wait for. -/
structure Pool.Drained (p : Pool) : Prop where
  claims : p.claims = []
  inUse : p.inUse = 0
  isClosed : p.isClosed = true
  next : p.next.2 = none

/-- What happens at a pool while it is open. -/
inductive FeedTurn where
  | push (bytes : List UInt8)
  /-- The renderer serves the oldest claim, if there is one. -/
  | serve
deriving DecidableEq, Repr

/-- A renderer at a pool that is being filled. -/
structure Feed where
  renderer : Renderer
  pool : Pool
  /-- The bytes that were pushed with success, in order. -/
  accepted : List (List UInt8) := []

namespace Feed

def step (f : Feed) : FeedTurn → Feed
  | .push bytes =>
    match f.pool.push bytes with
    | (pool, .ok ()) => { f with pool, accepted := f.accepted ++ [bytes] }
    | (pool, .error _) => { f with pool }
  | .serve =>
    let (renderer, pool) := f.renderer.serveUpTo 1 f.pool
    { f with renderer, pool }

def run (f : Feed) (turns : List FeedTurn) : Feed := turns.foldl step f

private def Splits (first : Renderer) (f : Feed) : Prop :=
  ∃ served queued, f.accepted = served ++ queued ∧
    f.renderer = served.foldl Renderer.executeBytes first ∧ f.pool.Queues queued

variable {first : Renderer} {f : Feed}

private theorem Splits.step (h : Splits first f) (turn : FeedTurn) : Splits first
    (f.step turn) := by
  obtain ⟨served, queued, haccepted, hrenderer, hqueues⟩ := h
  cases turn with
  | push bytes =>
    rcases hqueues.push bytes with ⟨q, hpush, hnext⟩ | ⟨q, cause, hpush, hnext⟩
    · have hstep : f.step (.push bytes) = { f with pool := q, accepted := f.accepted ++ [bytes] } := by
        simp only [Feed.step, hpush]
      rw [hstep]
      exact ⟨served, queued ++ [bytes], by simp [haccepted], hrenderer, hnext⟩
    · have hstep : f.step (.push bytes) = { f with pool := q } := by
        simp only [Feed.step, hpush]
      rw [hstep]
      exact ⟨served, queued, haccepted, hrenderer, hnext⟩
  | serve =>
    obtain ⟨hserved, hrest⟩ := hqueues.serveUpTo f.renderer 1
    refine ⟨served ++ queued.take 1, queued.drop 1, ?_, ?_, hrest⟩
    · rw [List.append_assoc, List.take_append_drop]
      exact haccepted
    · rw [List.foldl_append, ← hrenderer]
      exact hserved

private theorem Splits.run (h : Splits first f) (turns : List FeedTurn) : Splits first
    (f.run turns) := by
  induction turns generalizing f with
  | nil => exact h
  | cons turn turns ih => exact ih (h.step turn)

/-- At a pool that was idle and is closed after some pushes, a renderer carries out the commands among
the bytes that were pushed, in order, whether it begins before or after the pool is closed. Of other
bytes nothing remains but their count and their reports; and then nothing of the pool is held. -/
theorem run_consume (bytes patience : Nat) (hbytes : bytes + Pool.alignment < Pool.wordLimit)
    (before : List Turn)
    (hidle : (Traffic.run ⟨.ofCapacity bytes patience, [], []⟩ before).1.pool.isIdle = true)
    (first : Renderer) (turns : List FeedTurn) :
    let pool := (Traffic.run ⟨.ofCapacity bytes patience, [], []⟩ before).1.pool
    let filled := run ⟨first, pool, []⟩ turns
    let last := filled.renderer.consume filled.pool.close
    let carriedOut := (Renderer.written filled.accepted).foldl Renderer.execute first
    carriedOut.DiffersBy last.1 (Renderer.refusals filled.accepted) ∧
      last.1.tally.decodeErrors =
        first.tally.decodeErrors + (Renderer.refusals filled.accepted).length ∧
      last.2.Drained := by
  intro pool filled last carriedOut
  have hstart : Splits first ⟨first, pool, []⟩ :=
    ⟨[], [], rfl, rfl, Pool.Queues.of_isIdle hbytes before hidle⟩
  obtain ⟨served, queued, haccepted, hrenderer, hqueues⟩ := hstart.run turns
  obtain ⟨hlast, hnothing⟩ := hqueues.close.consume filled.renderer
  have hall : last.1 = filled.accepted.foldl Renderer.executeBytes first := by
    rw [haccepted, List.foldl_append, ← hrenderer]
    exact hlast
  have hdiffers : carriedOut.DiffersBy last.1 (Renderer.refusals filled.accepted) := by
    rw [hall]
    exact (Renderer.differsBy_self first).foldl filled.accepted
  have hcount : last.1.tally.decodeErrors =
      carriedOut.tally.decodeErrors + (Renderer.refusals filled.accepted).length := by
    rw [hdiffers.state]
    rfl
  have hcommands : carriedOut.tally.decodeErrors = first.tally.decodeErrors :=
    first.decodeErrors_foldl _
  have hclosed : last.2.isClosed = true := Pool.isClosed_serveUpTo _ _ _
  obtain ⟨hclaims, hinUse⟩ := hnothing.idle_nil
  obtain ⟨q, hnext, -⟩ := hnothing.next_nil
  exact ⟨hdiffers, hcommands ▸ hcount, hclaims, hinUse, hclosed, congrArg Prod.snd hnext⟩

/-- Two bytes that are no command between two that are, in a pool with room for two of the three. -/
theorem run_consume_mixed :
    let before : List Turn := [.push [1], .next, .release 0]
    let pool := (Traffic.run ⟨.ofCapacity 32 5, [], []⟩ before).1.pool
    let first : Renderer :=
      { device := .ofSpec { width := 4, height := 4 }
        textures := { budget := 16, maxEntries := 0 }
        programs := { accuracy := .fast, capabilities := .all }
        reader := { narrowing := .nearest }
        screenWidth := 4
        screenHeight := 4 }
    let commands : List Command := [.setOtherModes 0 0x10, .invalidateRange 0 4]
    let filled := run ⟨first, pool, []⟩
      [.push (Command.encode (.setOtherModes 0 0x10)), .push [7, 7], .serve,
        .push (Command.encode (.invalidateRange 0 4))]
    let last := filled.renderer.consume filled.pool.close
    32 + Pool.alignment < Pool.wordLimit ∧ pool.isIdle = true ∧
      Renderer.written filled.accepted = commands ∧
      (commands.foldl Renderer.execute first).DiffersBy last.1 [.headerTooShort 2] ∧
      last.2.Drained := by
  intro before pool first commands filled last
  have hbytes : 32 + Pool.alignment < Pool.wordLimit := by decide
  have hidle : pool.isIdle = true := by decide +kernel
  have hwritten : Renderer.written filled.accepted = commands := by decide +kernel
  have hrefusals : Renderer.refusals filled.accepted = [.headerTooShort 2] := by decide +kernel
  obtain ⟨hdiffers, -, hdrained⟩ := run_consume 32 5 hbytes before hidle first
    [.push (Command.encode (.setOtherModes 0 0x10)), .push [7, 7], .serve,
      .push (Command.encode (.invalidateRange 0 4))]
  rw [hwritten, hrefusals] at hdiffers
  exact ⟨hbytes, hidle, hwritten, hdiffers, hdrained⟩

end Feed

end DisplayPipeline
