import DisplayPipeline.Proofs.DisplayList.Hosting
import DisplayPipeline.Proofs.DisplayList.Story

/-!
# Writes to memory are reported in time

A host notes which memory it wrote to. Each note reaches the renderer once, in order, before
anything is submitted that depends on memory and before a texture register changes. What carries
this through a run is that a batch is only ever open when nothing is left to report.
-/

namespace DisplayPipeline

variable {σ : Type}

namespace Command

def reportedWrite? : Command → Option MemoryWrite
  | invalidateRange address length => some ⟨address, length⟩
  | _ => none

/-- Whether a command gives the renderer something to sample, or uses or shows what it was given. -/
def dependsOnMemory : Command → Bool
  | setCombine .. | setOtherModes .. | setColors _ | invalidateRange .. => false
  | loadTexture _ | captureColorBuffer _ | drawTriangles _ | drawRects _ | fillRects _
  | endFrame => true

end Command

/-- The writes that were reported, in order, whether or not the reports were accepted. -/
def reportedWrites (attempts : List Attempt) : List MemoryWrite :=
  attempts.filterMap (·.command.reportedWrite?)

def HostCall.notedWrite? : HostCall → Option MemoryWrite
  | .notify address length => if length = 0 then none else some ⟨address, length⟩
  | .run .. | .endFrame => none

def notedWrites (calls : List HostCall) : List MemoryWrite := calls.filterMap (·.notedWrite?)

/-- From some submission on, all writes of a list are reported before anything that depends on
memory; some are still unreported. -/
structure Informing (noted : List MemoryWrite) (earlier : List Attempt)
    (unreported : List MemoryWrite) (attempts : List Attempt) : Prop where
  accounted : reportedWrites attempts ++ unreported = noted
  grown : earlier <+: attempts
  dependents : ∀ i a, earlier.length ≤ i → attempts[i]? = some a →
    a.command.dependsOnMemory = true → reportedWrites (attempts.take i) = noted

namespace Informing

variable {noted unreported after : List MemoryWrite} {earlier attempts : List Attempt}

private theorem start (h : reportedWrites attempts ++ unreported = noted) :
    Informing noted attempts unreported attempts where
  accounted := h
  grown := List.prefix_rfl
  dependents i a hi ha := by
    rw [List.getElem?_eq_none hi] at ha
    cases ha

/-- A submission reports the first of the unreported writes or none, and none is left if it depends
on memory. -/
theorem submit (h : Informing noted earlier unreported attempts) {a : Attempt}
    (hreport : a.command.reportedWrite?.toList ++ after = unreported)
    (hdepends : a.command.dependsOnMemory = true → unreported = []) :
    Informing noted earlier after (attempts ++ [a]) where
  accounted := by
    have hlast : reportedWrites [a] = a.command.reportedWrite?.toList := by
      rw [reportedWrites, List.filterMap_cons, List.filterMap_nil]
      cases a.command.reportedWrite? <;> rfl
    rw [← h.accounted, ← hreport, reportedWrites, List.filterMap_append, List.append_assoc, ← hlast]
    rfl
  grown := h.grown.trans (List.prefix_append _ _)
  dependents i b hi hb hcommand := by
    rcases Nat.lt_trichotomy i attempts.length with hlt | rfl | hgt
    · rw [List.getElem?_append_left hlt] at hb
      rw [List.take_append_of_le_length hlt.le]
      exact h.dependents i b hi hb hcommand
    · rw [List.getElem?_concat_length] at hb
      cases hb
      rw [List.take_left' rfl, ← h.accounted, hdepends hcommand, List.append_nil]
    · rw [List.getElem?_eq_none (by rw [List.length_append]; exact hgt)] at hb
      cases hb

private theorem submit_plain (h : Informing noted earlier unreported attempts) {a : Attempt}
    (hreport : a.command.reportedWrite? = none)
    (hdepends : a.command.dependsOnMemory = true → unreported = []) :
    Informing noted earlier unreported (attempts ++ [a]) := by
  refine h.submit ?_ hdepends
  rw [hreport]
  rfl

end Informing

namespace Link

def Informs (noted : List MemoryWrite) (earlier : List Attempt) (link : Link (Traced σ)) : Prop :=
  Informing noted earlier link.delivery.writes link.sink.attempts

structure Caught (noted : List MemoryWrite) (earlier : List Attempt) (link : Link (Traced σ)) :
    Prop where
  informs : link.Informs noted earlier
  writes : link.delivery.writes = []

/-- While a batch is open, nothing waits to be reported. -/
structure ReportedOnceOpen (noted : List MemoryWrite) (earlier : List Attempt)
    (link : Link (Traced σ)) :
    Prop where
  informs : link.Informs noted earlier
  batch : link.delivery.batch.isSome = true → link.delivery.writes = []

variable {noted : List MemoryWrite} {earlier : List Attempt} {link after : Link (Traced σ)}

private theorem Informs.congr (h : link.Informs noted earlier)
    (hwrites : after.delivery.writes = link.delivery.writes) (hsink : after.sink = link.sink) :
    after.Informs noted earlier := by
  rw [Informs, hwrites, hsink]
  exact h

private theorem Caught.congr (h : link.Caught noted earlier)
    (hwrites : after.delivery.writes = link.delivery.writes) (hsink : after.sink = link.sink) :
    after.Caught noted earlier :=
  ⟨h.informs.congr hwrites hsink, hwrites.trans h.writes⟩

private theorem Caught.reported (h : link.Caught noted earlier) :
    reportedWrites link.sink.attempts = noted := by
  have haccounted := h.informs.accounted
  rw [h.writes, List.append_nil] at haccounted
  exact haccounted

private theorem Caught.reportedOnceOpen (h : link.Caught noted earlier) :
    link.ReportedOnceOpen noted earlier :=
  ⟨h.informs, fun _ => h.writes⟩

private theorem ReportedOnceOpen.congr (h : link.ReportedOnceOpen noted earlier)
    (hdelivery : after.delivery = link.delivery)
    (hsink : after.sink = link.sink) : after.ReportedOnceOpen noted earlier := by
  refine ⟨h.informs.congr (congrArg _ hdelivery) hsink, ?_⟩
  rw [hdelivery]
  exact h.batch

end Link

namespace DeliverM

open Link

variable {o : Outlet σ} {noted : List MemoryWrite} {earlier : List Attempt}
  {link : Link (Traced σ)} {scene : Scene}

private theorem keeps_submit_caught (ho : o.Forgiving) {command : Command}
    (hreport : command.reportedWrite? = none) :
    Keeps (fun link => link.Caught noted earlier) (submit o.traced command) := by
  rintro link ⟨hinforms, hwrites⟩
  apply gives_submit_traced ho
  · exact fun sink => ⟨hinforms.submit_plain hreport fun _ => hwrites, hwrites⟩
  · exact fun sink cause => ⟨hinforms.submit_plain hreport fun _ => hwrites, hwrites⟩

private theorem keeps_update_caught {f : Delivery → Delivery} (hf : ∀ d, (f d).writes = d.writes) :
    Keeps (fun link => link.Caught noted earlier) (update (σ := Traced σ) f) :=
  fun link h => gives_update (h.congr (hf link.delivery) rfl)

private theorem keeps_update_batch_caught {f : Delivery → Delivery} (hf : OfBatch f) :
    Keeps (fun link => link.Caught noted earlier) (update (σ := Traced σ) f) := by
  apply keeps_update_caught
  intro d
  obtain ⟨_, hd⟩ := hf d
  rw [hd]

private theorem keeps_count_caught (f : ListTally → ListTally) :
    Keeps (fun link => link.Caught noted earlier) (count (σ := Traced σ) f) :=
  fun _ h => gives_count (h.congr rfl rfl)

private theorem keeps_drawBatch_caught (ho : o.Forgiving) :
    Keeps (fun link => link.Caught noted earlier) (drawBatch o.traced) := by
  refine keeps_drawBatch (fun b command hcommand => keeps_submit_caught ho ?_)
    (fun _ hf => keeps_update_batch_caught hf) keeps_count_caught
  rcases Batch.command?_cases hcommand with ⟨rfl, _⟩ | ⟨rfl, _⟩ | ⟨rfl, _⟩ <;> rfl

private theorem gives_closeBatch_informs (ho : o.Forgiving)
    (h : link.ReportedOnceOpen noted earlier) :
    Gives (closeBatch o.traced) link fun _ after =>
      after.Informs noted earlier ∧ after.delivery.batch = none := by
  apply gives_look
  by_cases hsome : link.delivery.batch.isSome = true
  · rw [if_pos hsome]
    have hcaught : link.Caught noted earlier := ⟨h.informs, h.batch hsome⟩
    refine gives_bind ((keeps_drawBatch_caught ho link hcaught).imp fun _ drawn hdrawn => ?_)
    exact gives_update ⟨hdrawn.informs.congr rfl rfl, rfl⟩
  · rw [if_neg hsome]
    exact gives_pure ⟨h.informs, Option.not_isSome_iff_eq_none.mp hsome⟩

private theorem gives_announce_informing (ho : o.Forgiving) {writes : List MemoryWrite}
    (h : Informing noted earlier writes link.sink.attempts) (hwrites : link.delivery.writes = [])
    (hbatch : link.delivery.batch = none) :
    Gives (announce o.traced writes) link fun _ after =>
      after.Caught noted earlier ∧ after.delivery.batch = none := by
  induction writes generalizing link with
  | nil =>
    refine gives_pure ⟨⟨?_, hwrites⟩, hbatch⟩
    rw [Informs, hwrites]
    exact h
  | cons write writes ih =>
    have hnext (refusal : Option PoolError) : Informing noted earlier writes
        (link.sink.attempts ++ [⟨.invalidateRange write.address write.length, refusal⟩]) :=
      h.submit rfl nofun
    apply gives_bind
    apply gives_submit_traced ho
    · exact fun sink => ih (hnext none) hwrites hbatch
    · exact fun sink cause => ih (hnext (some cause)) hwrites hbatch

private theorem gives_announceWrites_caught (ho : o.Forgiving) (h : link.Informs noted earlier)
    (hbatch : link.delivery.batch = none) :
    Gives (announceWrites o.traced) link fun _ after =>
      after.Caught noted earlier ∧ after.delivery.batch = none := by
  apply gives_look
  by_cases hwrites : link.delivery.writes = []
  · rw [if_neg (not_not_intro hwrites)]
    exact gives_pure ⟨⟨h, hwrites⟩, hbatch⟩
  · rw [if_pos hwrites]
    let emptied : Link (Traced σ) := { link with delivery.writes := [] }
    have hannounce : Gives (announce o.traced link.delivery.writes) emptied fun _ after =>
        after.Caught noted earlier ∧ after.delivery.batch = none :=
      gives_announce_informing ho h rfl hbatch
    refine gives_bind (gives_update (gives_bind (hannounce.imp fun _ announced hannounced => ?_)))
    exact gives_update ⟨hannounced.1.congr rfl rfl, hannounced.2⟩

private theorem gives_settle_caught (ho : o.Forgiving) (h : link.ReportedOnceOpen noted earlier) :
    Gives (settle o.traced) link fun _ after =>
      after.Caught noted earlier ∧ after.delivery.batch = none :=
  gives_bind ((gives_closeBatch_informs ho h).imp fun _ _ hclosed =>
    gives_announceWrites_caught ho hclosed.1 hclosed.2)

private theorem keeps_tellRegisters_caught (ho : o.Forgiving) (key : BatchKey) :
    Keeps (fun link => link.Caught noted earlier) (tellRegisters o.traced scene key) := by
  apply keeps_tellRegisters
  · intro command hkind
    apply keeps_submit_caught ho
    cases command <;> first | rfl | cases hkind
  · intro f hf
    apply keeps_update_caught
    intro d
    obtain ⟨_, hd, _⟩ := hf d
    rw [hd]

private theorem keeps_sendTextures_caught (ho : o.Forgiving) (tile : TileIndex) (mux : UInt64) :
    Keeps (fun link => link.Caught noted earlier) (sendTextures o.traced scene tile mux) := by
  refine keeps_sendTextures_of tile mux (fun unit tile command hcommand => ?_)
    (fun _ _ => keeps_update_caught fun _ => rfl) (keeps_update_caught fun _ => rfl)
  apply keeps_submit_caught ho
  rcases scene.kind_of_textureCommand? hcommand with hkind | hkind <;>
    cases command <;> first | rfl | cases hkind

private theorem gives_openBatch_caught (ho : o.Forgiving) (key : BatchKey)
    (h : link.ReportedOnceOpen noted earlier) :
    Gives (openBatch o.traced scene key) link fun _ after => after.Caught noted earlier := by
  apply gives_look
  have hopen : Keeps (fun link => link.Caught noted earlier)
      (update (σ := Traced σ) ({ · with batch := some { key } })) :=
    keeps_update_caught fun _ => rfl
  by_cases hsame : link.delivery.batch.map (·.key) = some key
  · rw [if_neg (not_not_intro hsame)]
    obtain ⟨_, hbatch, _⟩ := Option.map_eq_some_iff.mp hsame
    exact gives_pure ⟨h.informs, h.batch (by rw [hbatch]; rfl)⟩
  · rw [if_pos hsame]
    refine gives_bind ((gives_settle_caught ho h).imp fun _ settled ⟨hsettled, _⟩ => ?_)
    refine keeps_if (I := fun link => link.Caught noted earlier) ?_ hopen settled hsettled
    refine keeps_bind (keeps_tellRegisters_caught ho key) fun _ => keeps_if ?_ hopen
    exact keeps_bind (keeps_sendTextures_caught ho key.tile _) fun _ => hopen

private theorem gives_retexture_caught (ho : o.Forgiving)
    (h : link.ReportedOnceOpen noted earlier) :
    Gives (perform o.traced scene .retexture) link fun _ after => after.Caught noted earlier :=
  gives_bind ((gives_settle_caught ho h).imp fun _ _ hsettled =>
    gives_update (hsettled.1.congr rfl rfl))

private theorem keeps_perform_reportedOnceOpen (ho : o.Forgiving) (request : Request) :
    Keeps (fun link => link.ReportedOnceOpen noted earlier) (perform o.traced scene request) := by
  intro link h
  cases request with
  | close =>
    refine (gives_closeBatch_informs ho h).imp fun _ after ⟨hinforms, hnone⟩ => ⟨hinforms, ?_⟩
    rw [hnone]
    exact nofun
  | retexture => exact (gives_retexture_caught ho h).imp fun _ _ hcaught => hcaught.reportedOnceOpen
  | drop =>
    exact gives_count (f := fun tally =>
      { tally with droppedTriangles := tally.droppedTriangles + 1 }) (h.congr rfl rfl)
  | draw key primitive =>
    have hdraw : Gives (draw o.traced scene key primitive) link
        fun _ after => after.Caught noted earlier :=
      gives_draw_keeps primitive (gives_openBatch_caught ho key h) (keeps_drawBatch_caught ho)
        (fun _ hf => keeps_update_batch_caught hf) keeps_count_caught
    exact hdraw.imp fun _ _ hcaught => hcaught.reportedOnceOpen

private theorem keeps_performAll_reportedOnceOpen (ho : o.Forgiving) (requests : List Request) :
    Keeps (fun link => link.ReportedOnceOpen noted earlier) (performAll o.traced scene requests) := by
  induction requests with
  | nil => exact keeps_pure ()
  | cons request requests ih =>
    exact keeps_bind (keeps_perform_reportedOnceOpen ho request) fun _ => ih

end DeliverM

namespace Machine

open Link

variable {o : Outlet σ} {noted : List MemoryWrite} {earlier : List Attempt} {ram : Ram}
  {settings : ListSettings} {m : Machine (Traced σ)}

/-- The link once what the instruction asks for is delivered. Registers have not changed yet. -/
def delivered (o : Outlet σ) (ram : Ram) (settings : ListSettings) (m : Machine σ) : Link σ :=
  let scene := m.visit.scene ram settings
  DeliverM.after (DeliverM.performAll o scene (scene.requests (m.visit.instruction ram))) m.counted

private theorem Beside.reportedOnceOpen {after : Machine (Traced σ)} (hbeside : m.Beside after)
    (h : m.link.ReportedOnceOpen noted earlier) : after.link.ReportedOnceOpen noted earlier :=
  h.congr hbeside.delivery hbeside.sink

theorem step_delivered (ho : o.Forgiving) (ram : Ram) (settings : ListSettings) (m : Machine σ) :
    Beside ⟨(m.visit.scene ram settings).advance (m.visit.instruction ram), m.walk,
      m.delivered o ram settings⟩ (m.step o ram settings).after := by
  obtain ⟨_, link, hperformed, _⟩ := DeliverM.gives_performAll_true ho
    (m.visit.scene ram settings) ((m.visit.scene ram settings).requests (m.visit.instruction ram))
    m.counted
  obtain ⟨after, hbeside, _, _, hstep⟩ := step_of_performed hperformed
  rw [delivered, DeliverM.after_eq hperformed, hstep]
  exact hbeside.trans (follow_beside after _ _ _)

private theorem step_reportedOnceOpen (ho : o.Forgiving)
    (h : m.link.ReportedOnceOpen noted earlier) :
    (m.step o.traced ram settings).after.link.ReportedOnceOpen noted earlier := by
  have hcounted : m.counted.ReportedOnceOpen noted earlier := h.congr rfl rfl
  obtain ⟨_, link, hperformed, hlink⟩ := DeliverM.keeps_performAll_reportedOnceOpen ho
    ((m.visit.scene ram settings).requests (m.visit.instruction ram)) m.counted hcounted
  have hbeside := step_delivered ho.traced ram settings m
  rw [delivered, DeliverM.after_eq hperformed] at hbeside
  exact hbeside.reportedOnceOpen hlink

private theorem delivered_texture (ho : o.Forgiving) (h : m.link.ReportedOnceOpen noted earlier)
    {change : TextureChange} (htexture : m.visit.instruction ram = .texture change) :
    (m.delivered o.traced ram settings).Caught noted earlier := by
  have hcounted : m.counted.ReportedOnceOpen noted earlier := h.congr rfl rfl
  obtain ⟨_, link, hretexture, hlink⟩ : DeliverM.Gives
      (DeliverM.perform o.traced (m.visit.scene ram settings) .retexture) m.counted
      fun _ after => after.Caught noted earlier :=
    DeliverM.gives_retexture_caught ho hcounted
  have hperformed : DeliverM.performAll o.traced (m.visit.scene ram settings) [.retexture]
      m.counted = .ok () link := by
    change EStateM.bind _ _ _ = _
    rw [EStateM.bind, hretexture]
    rfl
  have hdelivered : m.delivered o.traced ram settings = link := by
    rw [delivered, htexture]
    exact DeliverM.after_eq hperformed
  rw [hdelivered]
  exact hlink

end Machine

namespace Hosting

open Link

variable {o : Outlet σ} {h : Hosting (Traced σ)} {noted : List MemoryWrite}

def link (h : Hosting σ) : Link σ := ⟨h.processor.delivery, h.processor.journal, h.sink⟩

def course (o : Outlet σ) (h : Hosting σ) (ram : Ram) (start : UInt32) : List (Machine σ) :=
  (h.processor.machine ram start h.sink).course o ram h.processor.settings
    h.processor.settings.budget

/-- A call submits what depends on memory, and sets texture registers, only once all writes noted
before it have been reported. -/
structure ReportsFirst (o : Outlet σ) (h : Hosting (Traced σ)) (noted : List MemoryWrite)
    (call : HostCall) : Prop where
  grown : h.sink.attempts <+: (h.serve o.traced call).sink.attempts
  dependents : ∀ i a, h.sink.attempts.length ≤ i →
    (h.serve o.traced call).sink.attempts[i]? = some a → a.command.dependsOnMemory = true →
    reportedWrites ((h.serve o.traced call).sink.attempts.take i) = noted
  textures : ∀ ram start, call = .run ram start → ∀ m ∈ h.course o.traced ram start,
    ∀ change, m.visit.instruction ram = .texture change →
      reportedWrites (m.delivered o.traced ram h.processor.settings).sink.attempts = noted ∧
      (m.step o.traced ram h.processor.settings).after.registers =
        m.registers.applyTexture ram change
  ended : call = .endFrame → reportedWrites (h.serve o.traced call).sink.attempts = noted

/-- Between calls no batch is open, and each note is reported or waits. -/
structure Informed (noted : List MemoryWrite) (h : Hosting (Traced σ)) : Prop where
  accounted : reportedWrites h.sink.attempts ++ h.processor.delivery.writes = noted
  closed : h.processor.delivery.batch = none

private theorem Informed.reportedOnceOpen (hh : h.Informed noted) :
    h.link.ReportedOnceOpen noted h.sink.attempts := by
  refine ⟨Informing.start hh.accounted, fun hsome => ?_⟩
  rw [link, hh.closed] at hsome
  cases hsome

/-- What waits to be reported never overtakes a batch while a run is under way. -/
theorem walk_reportedOnceOpen (ho : o.Forgiving) (hh : h.Informed noted) (ram : Ram)
    (start : UInt32) :
    ((h.processor.machine ram start h.sink).walkFor o.traced ram h.processor.settings
      h.processor.settings.budget).1.link.ReportedOnceOpen noted h.sink.attempts ∧
      ∀ m ∈ h.course o.traced ram start, m.link.ReportedOnceOpen noted h.sink.attempts :=
  Machine.walkFor_keeps (P := fun m => m.link.ReportedOnceOpen noted h.sink.attempts)
    (fun _ hm => Machine.step_reportedOnceOpen ho hm) _ hh.reportedOnceOpen

private theorem serve_run_informs (ho : o.Forgiving) (hh : h.Informed noted) (ram : Ram)
    (start : UInt32) :
    (h.serve o.traced (.run ram start)).link.Informs noted h.sink.attempts ∧
      (h.serve o.traced (.run ram start)).Informed noted := by
  obtain ⟨hlast, _⟩ := walk_reportedOnceOpen ho hh ram start
  obtain ⟨closed, ⟨hinforms, hnone⟩, hrun⟩ := ListProcessor.run_closes rfl
    (Machine.walkFor_not_refused ho.traced ram h.processor.settings h.processor.settings.budget _)
    fun link hbeside => DeliverM.gives_closeBatch_informs ho (hbeside.reportedOnceOpen hlast)
  rw [serve, hrun]
  exact ⟨hinforms, hinforms.accounted, hnone⟩

private theorem serve_endFrame_caught (ho : o.Forgiving) (hh : h.Informed noted) :
    (h.serve o.traced .endFrame).link.Caught noted h.sink.attempts ∧
      (h.serve o.traced .endFrame).processor.delivery.batch = none := by
  obtain ⟨_, settled, hsettle, hsettled, hnone⟩ := DeliverM.gives_settle_caught ho hh.reportedOnceOpen
  have hend : DeliverM.Keeps (fun link => link.Caught noted h.sink.attempts)
      (DeliverM.submit o.traced .endFrame) := DeliverM.keeps_submit_caught ho rfl
  obtain ⟨_, last, hsubmit, hlast, hclosed⟩ :=
    (hend.and (DeliverM.keeps_submit_batch ho.traced .endFrame none)) settled ⟨hsettled, hnone⟩
  have hserve : h.serve o.traced .endFrame =
      ⟨⟨h.processor.settings,
          { h.processor.registers with render := h.processor.registers.render.endFrame },
          last.delivery, last.journal⟩, last.sink, h.replies ++ [.ended (.ok ())]⟩ := by
    rw [serve, ListProcessor.endFrame_eq hsettle hsubmit]
  rw [hserve]
  exact ⟨hlast, hclosed⟩

private theorem serve_notify_informed (hh : h.Informed noted) (address length : UInt32) :
    (h.serve o.traced (.notify address length)).Informed
      (noted ++ (HostCall.notify address length).notedWrite?.toList) := by
  obtain ⟨haccounted, hclosed⟩ := hh
  rw [serve, ListProcessor.notify, HostCall.notedWrite?]
  by_cases hlength : length = 0
  · rw [if_pos hlength, if_pos hlength, Option.toList_none, List.append_nil]
    exact ⟨haccounted, hclosed⟩
  · rw [if_neg hlength, if_neg hlength]
    refine ⟨?_, hclosed⟩
    rw [← haccounted, List.append_assoc]
    rfl

private theorem serve_informed (ho : o.Forgiving) (hh : h.Informed noted) (call : HostCall) :
    (h.serve o.traced call).Informed (noted ++ call.notedWrite?.toList) := by
  cases call with
  | run ram start =>
    rw [HostCall.notedWrite?, Option.toList_none, List.append_nil]
    exact (serve_run_informs ho hh ram start).2
  | notify address length => exact serve_notify_informed hh address length
  | endFrame =>
    obtain ⟨hcaught, hnone⟩ := serve_endFrame_caught ho hh
    rw [HostCall.notedWrite?, Option.toList_none, List.append_nil]
    exact ⟨hcaught.informs.accounted, hnone⟩

private theorem serve_reportsFirst (ho : o.Forgiving) (hh : h.Informed noted) (call : HostCall) :
    h.ReportsFirst o noted call := by
  cases call with
  | run ram start =>
    obtain ⟨hinforms, _⟩ := serve_run_informs ho hh ram start
    refine ⟨hinforms.grown, hinforms.dependents, ?_, nofun⟩
    rintro _ _ ⟨rfl, rfl⟩ m hm change htexture
    obtain ⟨_, hcourse⟩ := walk_reportedOnceOpen ho hh ram start
    refine ⟨(Machine.delivered_texture ho (hcourse m hm) htexture).reported, ?_⟩
    rw [(Machine.step_delivered ho.traced ram h.processor.settings m).registers, htexture]
    rfl
  | notify address length =>
    refine ⟨List.prefix_rfl, ?_, nofun, nofun⟩
    exact (Informing.start hh.accounted).dependents
  | endFrame =>
    obtain ⟨hcaught, _⟩ := serve_endFrame_caught ho hh
    exact ⟨hcaught.informs.grown, hcaught.informs.dependents, nofun, fun _ => hcaught.reported⟩

private theorem serveAll_informed (ho : o.Forgiving) (hh : h.Informed noted)
    (calls : List HostCall) :
    (h.serveAll o.traced calls).Informed (noted ++ notedWrites calls) := by
  induction calls generalizing h noted with
  | nil =>
    rw [notedWrites, List.filterMap_nil, List.append_nil]
    exact hh
  | cons call calls ih =>
    have hnotes : notedWrites (call :: calls) = call.notedWrite?.toList ++ notedWrites calls := by
      rw [notedWrites, List.filterMap_cons]
      cases call.notedWrite? <;> rfl
    rw [hnotes, ← List.append_assoc]
    exact ih (serve_informed ho hh call)

theorem start_informed (ho : o.Forgiving) (settings : ListSettings) (sink : σ)
    (calls : List HostCall) :
    ((start settings (⟨sink, []⟩ : Traced σ)).serveAll o.traced calls).Informed
      (notedWrites calls) := by
  have hstart : (start settings (⟨sink, []⟩ : Traced σ)).Informed [] := ⟨rfl, rfl⟩
  have hserved := serveAll_informed ho hstart calls
  rw [List.nil_append] at hserved
  exact hserved

/-- Whatever a host asks for, each write that it notes is reported once, in order, before anything
submitted later that depends on memory and before any texture register changes. -/
theorem serveAll_reportsFirst (ho : o.Forgiving) (settings : ListSettings) (sink : σ)
    (calls : List HostCall) :
    let h := (start settings (⟨sink, []⟩ : Traced σ)).serveAll o.traced calls
    reportedWrites h.sink.attempts ++ h.processor.delivery.writes = notedWrites calls ∧
      ∀ call, h.ReportsFirst o (notedWrites calls) call := by
  have hserved := start_informed ho settings sink calls
  exact ⟨hserved.accounted, serve_reportsFirst ho hserved⟩

/-- Texels at an address are loaded and drawn. Memory has the size of the list and two words. -/
def loadedRectRam (address : UInt32) : Ram where
  bytes := ⟨([0xFD500000, address, 0xF5400000, 0, 0xF3000000, 0, 0xE4010010, 0, 0xE1000000, 0,
    0xF1000000, 0x04000400, 0xDF000000, 0, 0x11111111, 0x22222222].flatMap Word.be32).toArray⟩
  -- sixteen words of four bytes
  logSize := 4 + 2
  size_eq := by rfl
  logSize_le := by decide

def rewritingCalls : List HostCall :=
  [.notify 56 2, .notify 60 0, .run (loadedRectRam 56) 0, .notify 57 1, .notify 56 2]

/-- The first report is refused and not made again. -/
theorem serveAll_reportsFirst_rewriting :
    (Outlet.refusingOnly 0).Forgiving ∧
      notedWrites rewritingCalls = [⟨56, 2⟩, ⟨57, 1⟩, ⟨56, 2⟩] ∧
      (((start {} (⟨0, []⟩ : Traced Nat)).serveAll (Outlet.refusingOnly 0).traced
        (rewritingCalls ++ [.run (loadedRectRam 56) 0])).sink.attempts.map (·.command.kind)) =
        [.invalidateRange, .setCombine, .setOtherModes, .setColors, .loadTexture, .drawRects,
          .invalidateRange, .invalidateRange, .loadTexture, .drawRects] ∧
      ((start {} (⟨0, []⟩ : Traced Nat)).serveAll (Outlet.refusingOnly 0).traced
        rewritingCalls).ReportsFirst (Outlet.refusingOnly 0) (notedWrites rewritingCalls)
          (.run (loadedRectRam 56) 0) := by
  have hforgiving := Outlet.refusingOnly_forgiving 0
  refine ⟨hforgiving, by decide +kernel, by decide +kernel, ?_⟩
  exact (serveAll_reportsFirst hforgiving {} 0 rewritingCalls).2 (.run (loadedRectRam 56) 0)

end Hosting

end DisplayPipeline
