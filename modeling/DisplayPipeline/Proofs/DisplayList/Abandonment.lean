import DisplayPipeline.Proofs.DisplayList.FinalRefusal
import DisplayPipeline.Proofs.DisplayList.Hosting
import DisplayPipeline.Proofs.DisplayList.RegisterDelivery
import DisplayPipeline.Proofs.DisplayList.WriteReports

/-!
# Calls that a final refusal ends

Between the calls of a host a batch is open only if its draw was refused for good and ended a run, and
only until another list runs or the frame ends. Whatever is called after a final refusal, the renderer
is told of all registers before it draws with them, unless the batch that was left open is drawn
first.
-/

namespace DisplayPipeline

variable {σ : Type}

namespace Link

/-- What a run has left so far, with its outcome once it has one. -/
private structure Reached (first : Link (Traced σ)) (outcome : Option ListOutcome)
    (link : Link (Traced σ)) : Prop where
  retelling : first.Retelling link []
  abandoned : ∀ cause, outcome = some (.aborted (.refused cause)) → first.Abandoned cause link

/-- What a call leaves: a batch is open only after a final refusal. -/
structure Ended (first : Link (Traced σ)) (refusal : Option PoolError) (link : Link (Traced σ)) :
    Prop where
  retelling : first.Retelling link []
  closed : refusal = none → link.delivery.batch = none
  abandoned : ∀ cause, refusal = some cause → first.Abandoned cause link

/-- A batch is open exactly if the draw that was submitted last was refused for good. -/
theorem Ended.open_iff {first link : Link (Traced σ)} {refusal : Option PoolError}
    (h : first.Ended refusal link) :
    link.delivery.batch ≠ none ↔ ∃ cause command, refusal = some cause ∧
      link.sink.attempts.getLast? = some ⟨command, some cause⟩ ∧ command.draws = true := by
  constructor
  · intro hopen
    obtain ⟨cause, hcause⟩ := Option.ne_none_iff_exists'.mp fun hnone => hopen (h.closed hnone)
    obtain ⟨command, hlast, hbatch⟩ := (h.abandoned cause hcause).blamed
    refine ⟨cause, command, hcause, hlast, ?_⟩
    by_contra hdraws
    rw [if_neg hdraws] at hbatch
    exact hopen hbatch
  · rintro ⟨cause, command, hcause, hlast, hdraws⟩
    obtain ⟨other, hother, hbatch⟩ := (h.abandoned cause hcause).blamed
    cases hlast.symm.trans hother
    rw [if_pos hdraws] at hbatch
    obtain ⟨key, hkey⟩ := hbatch
    rw [hkey]
    exact nofun

private theorem Ended.empty {first link : Link (Traced σ)} {refusal : Option PoolError}
    (h : first.Ended refusal link) {b : Batch} (hb : link.delivery.batch = some b) :
    b = b.emptied := by
  cases refusal with
  | none =>
    rw [h.closed rfl] at hb
    cases hb
  | some cause =>
    obtain ⟨command, -, hbatch⟩ := (h.abandoned cause rfl).blamed
    split at hbatch
    · obtain ⟨key, hkey⟩ := hbatch
      cases hkey.symm.trans hb
      rfl
    · cases hbatch.symm.trans hb

end Link

namespace ListOutcome

private def refusal? : ListOutcome → Option PoolError
  | aborted (.refused cause) => some cause
  | _ => none

private theorem refusal?_eq_some {outcome : ListOutcome} {cause : PoolError} :
    outcome.refusal? = some cause ↔ outcome = .aborted (.refused cause) := by
  rcases outcome with _ | _ | _ | other
  case aborted.refused =>
    rw [refusal?, Option.some.injEq, aborted.injEq, ListFault.refused.injEq]
  all_goals exact iff_of_false nofun nofun

end ListOutcome

namespace Machine

variable {o : Outlet σ} {first : Link (Traced σ)} {m : Machine (Traced σ)}

private theorem step_reached (hm : first.Retelling m.link []) (ram : Ram)
    (settings : ListSettings) :
    first.Reached (m.step o.traced ram settings).ending?
      (m.step o.traced ram settings).after.link := by
  let scene := m.visit.scene ram settings
  let requests := scene.requests (m.visit.instruction ram)
  have hcounted : first.Retelling m.counted [] := hm.congr rfl rfl rfl
  have hleaves : DeliverM.Leaves (DeliverM.performAll o.traced scene requests) m.counted
      (fun _ after => first.Retelling after []) first.Abandoned :=
    DeliverM.leaves_performAll hcounted scene (scene.suits_requests (m.visit.instruction ram))
  cases hperformed : DeliverM.performAll o.traced scene requests m.counted with
  | error cause link =>
    have habandoned := hleaves.of_error hperformed
    have hstep : m.step o.traced ram settings =
        .stop ⟨m.registers, m.walk, link⟩ (.aborted (.refused cause)) := by
      rw [step_eq, hperformed]
    rw [hstep]
    refine ⟨habandoned.retelling, ?_⟩
    rintro other ⟨⟩
    exact habandoned
  | ok _ link =>
    obtain ⟨after, hbeside, _, _, hstep⟩ := step_of_performed hperformed
    rw [hstep]
    have hlast := hbeside.trans (follow_beside after settings.maxDepth m.walk.address
      (scene.move (Instruction.fetch ram m.walk.address).2 (m.visit.instruction ram)))
    refine ⟨?_, fun cause hending => ?_⟩
    · refine (hleaves.of_ok hperformed).congr hlast.sink (congrArg _ hlast.delivery) ?_
      rw [hlast.delivery]
    · exact absurd hending (follow_not_refused after settings.maxDepth m.walk.address _ cause)

private theorem walkFor_reached (hm : first.Retelling m.link []) (ram : Ram)
    (settings : ListSettings) (budget : Nat) :
    first.Reached (m.walkFor o.traced ram settings budget).2
      (m.walkFor o.traced ram settings budget).1.link := by
  refine walkFor_accumulates (R := fun _ m ended => first.Reached ended m.link) ?_ budget ⟨hm, nofun⟩
  exact fun _ m hreached => step_reached hreached.retelling ram settings

private theorem finish_ended {outcome : ListOutcome} (hm : first.Reached (some outcome) m.link) :
    first.Ended (m.finish o.traced outcome).2.refusal? (m.finish o.traced outcome).1.link := by
  by_cases hrefused : ∃ cause, outcome = .aborted (.refused cause)
  · obtain ⟨cause, rfl⟩ := hrefused
    refine ⟨hm.retelling, nofun, ?_⟩
    rintro other ⟨⟩
    exact hm.abandoned cause rfl
  have hnone : outcome.refusal? = none := by
    refine Option.eq_none_iff_forall_ne_some.mpr fun cause hcause => ?_
    exact hrefused ⟨cause, ListOutcome.refusal?_eq_some.mp hcause⟩
  have hleaves := DeliverM.leaves_closeBatch (o := o) hm.retelling
  unfold finish
  split
  · exact absurd ⟨_, rfl⟩ hrefused
  cases hclose : DeliverM.closeBatch o.traced m.link with
  | ok _ link =>
    obtain ⟨hafter, hclosed⟩ := hleaves.of_ok hclose
    refine ⟨hafter, fun _ => hclosed, fun cause hcause => ?_⟩
    cases hnone.symm.trans hcause
  | error cause link =>
    have habandoned := hleaves.of_error hclose
    refine ⟨habandoned.retelling, nofun, ?_⟩
    rintro other ⟨⟩
    exact habandoned

end Machine

namespace ListProcessor

variable {o : Outlet σ} {first : Link (Traced σ)} {p : ListProcessor} {sink : Traced σ}

private theorem run_ended (hp : first.Retelling ⟨p.delivery, p.journal, sink⟩ []) (ram : Ram)
    (start : UInt32) :
    let left := p.run o.traced ram start sink
    first.Ended left.2.2.refusal? ⟨left.1.delivery, left.1.journal, left.2.1⟩ := by
  have hwalked : first.Reached
      ((p.machine ram start sink).walkFor o.traced ram p.settings p.settings.budget).2
      ((p.machine ram start sink).walkFor o.traced ram p.settings p.settings.budget).1.link :=
    Machine.walkFor_reached hp ram p.settings p.settings.budget
  cases hwalk : (p.machine ram start sink).walkFor o.traced ram p.settings p.settings.budget with
  | mk last ended =>
    rw [hwalk] at hwalked
    unfold machine at hwalk
    unfold run
    dsimp only
    rw [hwalk]
    apply Machine.finish_ended
    cases ended with
    | some outcome => exact hwalked
    | none => exact ⟨hwalked.retelling.congr rfl rfl rfl, nofun⟩

private theorem endFrame_ended (hp : first.Retelling ⟨p.delivery, p.journal, sink⟩ [])
    (hempty : ∀ b, p.delivery.batch = some b → b = b.emptied) :
    let left := p.endFrame o.traced sink
    left.1.delivery.batch = none ∧
      first.Retelling ⟨left.1.delivery, left.1.journal, left.2.1⟩ [] ∧
      ∀ cause, left.2.2 = .error (.refused cause) →
        first.Abandoned cause ⟨left.1.delivery, left.1.journal, left.2.1⟩ := by
  have hsettle := DeliverM.leaves_settle_emptied (o := o) hp hempty
  unfold endFrame
  cases hsettled : DeliverM.settle o.traced ⟨p.delivery, p.journal, sink⟩ with
  | error cause link =>
    obtain ⟨habandoned, hclosed⟩ := hsettle.of_error hsettled
    refine ⟨hclosed, habandoned.retelling, ?_⟩
    rintro other ⟨⟩
    exact habandoned
  | ok _ link =>
    obtain ⟨hlink, hclosed⟩ := hsettle.of_ok hsettled
    have hend : DeliverM.LeavesClosed (DeliverM.submit o.traced .endFrame) first link _ :=
      DeliverM.leaves_submit_plain hlink hclosed rfl
    dsimp only
    cases hlast : DeliverM.submit o.traced .endFrame link with
    | error cause last =>
      obtain ⟨habandoned, hstill⟩ := hend.of_error hlast
      refine ⟨hstill, habandoned.retelling, ?_⟩
      rintro other ⟨⟩
      exact habandoned
    | ok _ last =>
      obtain ⟨hafter, hstill⟩ := hend.of_ok hlast
      exact ⟨hstill, hafter.few, nofun⟩

end ListProcessor

namespace Hosting

variable {o : Outlet σ} {first : Link (Traced σ)} {h : Hosting (Traced σ)}

/-- What the host was told of by the last call, if that failed. -/
def lastFault? (h : Hosting σ) : Option ListFault := h.replies.getLast?.bind (·.fault?)

/-- The reply to the last call that was not a note of a write. -/
def lastAnswer? (h : Hosting σ) : Option HostReply := (h.replies.filter (· ≠ .noted)).getLast?

section Replies

variable {earlier served : Hosting σ} {reply : HostReply}

private theorem lastFault?_of_replies (h : served.replies = earlier.replies ++ [reply]) :
    served.lastFault? = reply.fault? := by
  rw [lastFault?, h, List.getLast?_concat]
  rfl

private theorem lastAnswer?_of_noted (h : served.replies = earlier.replies ++ [.noted]) :
    served.lastAnswer? = earlier.lastAnswer? := by
  rw [lastAnswer?, h, List.filter_append]
  exact congrArg _ (List.append_nil _)

private theorem lastAnswer?_of_replies (h : served.replies = earlier.replies ++ [reply])
    (hreply : reply ≠ .noted) : served.lastAnswer? = some reply := by
  have hkept : [reply].filter (· ≠ .noted) = [reply] :=
    List.filter_eq_self.mpr (List.forall_mem_singleton.mpr (decide_eq_true hreply))
  rw [lastAnswer?, h, List.filter_append, hkept, List.getLast?_concat]

end Replies

/-- But for notes of writes, the last call was a run that ended as its draw was refused for good. -/
def LostDraw (h : Hosting (Traced σ)) : Prop :=
  ∃ cause command, h.lastAnswer? = some (.ran (.aborted (.refused cause))) ∧
    h.sink.attempts.getLast? = some ⟨command, some cause⟩ ∧ command.draws = true

private structure Paused (h : Hosting (Traced σ)) : Prop where
  empty : ∀ b, h.processor.delivery.batch = some b → b = b.emptied
  lost : h.processor.delivery.batch ≠ none ↔ h.LostDraw
  forgotten : ∀ cause, h.lastFault? = some (.refused cause) →
    h.processor.delivery.told = {} ∧ h.processor.delivery.texturesStale = true

private theorem start_paused (settings : ListSettings) (sink : σ) :
    (start settings (⟨sink, []⟩ : Traced σ)).Paused := by
  refine ⟨nofun, iff_of_false (fun hopen => hopen rfl) ?_, nofun⟩
  rintro ⟨cause, command, ⟨⟩, -⟩

private theorem Paused.retelling (hh : h.Paused) : h.link.Retelling h.link [] := by
  refine Link.retelling_self h.link fun b hb => ?_
  rw [hh.empty b hb]
  exact b.oneSort_emptied

private theorem serve_run_paused (hfirst : first.Retelling h.link []) (ram : Ram) (start : UInt32) :
    first.Retelling (h.serve o.traced (.run ram start)).link [] ∧
      (h.serve o.traced (.run ram start)).Paused := by
  have hended := ListProcessor.run_ended (o := o) hfirst ram start
  let served := h.serve o.traced (.run ram start)
  let outcome := (h.processor.run o.traced ram start h.sink).2.2
  have hreplies : served.replies = h.replies ++ [.ran outcome] := rfl
  refine ⟨hended.retelling, fun b hb => hended.empty hb, ?_, fun cause hcause => ?_⟩
  · refine hended.open_iff.trans (exists_congr fun cause => exists_congr fun command => ?_)
    refine and_congr_left fun _ => ?_
    rw [ListOutcome.refusal?_eq_some, lastAnswer?_of_replies hreplies nofun, Option.some.injEq,
      HostReply.ran.injEq]
  · rw [lastFault?_of_replies hreplies] at hcause
    have habandoned := hended.abandoned cause
      (ListOutcome.refusal?_eq_some.mpr (HostReply.ran_of_fault? hcause))
    exact ⟨habandoned.told, habandoned.stale⟩

private theorem serve_endFrame_paused (hh : h.Paused) (hfirst : first.Retelling h.link []) :
    first.Retelling (h.serve o.traced .endFrame).link [] ∧
      (h.serve o.traced .endFrame).Paused := by
  obtain ⟨hclosed, hlast, habandoned⟩ := ListProcessor.endFrame_ended (o := o) hfirst hh.empty
  let served := h.serve o.traced .endFrame
  let result := (h.processor.endFrame o.traced h.sink).2.2
  have hreplies : served.replies = h.replies ++ [.ended result] := rfl
  refine ⟨hlast, fun b hb => ?_, iff_of_false (fun hopen => hopen hclosed) ?_, fun cause hcause => ?_⟩
  · cases hclosed.symm.trans hb
  · rintro ⟨cause, command, hran, -⟩
    cases (lastAnswer?_of_replies hreplies nofun).symm.trans hran
  · rw [lastFault?_of_replies hreplies] at hcause
    have hresult : result = .error (.refused cause) := HostReply.ended_of_fault? hcause
    exact ⟨(habandoned cause hresult).told, (habandoned cause hresult).stale⟩

private theorem serve_notify_paused (hh : h.Paused) (hfirst : first.Retelling h.link [])
    (address length : UInt32) :
    first.Retelling (h.serve o.traced (.notify address length)).link [] ∧
      (h.serve o.traced (.notify address length)).Paused := by
  let served := h.serve o.traced (.notify address length)
  have hreplies : served.replies = h.replies ++ [.noted] := rfl
  obtain ⟨writes, hnoted⟩ := h.processor.notify_delivery address length
  have hbatch : served.processor.delivery.batch = h.processor.delivery.batch :=
    congrArg (·.batch) hnoted
  have htold : served.processor.delivery.told = h.processor.delivery.told :=
    congrArg (·.told) hnoted
  have hlost : served.LostDraw ↔ h.LostDraw := by
    rw [LostDraw, lastAnswer?_of_noted hreplies]
    rfl
  refine ⟨hfirst.congr rfl hbatch (congrArg _ htold), fun b hb => ?_, ?_, fun cause hcause => ?_⟩
  · exact hh.empty b (hbatch.symm.trans hb)
  · exact (not_congr (Eq.congr_left hbatch)).trans (hh.lost.trans hlost.symm)
  · rw [lastFault?_of_replies hreplies] at hcause
    cases hcause

private theorem serve_paused (hh : h.Paused) (hfirst : first.Retelling h.link [])
    (call : HostCall) :
    first.Retelling (h.serve o.traced call).link [] ∧ (h.serve o.traced call).Paused := by
  cases call with
  | run ram start => exact serve_run_paused hfirst ram start
  | notify address length => exact serve_notify_paused hh hfirst address length
  | endFrame => exact serve_endFrame_paused hh hfirst

private theorem serveAll_paused (hh : h.Paused) (hfirst : first.Retelling h.link [])
    (calls : List HostCall) :
    first.Retelling (h.serveAll o.traced calls).link [] ∧ (h.serveAll o.traced calls).Paused :=
  List.foldlRecOn (motive := fun h => first.Retelling h.link [] ∧ h.Paused) calls (serve o.traced)
    ⟨hfirst, hh⟩ fun _ ⟨hfirst, hh⟩ call _ => serve_paused hh hfirst call

/-- Between calls a batch is open exactly after a run that lost a draw, and it is empty. After a final
refusal, the renderer is told of all registers before it draws with them in whatever is called later,
unless the batch that was left open is drawn at once. -/
theorem serveAll_afterRefusal (o : Outlet σ) (settings : ListSettings) (sink : σ)
    (calls : List HostCall) :
    let h := (start settings (⟨sink, []⟩ : Traced σ)).serveAll o.traced calls
    (h.processor.delivery.batch ≠ none ↔ h.LostDraw) ∧
      (∀ b, h.processor.delivery.batch = some b → b = b.emptied) ∧
      ∀ cause, h.lastFault? = some (.refused cause) →
        h.processor.delivery.told = {} ∧ h.processor.delivery.texturesStale = true ∧
        ∀ later, let since := h.link.since (h.serveAll o.traced later).link
          (ToldBeforeRead since ↔ ¬ ReadsAtOnce since) ∧ (ReadsAtOnce since → h.LostDraw) := by
  intro h
  have hstart := start_paused settings sink
  obtain ⟨-, hh⟩ := serveAll_paused (o := o) hstart hstart.retelling calls
  refine ⟨hh.lost, hh.empty, fun cause hcause => ?_⟩
  obtain ⟨htold, hstale⟩ := hh.forgotten cause hcause
  refine ⟨htold, hstale, fun later => ?_⟩
  obtain ⟨hlater, -⟩ := serveAll_paused (o := o) hh hh.retelling later
  rcases hlater.retold htold with ⟨hopen, hatOnce⟩ | hin
  · exact ⟨iff_of_false hatOnce.not_toldBeforeRead (not_not_intro hatOnce), fun _ => hh.lost.mp hopen⟩
  · have hnot := fun hatOnce => ReadsAtOnce.not_toldBeforeRead hatOnce hin.told
    exact ⟨iff_of_true hin.told hnot, fun hatOnce => absurd hatOnce hnot⟩

/-- A run of the rectangles that is answered as planned. -/
def plannedRects (fates : List (Option PoolError)) : Hosting (Traced Recording) :=
  (start {} ⟨{ fates }, []⟩).serveAll Outlet.recording.traced [.run Narrated.twoRectsRam 0]

/-- The second command is refused for good, and the next run tells all anew. -/
theorem serveAll_afterRefusal_twoRects :
    (plannedRects [none, some .closed]).lastFault? = some (.refused .closed) ∧
      ¬ (plannedRects [none, some .closed]).LostDraw ∧
      ToldBeforeRead ((plannedRects [none, some .closed]).link.since
        ((plannedRects [none, some .closed]).serveAll Outlet.recording.traced
          [.endFrame, .run Narrated.twoRectsRam 0]).link) := by
  obtain ⟨hlost, -, hafter⟩ := serveAll_afterRefusal Outlet.recording {}
    { fates := [none, some .closed] } [.run Narrated.twoRectsRam 0]
  have hrefusal : (plannedRects [none, some .closed]).lastFault? = some (.refused .closed) := by
    decide +kernel
  have hclosed : (plannedRects [none, some .closed]).processor.delivery.batch = none := by
    decide +kernel
  obtain ⟨-, -, hlater⟩ := hafter .closed hrefusal
  refine ⟨hrefusal, fun hdraw => hlost.mpr hdraw hclosed, (hlater _).1.mpr ?_⟩
  decide +kernel

/-- The draw is refused for good. The batch stays open, and the next run draws it at once. -/
theorem lostDraw_readsAtOnce :
    (plannedRects [none, none, none, some .closed]).processor.delivery.batch ≠ none ∧
      ¬ ToldBeforeRead ((plannedRects [none, none, none, some .closed]).link.since
        ((plannedRects [none, none, none, some .closed]).serve Outlet.recording.traced
          (.run Narrated.twoRectsRam 0)).link) := by
  refine ⟨by decide +kernel, ReadsAtOnce.not_toldBeforeRead ?_⟩
  decide +kernel

end Hosting

end DisplayPipeline
