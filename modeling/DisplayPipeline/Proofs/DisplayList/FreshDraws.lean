import DisplayPipeline.Proofs.DisplayList.TextureDelivery

/-!
# Draws with fresh textures

A timeline stays sound through requests, instructions, runs and whatever else the host asks for.
-/

namespace DisplayPipeline

open DeliverM

private theorem Recording.addedTo_hear (r : Recording) (commands : List Command) :
    r.addedTo (r.hear commands) = commands := by
  simp [addedTo, hear, Function.comp_def]

private theorem Recording.accepted_hear (r : Recording) (commands : List Command) :
    (r.hear commands).accepted = r.accepted ++ commands := by
  simp [accepted, hear, List.filter_map, Function.comp_def]

namespace Timeline

section Requests

variable {t : Timeline} {texture : TextureRegisters} {d after : Delivery} {j : Journal}
variable {r : Recording}

private theorem said_of_says {α : Type} {x : DeliverM Recording α} {a : α} {commands : List Command}
    (hx : Says x d a after commands) (hr : r.fates = []) : said x ⟨d, j, r⟩ = commands := by
  obtain ⟨k, hk⟩ := hx j r hr
  rw [said, hk]
  exact r.addedTo_hear commands

private theorem Sound.congr (h : t.Sound texture d)
    (hbatch : after.batch.map (·.key) = none ∨ after.batch.map (·.key) = d.batch.map (·.key))
    (houtdated : outdated after = outdated d) (htold : after.told.tiles = d.told.tiles) :
    t.Sound texture after :=
  ⟨h.tracks.congr hbatch houtdated htold, h.draws⟩

private theorem Sound.of_textureStateKept (h : t.Sound texture d)
    (hkept : TextureStateKept d after) :
    t.Sound texture after := by
  apply h.congr (Or.inr hkept.key)
  · rw [outdated, hkept.stale, hkept.writes, outdated]
  · rw [hkept.told]

private theorem Sound.close (h : t.Sound texture d) :
    (t.hear (pending? d).toList).Sound texture { d with batch := none } := by
  have hpending : ∀ command ∈ (pending? d).toList, command.textureUnit? = none ∧
      d.batch.isSome := fun c hc => pending?_draws (Option.mem_toList.mp hc)
  apply (h.hear (fun c hc => (hpending c hc).1) fun c hc _ => (hpending c hc).2).congr
  · exact Or.inl rfl
  · rfl
  · rfl

private theorem Sound.settle (h : t.Sound texture d) : (t.hear (settling d)).Sound texture
    (settled d) := by
  have hsettling : ∀ command ∈ settling d, command.textureUnit? = none ∧
      (command.draws = true → d.batch.isSome) := by
    intro command hcommand
    rcases List.mem_append.mp hcommand with hpending | hwrite
    · have hdraws := pending?_draws (Option.mem_toList.mp hpending)
      exact ⟨hdraws.1, fun _ => hdraws.2⟩
    · obtain ⟨write, _, rfl⟩ := List.mem_map.mp hwrite
      exact ⟨rfl, fun hdraws => absurd hdraws Bool.false_ne_true⟩
  apply (h.hear (fun c hc => (hsettling c hc).1) fun c hc => (hsettling c hc).2).congr
  · exact Or.inl rfl
  · simp [outdated, settled, announced]
  · rfl

private theorem draws_of_mem_suppliesFor {o : Opening} {command : Command}
    (h : command ∈ suppliesFor o d) : command.draws = false := by
  have hunit : ∃ unit, command.textureUnit? = some unit := by
    rcases List.mem_append.mp h with h | h
    · exact ⟨0, textureUnit?_of_mem_supplyFor h⟩
    · exact ⟨1, textureUnit?_of_mem_supplyFor h⟩
  obtain ⟨unit, hunit⟩ := hunit
  exact Command.draws_of_textureUnit? hunit

private theorem Sound.openBatch (h : t.Sound texture d) {o : Opening} {plain : List Command}
    (htexture : o.scene.registers.texture = texture) (hplain : ∀ command ∈ plain, IsPlain command)
    (hbatch : after.batch = some { key := o.key }) (hwrites : after.writes = [])
    (hstale : after.texturesStale = (DeliverM.outdated d && !o.isTextured))
    (htold : ∀ unit, unit = 0 ∨ unit = 1 → after.told.tiles.get unit =
      if o.reads unit then some (o.tileOf unit) else d.told.tiles.get unit) :
    Sound (.opened o :: t.hear (settling d ++ (plain ++ suppliesFor o (settled d)))) texture
      after := by
  have hprepared : ((t.hear (settling d)).hear plain).Sound texture (settled d) :=
    h.settle.hear (fun c hc => (hplain c hc).1) fun c hc hdraws =>
      absurd hdraws (by rw [(hplain c hc).2]; exact Bool.false_ne_true)
  rw [hear_append, hear_append]
  refine ⟨hprepared.tracks.opening rfl htexture ?_ ?_ htold, ?_⟩
  · intro key hkey
    rw [hbatch] at hkey
    exact Option.some.inj hkey
  · rw [DeliverM.outdated, hwrites, hstale]
    exact Bool.or_false _
  · exact atDraws_hear hprepared.draws fun c hc => draws_of_mem_suppliesFor hc

/-- A timeline that tells all about a link where everything is accepted. -/
structure AccountsFor (t : Timeline) (texture : TextureRegisters) (link : Link Recording) :
    Prop where
  sound : t.Sound texture link.delivery
  fates : link.sink.fates = []
  submissions : t.submissions = link.sink.accepted

/-- A request is carried out, and the timeline tells so. -/
def Serves (scene : Scene) (request : Request) (link : Link Recording) (t : Timeline)
    (texture : TextureRegisters) : Prop :=
  ∃ after, perform .recording scene request link = .ok () after ∧
    (watch scene request link t).AccountsFor texture after

private theorem serves_of_says {scene : Scene} {request : Request} {commands : List Command}
    {later : TextureRegisters} (h : t.AccountsFor texture ⟨d, j, r⟩)
    (hx : Says (perform .recording scene request) d () after commands)
    (hsound : (watch scene request ⟨d, j, r⟩ t).Sound later after)
    (hsubmissions : (watch scene request ⟨d, j, r⟩ t).submissions = t.submissions ++ commands) :
    Serves scene request ⟨d, j, r⟩ t later := by
  obtain ⟨k, hk⟩ := hx j r h.fates
  refine ⟨⟨after, k, r.hear commands⟩, hk, hsound, h.fates, ?_⟩
  rw [hsubmissions, h.submissions, Recording.accepted_hear]

private theorem serves_close {scene : Scene} (h : t.AccountsFor texture ⟨d, j, r⟩) :
    Serves scene .close ⟨d, j, r⟩ t texture := by
  have hsays : Says (perform .recording scene .close) d () _ _ := says_closeBatch d
  have hwatch : watch scene .close ⟨d, j, r⟩ t = t.hear (pending? d).toList := by
    rw [watch, said_of_says hsays h.fates]
  apply serves_of_says h hsays
  · rw [hwatch]
    exact h.sound.close
  · rw [hwatch, submissions_hear]

private theorem serves_retexture {scene : Scene} (h : t.AccountsFor texture ⟨d, j, r⟩)
    (later : TextureRegisters) : Serves scene .retexture ⟨d, j, r⟩ t later := by
  have hsays : Says (perform .recording scene .retexture) d ()
      { settled d with texturesStale := true } (settling d) :=
    says_then (says_settle d) (says_update _ _) (List.append_nil _).symm
  have hwatch : watch scene .retexture ⟨d, j, r⟩ t = .changed :: t.hear (settling d) := by
    rw [watch, said_of_says hsays h.fates]
  apply serves_of_says h hsays
  · rw [hwatch]
    refine ⟨h.sound.settle.tracks.change ?_ ?_ ?_ later, h.sound.settle.draws⟩ <;> rfl
  · rw [hwatch]
    exact submissions_hear t (settling d)

private theorem serves_drop {scene : Scene} (h : t.AccountsFor texture ⟨d, j, r⟩) :
    Serves scene .drop ⟨d, j, r⟩ t texture := by
  have hsays : Says (perform .recording scene .drop) d () d [] :=
    says_count (fun tally => { tally with droppedTriangles := tally.droppedTriangles + 1 }) d
  have hwatch : watch scene .drop ⟨d, j, r⟩ t = t.hear [] := by
    rw [watch, said_of_says hsays h.fates]
  apply serves_of_says h hsays
  · rw [hwatch]
    exact h.sound
  · rw [hwatch, submissions_hear]

private theorem serves_draw {scene : Scene} (h : t.AccountsFor scene.registers.texture ⟨d, j, r⟩)
    (key : BatchKey) (primitive : Primitive) :
    Serves scene (.draw key primitive) ⟨d, j, r⟩ t scene.registers.texture := by
  by_cases hkey : d.batch.map (·.key) = some key
  · -- The batch is open already, and only the primitive is left.
    have hopen : Says (openBatch .recording scene key) d () d [] := by
      apply says_look
      intro link hlink
      rw [hlink, if_neg (fun hne => hne hkey)]
      exact says_pure () d
    obtain ⟨after, commands, hadd, hkept, hcommands⟩ := says_addPrimitive primitive d
    have hsays : Says (perform .recording scene (.draw key primitive)) d () after commands :=
      says_then hopen hadd (List.nil_append _).symm
    have hwatch : watch scene (.draw key primitive) ⟨d, j, r⟩ t = t.hear commands := by
      rw [watch, said_of_says hsays h.fates]
      exact if_pos hkey
    apply serves_of_says h hsays
    · rw [hwatch]
      apply (h.sound.hear hcommands fun _ _ _ => ?_).of_textureStateKept hkept
      change d.batch.isSome
      rw [← Option.isSome_map, hkey]
      rfl
    · rw [hwatch, submissions_hear]
  · obtain ⟨ready, plain, hopen, hplain, hbatch, hwrites, hstale, htold⟩ :=
      says_openBatch ⟨scene, key⟩ hkey
    obtain ⟨after, commands, hadd, hkept, hcommands⟩ := says_addPrimitive primitive ready
    have hsays : Says (perform .recording scene (.draw key primitive)) d () after _ :=
      says_then hopen hadd rfl
    have hwatch : watch scene (.draw key primitive) ⟨d, j, r⟩ t =
        hear (.opened ⟨scene, key⟩ ::
          t.hear (settling d ++ (plain ++ suppliesFor ⟨scene, key⟩ (settled d)))) commands := by
      rw [watch, said_of_says hsays h.fates, said_of_says hopen h.fates]
      dsimp only
      rw [if_neg hkey, List.drop_left]
    apply serves_of_says h hsays
    · rw [hwatch]
      have hready := h.sound.openBatch rfl hplain hbatch hwrites hstale htold
      apply (hready.hear hcommands fun _ _ _ => ?_).of_textureStateKept hkept
      rw [hbatch]
      rfl
    · have hopened (xs : List Command) :
          submissions (.opened ⟨scene, key⟩ :: t.hear xs) = t.submissions ++ xs :=
        submissions_hear t xs
      rw [hwatch, submissions_hear, hopened, List.append_assoc]

/-- Texture registers may only change with a request that says so. -/
theorem serves {scene : Scene} {link : Link Recording}
    (h : t.AccountsFor scene.registers.texture link) (request : Request) {later : TextureRegisters}
    (hlater : request ≠ .retexture → later = scene.registers.texture) :
    Serves scene request link t later := by
  obtain ⟨d, j, r⟩ := link
  cases request with
  | close =>
    rw [hlater (by simp)]
    exact serves_close h
  | retexture => exact serves_retexture h later
  | drop =>
    rw [hlater (by simp)]
    exact serves_drop h
  | draw key primitive =>
    rw [hlater (by simp)]
    exact serves_draw h key primitive

private theorem servesAll {scene : Scene} {link : Link Recording} {requests : List Request}
    (h : t.AccountsFor scene.registers.texture link)
    (hrequests : ∀ request ∈ requests, request ≠ .retexture) :
    ∃ after, performAll .recording scene requests link = .ok () after ∧
      (watchAll scene requests link t).AccountsFor scene.registers.texture after := by
  induction requests generalizing link t with
  | nil => exact ⟨link, rfl, h⟩
  | cons request requests ih =>
    obtain ⟨next, hnext, hstep⟩ := serves h request fun _ => rfl
    obtain ⟨after, hafter, hall⟩ :=
      ih hstep fun other hother => hrequests other (List.mem_cons_of_mem _ hother)
    refine ⟨after, ?_, ?_⟩
    · change EStateM.bind _ _ _ = _
      rw [EStateM.bind, hnext]
      exact hafter
    · rw [watchAll, hnext]
      exact hall

end Requests

section Instructions

variable {t : Timeline} {scene : Scene} {link : Link Recording} {instruction : Instruction}

private theorem serves_instruction (h : t.AccountsFor scene.registers.texture link)
    (instruction : Instruction) :
    ∃ after, performAll .recording scene (scene.requests instruction) link = .ok () after ∧
      (watchAll scene (scene.requests instruction) link t).AccountsFor
        (scene.advance instruction).texture after := by
  by_cases htexture : ∃ change, instruction = .texture change
  · obtain ⟨change, rfl⟩ := htexture
    obtain ⟨after, hafter, hstep⟩ := serves h .retexture fun hne => absurd rfl hne
    refine ⟨after, ?_, ?_⟩
    · change EStateM.bind _ _ _ = _
      rw [EStateM.bind, hafter]
      rfl
    · change (watchAll scene [.retexture] link t).AccountsFor _ after
      rw [watchAll, hafter]
      exact hstep
  · have hother : ∀ change, instruction ≠ .texture change := fun change heq =>
      htexture ⟨change, heq⟩
    rw [texture_advance hother]
    exact servesAll h (requests_ne_retexture hother)

end Instructions

end Timeline

namespace Timeline

section Runs

variable {t : Timeline} {texture : TextureRegisters} {m : Machine Recording}
variable (ram : Ram) (settings : ListSettings)

private theorem AccountsFor.close {link : Link Recording} (h : t.AccountsFor texture link)
    (k : Journal) :
    (t.hear (pending? link.delivery).toList).AccountsFor texture
      ⟨{ link.delivery with batch := none }, k,
        link.sink.hear (pending? link.delivery).toList⟩ where
  sound := h.sound.close
  fates := h.fates
  submissions := by rw [submissions_hear, h.submissions, Recording.accepted_hear]

private theorem AccountsFor.congr {link after : Link Recording} (h : t.AccountsFor texture link)
    (hdelivery : after.delivery = link.delivery) (hsink : after.sink = link.sink) :
    t.AccountsFor texture after :=
  ⟨hdelivery ▸ h.sound, hsink ▸ h.fates, hsink ▸ h.submissions⟩

private theorem AccountsFor.beside {after : Machine Recording}
    (h : t.AccountsFor m.registers.texture m.link)
    (hbeside : m.Beside after) : t.AccountsFor after.registers.texture after.link := by
  rw [hbeside.registers]
  exact h.congr hbeside.delivery hbeside.sink

private theorem accountsFor_step (h : t.AccountsFor m.registers.texture m.link) :
    let step := m.step .recording ram settings
    (watchStep ram settings t m).AccountsFor step.after.registers.texture step.after.link ∧
      ∀ cause, step.ending? ≠ some (.aborted (.refused cause)) := by
  have hcounted : t.AccountsFor (m.visit.scene ram settings).registers.texture m.counted :=
    h.congr rfl rfl
  obtain ⟨link, hperformed, hlink⟩ := serves_instruction hcounted (m.visit.instruction ram)
  obtain ⟨after, hbeside, -, -, hstep⟩ := Machine.step_of_performed hperformed
  intro step
  have hafter := AccountsFor.beside (m := ⟨_, m.walk, link⟩) hlink hbeside
  rw [show step = _ from hstep]
  exact ⟨hafter.beside (after.follow_beside _ _ _), after.follow_not_refused _ _ _⟩

private theorem accountsFor_walkFor (budget : Nat) (h : t.AccountsFor m.registers.texture m.link) :
    let walked := m.walkFor .recording ram settings budget
    ((m.course .recording ram settings budget).foldl (watchStep ram settings) t).AccountsFor
        walked.1.registers.texture walked.1.link ∧
      ∀ cause, walked.2 ≠ some (.aborted (.refused cause)) := by
  refine Machine.walkFor_accumulates (R := fun past m ended =>
    (past.foldl (watchStep ram settings) t).AccountsFor m.registers.texture m.link ∧
      ∀ cause, ended ≠ some (.aborted (.refused cause))) ?_ budget ⟨h, fun _ => nofun⟩
  rintro past m ⟨hm, -⟩
  rw [List.foldl_append]
  exact accountsFor_step ram settings hm

end Runs

end Timeline

namespace Watched

variable {w : Watched}

private structure Coherent (w : Watched) : Prop where
  accounts : w.timeline.AccountsFor w.processor.registers.texture
    ⟨w.processor.delivery, w.processor.journal, w.record⟩
  closed : w.processor.delivery.batch = none

private theorem coherent_start (settings : ListSettings) :
    (start settings).Coherent where
  accounts := ⟨⟨Timeline.tracks_start _, trivial⟩, rfl, rfl⟩
  closed := rfl

private theorem coherent_run (h : w.Coherent) (ram : Ram) (start : UInt32) :
    (w.serve (.run ram start)).Coherent := by
  let p := w.processor
  let m := p.machine ram start w.record
  let walked := m.walkFor .recording ram p.settings p.settings.budget
  obtain ⟨hwalk, hended⟩ :=
    Timeline.accountsFor_walkFor (m := m) ram p.settings p.settings.budget h.accounts
  have hclose (link : Link Recording)
      (hbeside : walked.1.Beside ⟨walked.1.registers, walked.1.walk, link⟩) :
      Gives (closeBatch .recording) link fun _ after =>
        after.delivery = { walked.1.link.delivery with batch := none } ∧
          after.sink = walked.1.link.sink.hear (pending? walked.1.link.delivery).toList := by
    rw [← hbeside.delivery, ← hbeside.sink]
    obtain ⟨k, hk⟩ := says_closeBatch link.delivery link.journal link.sink (hbeside.sink ▸ hwalk.fates)
    exact ⟨(), _, hk, rfl, rfl⟩
  obtain ⟨⟨delivery, k, record⟩, ⟨rfl, rfl⟩, hrun⟩ := ListProcessor.run_closes rfl hended hclose
  have hserve : w.serve (.run ram start) =
      ⟨⟨p.settings, walked.1.registers, { walked.1.link.delivery with batch := none }, k⟩,
        walked.1.link.sink.hear (pending? walked.1.link.delivery).toList,
        ((m.course .recording ram p.settings p.settings.budget).foldl
          (Timeline.watchStep ram p.settings) w.timeline).hear
            (pending? walked.1.link.delivery).toList⟩ := by
    rw [serve, hrun, Recording.addedTo_hear]
  rw [hserve]
  exact ⟨hwalk.close k, rfl⟩

private theorem coherent_notify (h : w.Coherent) (address length : UInt32) :
    (w.serve (.notify address length)).Coherent := by
  by_cases hlength : length = 0
  · have hserve : w.serve (.notify address length) = w := by
      rw [serve, ListProcessor.notify, if_pos hlength, if_pos hlength]
    rw [hserve]
    exact h
  · let noted : Delivery :=
      { w.processor.delivery with writes := w.processor.delivery.writes ++ [⟨address, length⟩] }
    have hserve : w.serve (.notify address length) =
        ⟨{ w.processor with delivery := noted }, w.record, .changed :: w.timeline⟩ := by
      rw [serve, ListProcessor.notify, if_neg hlength, if_neg hlength]
    have hclosed : noted.batch = none := h.closed
    have hstale : outdated noted = true := by simp [outdated, noted]
    have htracks : Timeline.Tracks (.changed :: w.timeline) w.processor.registers.texture noted :=
      h.accounts.sound.tracks.change hclosed hstale rfl _
    rw [hserve]
    exact ⟨⟨⟨htracks, h.accounts.sound.draws⟩, h.accounts.fates, h.accounts.submissions⟩, h.closed⟩

private theorem coherent_endFrame (h : w.Coherent) : (w.serve .endFrame).Coherent := by
  let d := w.processor.delivery
  let r := w.record
  have hfates : r.fates = [] := h.accounts.fates
  obtain ⟨k, hsettle⟩ := says_settle d w.processor.journal r hfates
  obtain ⟨l, hsubmit⟩ := says_submit .endFrame (settled d) k (r.hear (settling d)) hfates
  have hend : w.processor.endFrame .recording r =
      (⟨w.processor.settings,
          { w.processor.registers with render := w.processor.registers.render.endFrame },
          settled d, l⟩,
        (r.hear (settling d)).hear [.endFrame], .ok ()) := by
    have hlink : settle .recording ⟨d, w.processor.journal, r⟩ =
        .ok () ⟨settled d, k, r.hear (settling d)⟩ := hsettle
    rw [ListProcessor.endFrame, hlink]
    dsimp only
    rw [hsubmit]
  have hserve : w.serve .endFrame =
      ⟨⟨w.processor.settings,
          { w.processor.registers with render := w.processor.registers.render.endFrame },
          settled d, l⟩,
        r.hear (settling d ++ [.endFrame]), w.timeline.hear (settling d ++ [.endFrame])⟩ := by
    rw [serve, hend, ← Recording.hear_append]
    dsimp only
    rw [Recording.addedTo_hear]
  rw [hserve, Timeline.hear_append]
  refine ⟨⟨?_, hfates, ?_⟩, rfl⟩
  · apply h.accounts.sound.settle.hear
    · intro command hcommand
      rw [List.mem_singleton.mp hcommand]
      rfl
    · intro command hcommand hdraws
      rw [List.mem_singleton.mp hcommand] at hdraws
      cases hdraws
  · rw [← Timeline.hear_append, Timeline.submissions_hear, h.accounts.submissions,
      Recording.accepted_hear]

private theorem coherent_serve (h : w.Coherent) (call : HostCall) : (w.serve call).Coherent := by
  cases call with
  | run ram start => exact coherent_run h ram start
  | notify address length => exact coherent_notify h address length
  | endFrame => exact coherent_endFrame h

private theorem coherent_serveAll (h : w.Coherent) (calls : List HostCall) :
    (w.serveAll calls).Coherent :=
  List.foldlRecOn calls serve h fun _ hw call _ => coherent_serve hw call

/-- After any calls of a host, the timeline has submitted what the record accepted. Each draw of a
batch found the first texture unit up to date, if the batch reads it. It found the second one so exactly
if that was not overlooked or there was nothing to give to it. -/
theorem serveAll_fresh (settings : ListSettings) (calls : List HostCall) :
    let w := (start settings).serveAll calls
    w.timeline.submissions = w.record.accepted ∧ w.timeline.AtDraws Timeline.Fresh := by
  have h := coherent_serveAll (coherent_start settings) calls
  exact ⟨h.accounts.submissions, h.accounts.sound.draws⟩

end Watched

section Oversight

/-- A rectangle is drawn with two textures, the second one is loaded from elsewhere, and rectangles
are drawn with one texture and with two. -/
def oversightList : List UInt32 :=
  [0xFC221824, 0xFF33FFFF,
    0xFD100000, 0xB0, 0xF5100000, 0, 0xF5100001, 0x01000000, 0xF3000000, 0,
    0xFD100000, 0xB4, 0xF3000000, 0x01000000,
    0xE4010010, 0, 0xE1000000, 0, 0xF1000000, 0x04000400,
    0xFD100000, 0xB8, 0xF3000000, 0x01000000,
    0xFC121824, 0xFF33FFFF,
    0xE4010010, 0, 0xE1000000, 0, 0xF1000000, 0x04000400,
    0xFC221824, 0xFF33FFFF,
    0xE4010010, 0, 0xE1000000, 0, 0xF1000000, 0x04000400,
    0xDF000000, 0]

def oversightRam : Ram where
  bytes := ⟨((oversightList ++ [0, 0, 0x11112222, 0x33334444, 0x55556666] ++
    List.replicate 17 0).flatMap Word.be32).toArray⟩
  logSize := 8
  size_eq := by decide +kernel
  logSize_le := by decide

namespace Timeline

/-- A batch that reads the second texture unit is about to be drawn, there are texels for it, and it
was given nothing since the last change. -/
def misses (t : Timeline) : Bool :=
  t.sinceChange.openings.head?.any (·.reads 1) &&
    (t.sinceChange.readers 1).all (fun o => (o.scene.textureCommand? 1 (o.tileOf 1)).isSome) &&
    (t.sinceChange.given? 1).isNone

private theorem not_allUpToDate_of_misses {t : Timeline} (h : t.misses = true) :
    ¬ t.AllUpToDate := by
  simp only [misses, Bool.and_eq_true, List.all_eq_true] at h
  obtain ⟨⟨hreads, hcommands⟩, hgiven⟩ := h
  rintro ⟨o, ho, _, hsecond⟩
  rw [ho] at hreads
  obtain ⟨earlier, hearlier, _, htile, hgave⟩ := hsecond hreads
  obtain ⟨command, hcommand⟩ := Option.isSome_iff_exists.mp (hcommands earlier hearlier)
  rw [hgave command (htile ▸ hcommand)] at hgiven
  cases hgiven

def lastDrawMisses : Timeline → Bool
  | .submitted command :: t => command.draws && misses t
  | _ => false

private theorem not_atDraws_of_lastDrawMisses {t : Timeline} (h : t.lastDrawMisses = true) :
    ¬ t.AtDraws AllUpToDate := by
  intro hall
  cases t with
  | nil => cases h
  | cons happening t =>
    cases happening with
    | submitted command =>
      obtain ⟨hdraws, hmisses⟩ := Bool.and_eq_true_iff.mp h
      exact not_allUpToDate_of_misses hmisses (hall.1 hdraws)
    | changed => cases h
    | opened o => cases h

end Timeline

/-- The last draw reads a second texture that is older than the load before. -/
theorem oversight_not_allUpToDate :
    ¬ ((Watched.start {}).serveAll [.run oversightRam 0]).timeline.AtDraws
      Timeline.AllUpToDate :=
  Timeline.not_atDraws_of_lastDrawMisses (by decide +kernel)

end Oversight

end DisplayPipeline
