import DisplayPipeline.Proofs.DisplayList.Acceptance
import DisplayPipeline.Proofs.DisplayList.Timeline

/-!
# Fresh textures

The first texture unit is up to date at every draw. The second one is too, unless it was overlooked:
a batch that does not read it was the first one after a change, and the tile that it sampled before
the change is still the one that is asked for. Then it keeps what it was given before the change.
-/

namespace DisplayPipeline

namespace Timeline

def FreshUnlessOverlooked (t : Timeline) (unit : UInt8) (o : Opening) : Prop :=
  (t.Overlooked unit → t.sinceChange.given? unit = none) ∧
    (¬ t.Overlooked unit → t.UpToDate unit o)

/-- What a texture unit is to sample cannot be sampled, or nothing was loaded. -/
def NothingToGive (t : Timeline) (unit : UInt8) (o : Opening) : Prop :=
  ∃ earlier ∈ t.sinceChange.readers unit,
    earlier.scene.registers.texture = o.scene.registers.texture ∧
    earlier.tileOf unit = o.tileOf unit ∧
    earlier.scene.textureCommand? unit (o.tileOf unit) = none

/-- What holds as a batch is drawn: it was opened since the last change, the first texture unit is up
to date, and the second one is exactly if it was not overlooked or there was nothing to give. A unit
that was overlooked was given nothing since the change. -/
def Fresh (t : Timeline) : Prop :=
  ∃ o, t.sinceChange.openings.head? = some o ∧
    (o.reads 0 = true → t.UpToDate 0 o) ∧
    (o.reads 1 = true →
      (t.Overlooked 1 → t.sinceChange.given? 1 = none) ∧
      (t.UpToDate 1 o ↔ (t.Overlooked 1 → t.NothingToGive 1 o)))

/-- What should hold as a batch is drawn: every texture unit that it reads is up to date. -/
def AllUpToDate (t : Timeline) : Prop :=
  ∃ o, t.sinceChange.openings.head? = some o ∧
    (o.reads 0 = true → t.UpToDate 0 o) ∧ (o.reads 1 = true → t.UpToDate 1 o)

/-- How a delivery goes with what has happened, for the texture registers in force. -/
structure Tracks (t : Timeline) (texture : TextureRegisters) (d : Delivery) : Prop where
  opened : ∀ key, d.batch.map (·.key) = some key →
    ∃ o, t.sinceChange.openings.head? = some o ∧ o.key = key
  outdated : DeliverM.outdated d = true ↔ t.firstTextured? = none
  told : ∀ unit, unit = 0 ∨ unit = 1 →
    d.told.tiles.get unit = (t.readers unit).head?.map (·.tileOf unit)
  registers : ∀ o ∈ t.sinceChange.openings, o.scene.registers.texture = texture
  given : ∀ unit, unit = 0 ∨ unit = 1 → ∀ o, (t.sinceChange.readers unit).head? = some o →
    t.FreshUnlessOverlooked unit o
  quiet : ∀ unit, unit = 0 ∨ unit = 1 → t.sinceChange.readers unit = [] →
    t.sinceChange.given? unit = none

section Basic

variable {t : Timeline} {texture : TextureRegisters} {d after : Delivery}

theorem tracks_start (texture : TextureRegisters) : Tracks [] texture {} where
  opened := by simp
  outdated := by simp [DeliverM.outdated, firstTextured?, sinceChange, openings]
  told := by
    rintro unit (rfl | rfl) <;> rfl
  registers := by simp [sinceChange, openings]
  given := by simp [sinceChange, readers, openings]
  quiet := by simp [sinceChange, given?]

theorem Tracks.congr (h : t.Tracks texture d)
    (hbatch : after.batch.map (·.key) = none ∨ after.batch.map (·.key) = d.batch.map (·.key))
    (houtdated : DeliverM.outdated after = DeliverM.outdated d)
    (htold : after.told.tiles = d.told.tiles) : t.Tracks texture after where
  opened := by
    intro key hkey
    rcases hbatch with hnone | hsame
    · rw [hnone] at hkey
      cases hkey
    · exact h.opened key (hsame ▸ hkey)
  outdated := houtdated ▸ h.outdated
  told := htold ▸ h.told
  registers := h.registers
  given := h.given
  quiet := h.quiet

theorem Tracks.change (h : t.Tracks texture d) (hbatch : after.batch = none)
    (houtdated : DeliverM.outdated after = true) (htold : after.told.tiles = d.told.tiles)
    (later : TextureRegisters) : Tracks (.changed :: t) later after where
  opened := by simp [hbatch]
  outdated := by simp [houtdated, firstTextured?, sinceChange, openings]
  told := htold ▸ h.told
  registers := by simp [sinceChange, openings]
  given := by simp [sinceChange, readers, openings]
  quiet := by simp [sinceChange, given?]

private theorem Tracks.submit {command : Command} (h : t.Tracks texture d)
    (hunit : command.textureUnit? = none) : Tracks (.submitted command :: t) texture d := by
  have hgiven (unit : UInt8) :
      (sinceChange (.submitted command :: t)).given? unit = t.sinceChange.given? unit := by
    simp [sinceChange, given?, hunit]
  refine ⟨h.opened, h.outdated, h.told, h.registers, ?_, ?_⟩
  · intro unit hone o ho
    obtain ⟨hover, hupToDate⟩ := h.given unit hone o ho
    refine ⟨fun hoverlooked => (hgiven unit).trans (hover hoverlooked), fun hnot => ?_⟩
    obtain ⟨earlier, hearlier, hregisters, htile, hcommand⟩ := hupToDate hnot
    exact ⟨earlier, hearlier, hregisters, htile, fun c hc => (hgiven unit).trans (hcommand c hc)⟩
  · intro unit hone hnone
    exact (hgiven unit).trans (h.quiet unit hone hnone)

private theorem not_overlooked_zero (t : Timeline) : ¬ t.Overlooked 0 := by
  rintro ⟨⟨first, hfirst, hreads⟩, _⟩
  have htextured : first.isTextured = true := (List.mem_filter.mp (List.mem_of_getLast? hfirst)).2
  simp [Opening.reads, htextured] at hreads

private theorem FreshUnlessOverlooked.upToDate_iff {unit : UInt8} {o : Opening}
    (h : t.FreshUnlessOverlooked unit o) :
    t.UpToDate unit o ↔ (t.Overlooked unit → t.NothingToGive unit o) := by
  obtain ⟨hnothing, hupToDate⟩ := h
  constructor
  · rintro ⟨earlier, hearlier, hregisters, htile, hgave⟩ hover
    refine ⟨earlier, hearlier, hregisters, htile, ?_⟩
    cases hcommand : earlier.scene.textureCommand? unit (o.tileOf unit) with
    | none => rfl
    | some command =>
      have hgiven := hgave command hcommand
      rw [hnothing hover] at hgiven
      cases hgiven
  · intro h
    by_cases hover : t.Overlooked unit
    · obtain ⟨earlier, hearlier, hregisters, htile, hnone⟩ := h hover
      refine ⟨earlier, hearlier, hregisters, htile, ?_⟩
      intro command hcommand
      rw [hnone] at hcommand
      cases hcommand
    · exact hupToDate hover

/-- At a draw of the open batch, textures are fresh. -/
theorem Tracks.fresh (h : t.Tracks texture d) {key : BatchKey}
    (hkey : d.batch.map (·.key) = some key) : t.Fresh := by
  obtain ⟨o, ho, _⟩ := h.opened key hkey
  obtain ⟨rest, hrest⟩ := List.head?_eq_some_iff.mp ho
  have hfresh (unit : UInt8) (hone : unit = 0 ∨ unit = 1) (hreads : o.reads unit = true) :
      t.FreshUnlessOverlooked unit o := by
    apply h.given unit hone
    simp [readers, hrest, hreads]
  refine ⟨o, ho, fun hreads => ?_, fun hreads => ?_⟩
  · exact (hfresh 0 (Or.inl rfl) hreads).2 t.not_overlooked_zero
  · have hsecond := hfresh 1 (Or.inr rfl) hreads
    exact ⟨hsecond.1, hsecond.upToDate_iff⟩

structure Sound (t : Timeline) (texture : TextureRegisters) (d : Delivery) : Prop where
  tracks : t.Tracks texture d
  draws : t.AtDraws Fresh

theorem Sound.hear (h : t.Sound texture d) {commands : List Command}
    (hunit : ∀ command ∈ commands, command.textureUnit? = none)
    (hdraws : ∀ command ∈ commands, command.draws = true → d.batch.isSome) :
    (t.hear commands).Sound texture d := by
  induction commands generalizing t with
  | nil => exact h
  | cons command commands ih =>
    apply ih ?_ (fun c hc => hunit c (List.mem_cons_of_mem _ hc))
      fun c hc => hdraws c (List.mem_cons_of_mem _ hc)
    refine ⟨h.tracks.submit (hunit command List.mem_cons_self), ?_, h.draws⟩
    intro hdraw
    obtain ⟨batch, hbatch⟩ := Option.isSome_iff_exists.mp (hdraws command List.mem_cons_self hdraw)
    exact h.tracks.fresh (by rw [hbatch]; rfl)

theorem atDraws_hear {P : Timeline → Prop} {commands : List Command} (h : t.AtDraws P)
    (hdraws : ∀ command ∈ commands, command.draws = false) : (t.hear commands).AtDraws P := by
  induction commands generalizing t with
  | nil => exact h
  | cons command commands ih =>
    refine ih ⟨?_, h⟩ fun c hc => hdraws c (List.mem_cons_of_mem _ hc)
    rw [hdraws command List.mem_cons_self]
    exact fun hfalse => absurd hfalse Bool.false_ne_true

end Basic

section Supplies

open DeliverM

variable {t : Timeline} {d : Delivery} {o : Opening} {unit : UInt8}

def supplyFor (o : Opening) (d : Delivery) (unit : UInt8) : List Command :=
  if o.reads unit then supply o.scene d unit (o.tileOf unit) else []

def suppliesFor (o : Opening) (d : Delivery) : List Command :=
  supplyFor o d 0 ++ supplyFor o d 1

/-- Whether a texture unit is given something for a batch, if there is something to give. -/
def Needs (o : Opening) (d : Delivery) (unit : UInt8) : Prop :=
  o.reads unit = true ∧ isSupplied d unit (o.tileOf unit) = false

theorem textureUnit?_of_mem_supplyFor {command : Command} (h : command ∈ supplyFor o d unit) :
    command.textureUnit? = some unit := by
  unfold supplyFor supply at h
  split at h
  · split at h
    · cases h
    · rw [Option.mem_toList] at h
      exact Scene.textureUnit?_of_textureCommand? h
  · cases h

private theorem isSupplied_of_not_needs (hreads : o.reads unit = true) (h : ¬ Needs o d unit) :
    isSupplied d unit (o.tileOf unit) = true := by
  cases hsupplied : isSupplied d unit (o.tileOf unit) with
  | true => rfl
  | false => exact absurd ⟨hreads, hsupplied⟩ h

private theorem supplyFor_of_not_needs (h : ¬ Needs o d unit) : supplyFor o d unit = [] := by
  by_cases hreads : o.reads unit = true
  · rw [supplyFor, if_pos hreads, supply, if_pos (isSupplied_of_not_needs hreads h)]
  · rw [supplyFor, if_neg hreads]

private theorem given?_supplyFor_of_needs (t : Timeline) (h : Needs o d unit) :
    (t.hear (supplyFor o d unit)).given? unit =
      (o.scene.textureCommand? unit (o.tileOf unit)).or (t.given? unit) := by
  obtain ⟨hreads, hneeded⟩ := h
  rw [supplyFor, if_pos hreads, supply, hneeded, if_neg Bool.false_ne_true]
  cases hcommand : o.scene.textureCommand? unit (o.tileOf unit) with
  | none => rfl
  | some command =>
    have hunit := Scene.textureUnit?_of_textureCommand? hcommand
    change given? (.submitted command :: t) unit = _
    rw [given?_submitted, if_pos hunit, Option.some_or]

private theorem given?_suppliesFor (t : Timeline) (hone : unit = 0 ∨ unit = 1) :
    (t.hear (suppliesFor o d)).given? unit = (t.hear (supplyFor o d unit)).given? unit := by
  have hother (t : Timeline) (other : UInt8) (hne : other ≠ unit) :
      (t.hear (supplyFor o d other)).given? unit = t.given? unit := by
    apply given?_hear_of_forall
    intro command hcommand heq
    rw [textureUnit?_of_mem_supplyFor hcommand] at heq
    exact hne (Option.some.inj heq)
  rw [suppliesFor, hear_append]
  rcases hone with rfl | rfl
  · exact hother _ 1 (by decide)
  · exact given?_hear_congr (hother t 0 (by decide)) _

def opening (t : Timeline) (o : Opening) (d : Delivery) : Timeline :=
  .opened o :: t.hear (suppliesFor o d)

variable (t o d)

private theorem readers_opening (unit : UInt8) :
    (t.opening o d).readers unit =
      if o.reads unit then o :: t.readers unit else t.readers unit := by
  rw [opening, readers_opened, readers_hear]

private theorem readers_sinceChange_opening (unit : UInt8) :
    (t.opening o d).sinceChange.readers unit =
      if o.reads unit then o :: t.sinceChange.readers unit else t.sinceChange.readers unit := by
  change readers (.opened o :: (t.hear (suppliesFor o d)).sinceChange) unit = _
  rw [readers_opened, sinceChange_hear, readers_hear]

private theorem openings_sinceChange_opening :
    (t.opening o d).sinceChange.openings = o :: t.sinceChange.openings := by
  change o :: (t.hear (suppliesFor o d)).sinceChange.openings = _
  rw [sinceChange_hear, openings_hear]

private theorem untilChange_opening : (t.opening o d).untilChange = t.untilChange :=
  untilChange_hear t _

private theorem firstTextured?_opening :
    (t.opening o d).firstTextured? =
      t.firstTextured?.or (if o.isTextured then some o else none) := by
  rw [opening, firstTextured?_opened, firstTextured?_hear]

private theorem given?_sinceChange_opening {unit : UInt8} (hone : unit = 0 ∨ unit = 1) :
    (t.opening o d).sinceChange.given? unit =
      (t.sinceChange.hear (supplyFor o d unit)).given? unit := by
  change (t.hear (suppliesFor o d)).sinceChange.given? unit = _
  rw [sinceChange_hear, given?_suppliesFor _ hone]

end Supplies

section Opening

open DeliverM

variable {t : Timeline} {texture : TextureRegisters} {d after : Delivery} {o r : Opening}
variable {unit : UInt8}

/-- A texture unit that is given something for a batch was not overlooked, and it is up to date. -/
theorem Tracks.freshUnlessOverlooked_of_needs (h : t.Tracks texture d) (hone : unit = 0 ∨ unit = 1)
    (hneeds : Needs o d unit) :
    (t.opening o d).FreshUnlessOverlooked unit o := by
  obtain ⟨hreads, hneeded⟩ := hneeds
  have hreaders := readers_sinceChange_opening t d o unit
  rw [if_pos hreads] at hreaders
  have hnot : ¬ (t.opening o d).Overlooked unit := by
    rintro ⟨⟨first, hfirst, hfirstReads⟩, last, hlast, hall⟩
    rw [hreaders] at hall
    have htile := hall o List.mem_cons_self
    rw [untilChange_opening] at hlast
    simp only [isSupplied, Bool.and_eq_false_iff, Bool.not_eq_false', beq_eq_false_iff_ne] at hneeded
    rcases hneeded with hstale | htold
    · -- Nothing textured was opened since the change, so this batch is the first one.
      have hnone : t.firstTextured? = none := h.outdated.mp (by simp [DeliverM.outdated, hstale])
      have htextured := Opening.isTextured_of_reads hreads
      rw [firstTextured?_opening, hnone, Option.none_or, if_pos htextured] at hfirst
      obtain rfl : o = first := Option.some.inj hfirst
      rw [hreads] at hfirstReads
      cases hfirstReads
    · -- An overlooked unit samples the tile that it sampled last.
      apply htold
      rw [h.told unit hone, readers_eq_append, List.head?_append, hlast]
      cases hsince : t.sinceChange.readers unit with
      | nil => simp [htile]
      | cons r rest =>
        have hr := hall r (List.mem_cons_of_mem _ (hsince ▸ List.mem_cons_self))
        simp [htile, hr]
  refine ⟨fun hoverlooked => absurd hoverlooked hnot, fun _ => ⟨o, ?_, rfl, rfl, ?_⟩⟩
  · rw [hreaders]
    exact List.mem_cons_self
  · intro command hcommand
    rw [given?_sinceChange_opening t d o hone, given?_supplyFor_of_needs _ ⟨hreads, hneeded⟩,
      hcommand, Option.some_or]

private theorem overlooked_opening (hfirst : t.firstTextured? ≠ none) :
    (t.opening o d).Overlooked unit ↔
      t.Overlooked unit ∧ (o.reads unit = true →
        ∀ last, (t.untilChange.readers unit).head? = some last →
          o.tileOf unit = last.tileOf unit) := by
  have hsame : (t.opening o d).firstTextured? = t.firstTextured? := by
    rw [firstTextured?_opening]
    exact Option.or_of_isSome (Option.isSome_iff_ne_none.mpr hfirst)
  unfold Overlooked
  rw [hsame, untilChange_opening, readers_sinceChange_opening]
  by_cases hreads : o.reads unit = true
  · rw [if_pos hreads]
    constructor
    · rintro ⟨hfirst, last, hlast, hall⟩
      refine ⟨⟨hfirst, last, hlast, fun r hr => hall r (List.mem_cons_of_mem _ hr)⟩, ?_⟩
      intro _ other hother
      rw [hlast] at hother
      obtain rfl : last = other := Option.some.inj hother
      exact hall o List.mem_cons_self
    · rintro ⟨⟨hfirst, last, hlast, hall⟩, hown⟩
      refine ⟨hfirst, last, hlast, ?_⟩
      intro r hr
      rcases List.mem_cons.mp hr with rfl | hr
      · exact hown hreads last hlast
      · exact hall r hr
  · rw [if_neg hreads]
    exact (and_iff_left fun h => absurd h hreads).symm

/-- A texture unit that is given nothing for a batch fares as it did for the last batch that read
it. -/
theorem FreshUnlessOverlooked.opening (h : t.FreshUnlessOverlooked unit r)
    (hr : (t.sinceChange.readers unit).head? = some r)
    (hone : unit = 0 ∨ unit = 1) (hneeds : ¬ Needs o d unit)
    (hregisters : o.scene.registers.texture = r.scene.registers.texture)
    (htile : o.reads unit = true → o.tileOf unit = r.tileOf unit) {asking : Opening}
    (hasking : (o.reads unit = true ∧ asking = o) ∨ asking = r) :
    (t.opening o d).FreshUnlessOverlooked unit asking := by
  have hmem : r ∈ t.sinceChange.readers unit := List.mem_of_mem_head? hr
  have hgiven : (t.opening o d).sinceChange.given? unit = t.sinceChange.given? unit := by
    rw [given?_sinceChange_opening t d o hone, supplyFor_of_not_needs hneeds]
    rfl
  have hoverlooked : (t.opening o d).Overlooked unit ↔ t.Overlooked unit := by
    rw [overlooked_opening (t.firstTextured?_ne_none hmem)]
    refine and_iff_left_of_imp ?_
    rintro ⟨_, last, hlast, hall⟩ hreads other hother
    rw [hlast] at hother
    obtain rfl : last = other := Option.some.inj hother
    rw [htile hreads, hall r hmem]
  have hsubset :
      ∀ x ∈ t.sinceChange.readers unit, x ∈ (t.opening o d).sinceChange.readers unit := by
    intro x hx
    rw [readers_sinceChange_opening]
    split
    · exact List.mem_cons_of_mem _ hx
    · exact hx
  have hlike : r.scene.registers.texture = asking.scene.registers.texture ∧
      r.tileOf unit = asking.tileOf unit := by
    rcases hasking with ⟨hreads, rfl⟩ | rfl
    · exact ⟨hregisters.symm, (htile hreads).symm⟩
    · exact ⟨rfl, rfl⟩
  obtain ⟨hnothing, hupToDate⟩ := h
  refine ⟨fun hover => hgiven.trans (hnothing (hoverlooked.mp hover)), fun hnot => ?_⟩
  obtain ⟨earlier, hearlier, hearlierRegisters, hearlierTile, hcommand⟩ :=
    hupToDate fun hover => hnot (hoverlooked.mpr hover)
  refine ⟨earlier, hsubset earlier hearlier, hearlierRegisters.trans hlike.1,
    hearlierTile.trans hlike.2, ?_⟩
  intro command h
  rw [hgiven]
  exact hcommand command (hlike.2 ▸ h)

/-- A texture unit that no batch read since the change, and that is thought to have what it needs, was
overlooked. -/
theorem Tracks.overlooked_of_not_needs (h : t.Tracks texture d) (hwrites : d.writes = [])
    (hone : unit = 0 ∨ unit = 1) (hreads : o.reads unit = true) (hneeds : ¬ Needs o d unit)
    (hsince : t.sinceChange.readers unit = []) : (t.opening o d).Overlooked unit := by
  have hsupplied := isSupplied_of_not_needs hreads hneeds
  simp only [isSupplied, Bool.and_eq_true, Bool.not_eq_true', beq_iff_eq] at hsupplied
  obtain ⟨hcurrent, htold⟩ := hsupplied
  -- Textures are not outdated, so that a textured batch came first; it was no reader.
  have hfirst : t.firstTextured? ≠ none := by
    intro hnone
    have hstale := h.outdated.mpr hnone
    simp [DeliverM.outdated, hcurrent, hwrites] at hstale
  obtain ⟨first, hsome⟩ := Option.ne_none_iff_exists'.mp hfirst
  have hfirstReads : first.reads unit = false := by
    cases hreads : first.reads unit with
    | false => rfl
    | true =>
      have hmem : first ∈ t.sinceChange.readers unit :=
        List.mem_filter.mpr ⟨t.mem_of_firstTextured? hsome, hreads⟩
      rw [hsince] at hmem
      cases hmem
  -- The tile that the renderer was told is from before the change.
  rw [h.told unit hone, readers_eq_append, hsince, List.nil_append] at htold
  obtain ⟨last, hlast, htile⟩ := Option.map_eq_some_iff.mp htold
  rw [overlooked_opening hfirst]
  refine ⟨⟨⟨first, hsome, hfirstReads⟩, last, hlast, ?_⟩, ?_⟩
  · rw [hsince]
    intro r hr
    cases hr
  · intro _ other hother
    rw [hlast] at hother
    obtain rfl : last = other := Option.some.inj hother
    exact htile.symm

private theorem Tracks.freshUnlessOverlooked_of_reads (h : t.Tracks texture d)
    (hwrites : d.writes = [])
    (htexture : o.scene.registers.texture = texture) (hone : unit = 0 ∨ unit = 1)
    (hreads : o.reads unit = true) : (t.opening o d).FreshUnlessOverlooked unit o := by
  by_cases hneeds : Needs o d unit
  · exact h.freshUnlessOverlooked_of_needs hone hneeds
  cases hsince : t.sinceChange.readers unit with
  | nil =>
    have hover := h.overlooked_of_not_needs hwrites hone hreads hneeds hsince
    refine ⟨fun _ => ?_, fun hnot => absurd hover hnot⟩
    rw [given?_sinceChange_opening t d o hone, supplyFor_of_not_needs hneeds]
    exact h.quiet unit hone hsince
  | cons r rest =>
    -- The last reader since the change sampled the same tile, with the same registers.
    have hr : (t.sinceChange.readers unit).head? = some r := by rw [hsince, List.head?_cons]
    have hopened := mem_openings_of_head? t.sinceChange hr
    apply (h.given unit hone r hr).opening hr hone hneeds
    · rw [htexture, h.registers r hopened]
    · intro _
      have hsupplied := isSupplied_of_not_needs hreads hneeds
      simp only [isSupplied, Bool.and_eq_true, beq_iff_eq] at hsupplied
      have htold := hsupplied.2
      rw [h.told unit hone, readers_eq_append, hsince, List.cons_append, List.head?_cons,
        Option.map_some] at htold
      exact (Option.some.inj htold).symm
    · exact Or.inl ⟨hreads, rfl⟩

/-- The delivery goes with the timeline once a batch is prepared and open. -/
theorem Tracks.opening (h : t.Tracks texture d) (hwrites : d.writes = [])
    (htexture : o.scene.registers.texture = texture)
    (hkey : ∀ key, after.batch.map (·.key) = some key → o.key = key)
    (houtdated : DeliverM.outdated after = (d.texturesStale && !o.isTextured))
    (htold : ∀ unit, unit = 0 ∨ unit = 1 → after.told.tiles.get unit =
      if o.reads unit then some (o.tileOf unit) else d.told.tiles.get unit) :
    (t.opening o d).Tracks texture after where
  opened := by
    intro key h
    exact ⟨o, by rw [openings_sinceChange_opening, List.head?_cons], hkey key h⟩
  outdated := by
    have hbefore : d.texturesStale = true ↔ t.firstTextured? = none := by
      rw [← h.outdated]
      simp [DeliverM.outdated, hwrites]
    rw [houtdated, firstTextured?_opening, Bool.and_eq_true, hbefore]
    cases t.firstTextured? <;> cases o.isTextured <;> simp
  told := by
    intro unit hone
    rw [htold unit hone, readers_opening]
    by_cases hreads : o.reads unit = true
    · rw [if_pos hreads, if_pos hreads, List.head?_cons, Option.map_some]
    · rw [if_neg hreads, if_neg hreads, h.told unit hone]
  registers := by
    intro r hr
    rw [openings_sinceChange_opening] at hr
    rcases List.mem_cons.mp hr with rfl | hr
    · exact htexture
    · exact h.registers r hr
  given := by
    intro unit hone r hr
    rw [readers_sinceChange_opening] at hr
    by_cases hreads : o.reads unit = true
    · rw [if_pos hreads, List.head?_cons] at hr
      obtain rfl : o = r := Option.some.inj hr
      exact h.freshUnlessOverlooked_of_reads hwrites htexture hone hreads
    · rw [if_neg hreads] at hr
      have hopened := mem_openings_of_head? t.sinceChange hr
      apply (h.given unit hone r hr).opening hr hone fun hneeds => hreads hneeds.1
      · rw [htexture, h.registers r hopened]
      · exact fun h => absurd h hreads
      · exact Or.inr rfl
  quiet := by
    intro unit hone hnone
    rw [readers_sinceChange_opening] at hnone
    by_cases hreads : o.reads unit = true
    · rw [if_pos hreads] at hnone
      cases hnone
    · rw [if_neg hreads] at hnone
      rw [given?_sinceChange_opening t d o hone,
        supplyFor_of_not_needs fun hneeds => hreads hneeds.1]
      exact h.quiet unit hone hnone

end Opening

end Timeline

end DisplayPipeline
