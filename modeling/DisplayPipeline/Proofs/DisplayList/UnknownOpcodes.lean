import DisplayPipeline.Proofs.DisplayList.Indifference
import DisplayPipeline.Proofs.DisplayList.ModeBits
import DisplayPipeline.Proofs.DisplayList.StrayWarnings
import Mathlib.Data.List.Induction
import Mathlib.Data.List.Nodup

/-!
# Unknown opcodes

An instruction with an unknown opcode is counted and passed over. A run warns of each unknown opcode that
it comes upon once, with the address where it came upon it first, whatever was warned of before the run.
The set of opcodes that is kept for this holds those that the run has come upon so far.
-/

namespace DisplayPipeline

/-! ## The first of each opcode -/

/-- The entries with an opcode that no entry before them has. -/
def firstOfEach (strays : List Stray) : List Stray :=
  (strays.zipIdx.filter fun entry =>
    entry.1.code ∉ (strays.take entry.2).map (·.code)).map (·.1)

private theorem firstOfEach_concat (strays : List Stray) (stray : Stray) :
    firstOfEach (strays ++ [stray]) = firstOfEach strays ++
      if stray.code ∈ strays.map (·.code) then [] else [stray] := by
  have hbefore : strays.zipIdx.filter (fun entry =>
        entry.1.code ∉ ((strays ++ [stray]).take entry.2).map (·.code)) =
      strays.zipIdx.filter fun entry => entry.1.code ∉ (strays.take entry.2).map (·.code) := by
    refine List.filter_congr fun entry hentry => ?_
    have hplace : entry.2 < strays.length := List.snd_lt_of_mem_zipIdx hentry
    rw [List.take_append_of_le_length (Nat.le_of_lt hplace)]
  rw [firstOfEach, List.zipIdx_append, List.filter_append, hbefore, List.map_append, firstOfEach]
  congr 1
  split <;> rename_i hknown <;> simp [hknown]

private theorem map_code_firstOfEach_concat (strays : List Stray) (stray : Stray) :
    (firstOfEach (strays ++ [stray])).map (·.code) = (firstOfEach strays).map (·.code) ++
      if stray.code ∈ strays.map (·.code) then [] else [stray.code] := by
  rw [firstOfEach_concat, List.map_append]
  split <;> rfl

private theorem mem_codes_firstOfEach (strays : List Stray) (code : UInt8) :
    code ∈ (firstOfEach strays).map (·.code) ↔ code ∈ strays.map (·.code) := by
  induction strays using List.reverseRecOn with
  | nil => rfl
  | append_singleton strays stray ih =>
    rw [map_code_firstOfEach_concat, List.mem_append, ih, List.map_append, List.mem_append]
    split
    · rename_i hknown
      have hlast : code ∈ [stray].map (·.code) → code ∈ strays.map (·.code) := by
        intro hcode
        rw [List.map_singleton, List.mem_singleton] at hcode
        exact hcode ▸ hknown
      exact ⟨fun h => .inl (h.resolve_right List.not_mem_nil), fun h => .inl (h.elim id hlast)⟩
    · rfl

private theorem nodup_codes_firstOfEach (strays : List Stray) :
    ((firstOfEach strays).map (·.code)).Nodup := by
  induction strays using List.reverseRecOn with
  | nil => exact List.nodup_nil
  | append_singleton strays stray ih =>
    rw [map_code_firstOfEach_concat]
    split
    · rwa [List.append_nil]
    · rename_i hnew
      rw [← List.concat_eq_append]
      exact ih.concat (mt (mem_codes_firstOfEach strays _).mp hnew)

def OpcodeSet.HasCodesOf (s : OpcodeSet) (strays : List Stray) : Prop :=
  ∀ code, s.contains code = true ↔ code ∈ strays.map (·.code)

namespace OpcodeSet

private theorem hasCodesOf_empty : HasCodesOf {} [] := by
  intro code
  rw [contains_empty]
  exact ⟨nofun, nofun⟩

private theorem HasCodesOf.insert {s : OpcodeSet} {strays : List Stray} (h : s.HasCodesOf strays)
    (stray : Stray) : (s.insert stray.code).HasCodesOf (strays ++ [stray]) := by
  intro code
  rw [contains_insert, h code, List.map_append, List.mem_append, List.map_singleton,
    List.mem_singleton]
  exact Or.comm

private theorem HasCodesOf.again {s : OpcodeSet} {strays : List Stray} (h : s.HasCodesOf strays)
    {stray : Stray}
    (hknown : stray.code ∈ strays.map (·.code)) : s.HasCodesOf (strays ++ [stray]) := by
  intro code
  rw [h code, List.map_append, List.mem_append, List.map_singleton, List.mem_singleton]
  exact ⟨.inl, fun hcode => hcode.elim id fun hsame => hsame ▸ hknown⟩

end OpcodeSet

/-! ## Unknown opcodes in memory -/

/-- The unknown opcode that a visit comes upon. -/
def Visit.stray? (v : Visit) (ram : Ram) : Option Stray :=
  if Opcode.ofByte? (ram.byte v.address) = none then some ⟨ram.byte v.address, v.address⟩ else none

namespace Instruction

private theorem codeOf_read32 (ram : Ram) (address : UInt32) :
    codeOf (ram.read32 address) = ram.byte address := by
  apply codeOf_eq
  have h1 := (ram.byte (address + 1)).toNat_lt
  have h2 := (ram.byte (address + 2)).toNat_lt
  have h3 := (ram.byte (address + 3)).toNat_lt
  rw [Ram.read32, Word.toNat_join32]
  omega

private theorem ofOpcode_ne_unknown (opcode : Opcode) (w0 w1 : UInt32) (operands : UInt32 × UInt32)
    (code : UInt8) : ofOpcode opcode w0 w1 operands ≠ .unknown code := by
  cases opcode with
  | moveWord =>
    change decodeMoveWord w0 w1 ≠ _
    unfold decodeMoveWord
    dsimp only
    split
    · exact nofun
    · exact nofun
    · split <;> exact nofun
    · exact nofun
  | moveMemory =>
    change decodeMoveMemory w0 w1 ≠ _
    unfold decodeMoveMemory
    dsimp only
    split
    · exact nofun
    · split <;> exact nofun
    · exact nofun
  | modifyVertex =>
    change decodeModifyVertex w0 w1 ≠ _
    unfold decodeModifyVertex
    dsimp only
    split <;> exact nofun
  | _ => exact nofun

variable {ram : Ram} {address : UInt32}

private theorem fetch_of_unknown (h : Opcode.ofByte? (ram.byte address) = none) :
    fetch ram address = (.unknown (ram.byte address), following ram address) := by
  rw [← codeOf_read32] at h ⊢
  unfold fetch
  simp only [h]

private theorem fetch_ne_unknown (h : Opcode.ofByte? (ram.byte address) ≠ none) (code : UInt8) :
    (fetch ram address).1 ≠ .unknown code := by
  obtain ⟨opcode, hopcode⟩ := Option.ne_none_iff_exists'.mp h
  rw [← codeOf_read32] at hopcode
  unfold fetch
  simp only [hopcode]
  split <;> exact ofOpcode_ne_unknown _ _ _ _ code

end Instruction

/-! ## One instruction -/

namespace Machine

variable {σ : Type} {o : Outlet σ} {ram : Ram} {settings : ListSettings} {m : Machine σ}

/-- Passes over an unknown opcode: counts it, and warns of it unless that was done. -/
def pass (m : Machine σ) (ram : Ram) (stray : Stray) : Machine σ :=
  let known := m.walk.reported.contains stray.code
  { m with
    walk.address := ram.clamp (m.walk.address + 8)
    walk.reported := if known then m.walk.reported else m.walk.reported.insert stray.code
    link.journal.tally.commands := m.link.journal.tally.commands + 1
    link.journal.tally.unknownOpcodes := m.link.journal.tally.unknownOpcodes + 1
    link.journal.events :=
      if known then m.link.journal.events
      else m.link.journal.events.push (.unknownOpcode stray.code stray.address) }

private theorem step_of_stray {stray : Stray} (h : m.visit.stray? ram = some stray) :
    m.step o ram settings = .next (m.pass ram stray) := by
  unfold Visit.stray? at h
  split at h
  · rename_i hunknown
    cases h
    have hfetch : Instruction.fetch ram m.walk.address =
        (.unknown (ram.byte m.walk.address), Instruction.following ram m.walk.address) :=
      Instruction.fetch_of_unknown hunknown
    have hinstruction : m.visit.instruction ram = .unknown (ram.byte m.walk.address) :=
      congrArg Prod.fst hfetch
    rw [step_eq, hinstruction]
    change moved (m.visit.scene ram settings) ⟨m.registers, m.walk, m.counted⟩ = _
    rw [moved]
    dsimp only [Visit.scene]
    rw [hfetch]
    change Step.next _ = Step.next _
    unfold pass note noteUnknown
    dsimp only [log, counted, visit]
    cases m.walk.reported.contains (ram.byte m.walk.address) <;> rfl
  · cases h

private theorem note_noStrays {instruction : Instruction} (h : ∀ code, instruction ≠ .unknown code)
    (scene : Scene) (address : UInt32) :
    m.link.journal.NoStrays (m.note scene address instruction).link.journal ∧
      (m.note scene address instruction).walk.reported = m.walk.reported := by
  unfold note
  split
  · rename_i code
    exact absurd rfl (h code)
  · split
    · exact ⟨Journal.noStrays_of_report (.matrixStackFull address) rfl rfl rfl, rfl⟩
    · exact ⟨.refl _, rfl⟩
  · split <;> exact ⟨Journal.noStrays_of_events rfl rfl, rfl⟩
  · exact ⟨.refl _, rfl⟩

private theorem follow_noStrays (m : Machine σ) (maxDepth : Nat) (address : UInt32) (move : Move) :
    m.link.journal.NoStrays (m.follow maxDepth address move).after.link.journal ∧
      (m.follow maxDepth address move).after.walk.reported = m.walk.reported := by
  cases move with
  | goTo target => exact ⟨.refl _, rfl⟩
  | call target back =>
    simp only [follow]
    split
    · exact ⟨Journal.noStrays_of_report (.callsTooDeep m.walk.returns.size address) rfl rfl rfl, rfl⟩
    · exact ⟨.refl _, rfl⟩
  | leave =>
    simp only [follow]
    split <;> exact ⟨.refl _, rfl⟩

private theorem step_noStrays (o : Outlet σ) (settings : ListSettings)
    (h : m.visit.stray? ram = none) :
    m.link.journal.NoStrays (m.step o ram settings).after.link.journal ∧
      (m.step o ram settings).after.walk.reported = m.walk.reported := by
  have hknown : Opcode.ofByte? (ram.byte m.walk.address) ≠ none := by
    intro hunknown
    cases (if_pos hunknown).symm.trans h
  have hcounted : m.link.journal.NoStrays m.counted.journal := Journal.noStrays_of_events rfl rfl
  have hdelivered := DeliverM.noStrays_performAll (o := o) (m.visit.scene ram settings)
    ((m.visit.scene ram settings).requests (m.visit.instruction ram)) m.counted
  rw [step_eq]
  cases hperform : DeliverM.performAll o (m.visit.scene ram settings)
      ((m.visit.scene ram settings).requests (m.visit.instruction ram)) m.counted with
  | error cause link => exact ⟨hcounted.trans (hdelivered.of_error hperform), rfl⟩
  | ok _ link =>
    have hlink := hcounted.trans (hdelivered.of_ok hperform)
    let delivered : Machine σ := ⟨m.registers, m.walk, link⟩
    obtain ⟨hnote, hreported⟩ := note_noStrays (m := delivered) (Instruction.fetch_ne_unknown hknown)
      (m.visit.scene ram settings) m.walk.address
    obtain ⟨hfollow, hsame⟩ := follow_noStrays
      { delivered.note (m.visit.scene ram settings) m.walk.address (m.visit.instruction ram) with
        registers := (m.visit.scene ram settings).advance (m.visit.instruction ram) }
      settings.maxDepth m.walk.address ((m.visit.scene ram settings).move
        (Instruction.fetch ram m.walk.address).2 (m.visit.instruction ram))
    exact ⟨(hlink.trans hnote).trans hfollow, hsame.trans hreported⟩

private theorem pass_warns (m : Machine σ) (ram : Ram) (stray : Stray) {before : List Stray}
    (h : m.walk.reported.HasCodesOf before) :
    ∃ warned, m.link.journal.Warns (m.pass ram stray).link.journal warned 1 ∧
      firstOfEach (before ++ [stray]) = firstOfEach before ++ warned ∧
      (m.pass ram stray).walk.reported.HasCodesOf (before ++ [stray]) := by
  rw [firstOfEach_concat]
  by_cases hmem : stray.code ∈ before.map (·.code)
  · have hknown : m.walk.reported.contains stray.code = true := (h stray.code).mpr hmem
    refine ⟨[], ⟨⟨[], ?_, rfl⟩, rfl⟩, by rw [if_pos hmem], ?_⟩
    · simp only [pass, hknown, if_true, List.append_nil]
    · simp only [pass, hknown, if_true]
      exact h.again hmem
  · have hnew : m.walk.reported.contains stray.code = false :=
      Bool.eq_false_iff.mpr (mt (h stray.code).mp hmem)
    refine ⟨[stray], ⟨⟨[.unknownOpcode stray.code stray.address], ?_, rfl⟩, rfl⟩, by rw [if_neg hmem],
      ?_⟩
    · simp only [pass, hnew, Bool.false_eq_true, if_false, Array.toList_push]
    · simp only [pass, hnew, Bool.false_eq_true, if_false]
      exact h.insert stray

private theorem step_warns (o : Outlet σ) (ram : Ram) (settings : ListSettings) (m : Machine σ)
    {before : List Stray} (h : m.walk.reported.HasCodesOf before) :
    ∃ warned, m.link.journal.Warns (m.step o ram settings).after.link.journal warned
        (m.visit.stray? ram).toList.length ∧
      firstOfEach (before ++ (m.visit.stray? ram).toList) = firstOfEach before ++ warned ∧
      (m.step o ram settings).after.walk.reported.HasCodesOf
        (before ++ (m.visit.stray? ram).toList) := by
  cases hstray : m.visit.stray? ram with
  | none =>
    obtain ⟨hnone, hreported⟩ := step_noStrays o settings hstray
    rw [Option.toList_none, List.append_nil, hreported]
    exact ⟨[], hnone, (List.append_nil _).symm, h⟩
  | some stray =>
    rw [step_of_stray hstray]
    exact m.pass_warns ram stray h

def straysOf (ram : Ram) (machines : List (Machine σ)) : List Stray :=
  machines.filterMap fun m => m.visit.stray? ram

private theorem straysOf_concat (ram : Ram) (machines : List (Machine σ)) (m : Machine σ) :
    straysOf ram (machines ++ [m]) = straysOf ram machines ++ (m.visit.stray? ram).toList := by
  rw [straysOf, List.filterMap_append, straysOf, List.filterMap_cons, List.filterMap_nil]
  cases m.visit.stray? ram <;> rfl

/-- A run warns of each unknown opcode once. -/
theorem walkFor_warns (o : Outlet σ) (ram : Ram) (settings : ListSettings) (budget : Nat)
    (m : Machine σ) (h : m.walk.reported.HasCodesOf []) :
    let met := straysOf ram (m.course o ram settings budget)
    m.link.journal.Warns (m.walkFor o ram settings budget).1.link.journal (firstOfEach met)
      met.length := by
  refine (walkFor_accumulates (R := fun past last _ =>
    m.link.journal.Warns last.link.journal (firstOfEach (straysOf ram past))
      (straysOf ram past).length ∧ last.walk.reported.HasCodesOf (straysOf ram past)) ?_ budget
    ⟨Journal.NoStrays.refl _, h⟩).1
  rintro past last ⟨hwarns, hcodes⟩
  obtain ⟨warned, hstep, hfirst, hafter⟩ := last.step_warns o ram settings hcodes
  rw [straysOf_concat, List.length_append, hfirst]
  exact ⟨hwarns.trans hstep, hafter⟩

private theorem finish_noStrays (o : Outlet σ) (m : Machine σ) (outcome : ListOutcome) :
    m.link.journal.NoStrays (m.finish o outcome).1.link.journal := by
  have hclosed := DeliverM.noStrays_closeBatch (o := o) m.link
  unfold finish
  split
  · exact .refl _
  · cases hclose : DeliverM.closeBatch o m.link with
    | ok _ link => exact hclosed.of_ok hclose
    | error cause link => exact hclosed.of_error hclose

end Machine

namespace ListProcessor

variable {σ : Type}

private theorem afterLast_noStrays (p : ListProcessor) (start : UInt32)
    (walked : Machine σ × Option ListOutcome) :
    walked.1.link.journal.NoStrays (p.afterLast start walked).link.journal := by
  unfold afterLast
  split
  · exact Journal.noStrays_of_report (.budgetExhausted p.settings.budget start) rfl rfl rfl
  · exact .refl _

/-- The unknown opcodes that a run comes upon, in order. -/
def strays (p : ListProcessor) (o : Outlet σ) (ram : Ram) (start : UInt32) (sink : σ) :
    List Stray :=
  (p.visits o ram start sink).filterMap (·.stray? ram)

private theorem strays_eq (p : ListProcessor) (o : Outlet σ) (ram : Ram) (start : UInt32)
    (sink : σ) :
    p.strays o ram start sink = Machine.straysOf ram
      ((p.machine ram start sink).course o ram p.settings p.settings.budget) := by
  rw [strays, visits, List.filterMap_map]
  rfl

private theorem run_warns (p : ListProcessor) (o : Outlet σ) (ram : Ram) (start : UInt32)
    (sink : σ) :
    p.journal.Warns (p.run o ram start sink).1.journal (firstOfEach (p.strays o ram start sink))
      (p.strays o ram start sink).length := by
  let walked := (p.machine ram start sink).walkFor o ram p.settings p.settings.budget
  have hwarns : p.journal.Warns walked.1.link.journal _ _ :=
    (p.machine ram start sink).walkFor_warns o ram p.settings p.settings.budget
      OpcodeSet.hasCodesOf_empty
  have hrest := (p.afterLast_noStrays start walked).trans
    (Machine.finish_noStrays o (p.afterLast start walked) (walked.2.getD .exhausted))
  have hall := hwarns.trans hrest
  rw [List.append_nil, Nat.add_zero, ← strays_eq] at hall
  rw [run_eq_finish]
  exact hall

/-- A run warns of the unknown opcodes that it comes upon, of each once: in the order in which it comes
upon them first, with the addresses where it does, and whatever was warned of before. They are counted
each time. An instruction with an unknown opcode leads to the next and changes nothing else. -/
theorem run_warnsOfFirsts (p : ListProcessor) (o : Outlet σ) (ram : Ram) (start : UInt32)
    (sink : σ) :
    let met := p.strays o ram start sink
    let after := (p.run o ram start sink).1
    (∃ sent, after.journal.events.toList = p.journal.events.toList ++ sent ∧
      sent.filterMap (·.stray?) = firstOfEach met) ∧
    ((firstOfEach met).map (·.code)).Nodup ∧
    (∀ code, code ∈ (firstOfEach met).map (·.code) ↔ code ∈ met.map (·.code)) ∧
    after.journal.tally.unknownOpcodes = p.journal.tally.unknownOpcodes + met.length ∧
    ∀ (settings : ListSettings) (m : Machine σ) (stray : Stray), m.visit.stray? ram = some stray →
      m.step o ram settings = .next (m.pass ram stray) := by
  have hwarns := p.run_warns o ram start sink
  exact ⟨hwarns.events, nodup_codes_firstOfEach _, mem_codes_firstOfEach _, hwarns.unknown,
    fun settings m stray hstray => Machine.step_of_stray hstray⟩

/-- Three unknown opcodes that have the same bit of different words, the first of them twice, and a
jump back to the start. -/
def strayLoopRam : Ram where
  bytes := ⟨#[
    0x08, 0x00, 0x00, 0x00, 0x00, 0x00, 0x00, 0x00, 0x48, 0x00, 0x00, 0x00, 0x00, 0x00, 0x00, 0x00,
    0x08, 0x00, 0x00, 0x00, 0x00, 0x00, 0x00, 0x00, 0x88, 0x00, 0x00, 0x00, 0x00, 0x00, 0x00, 0x00,
    0xDE, 0x01, 0x00, 0x00, 0x00, 0x00, 0x00, 0x00, 0xDF, 0x00, 0x00, 0x00, 0x00, 0x00, 0x00, 0x00,
    0x00, 0x00, 0x00, 0x00, 0x00, 0x00, 0x00, 0x00, 0x00, 0x00, 0x00, 0x00, 0x00, 0x00, 0x00, 0x00]⟩
  logSize := 1 + 5
  size_eq := by decide +kernel
  logSize_le := by decide

def warnedBefore : ListProcessor :=
  { ListProcessor.ofSettings { budget := 8 } with
    journal := { tally := { unknownOpcodes := 1 }, events := #[.unknownOpcode 0x48 0x400] } }

theorem run_warnsOfFirsts_loop :
    warnedBefore.strays .recording strayLoopRam 0 {} =
        [⟨0x08, 0⟩, ⟨0x48, 8⟩, ⟨0x08, 16⟩, ⟨0x88, 24⟩, ⟨0x08, 0⟩, ⟨0x48, 8⟩, ⟨0x08, 16⟩] ∧
      (∃ sent, (warnedBefore.run .recording strayLoopRam 0 {}).1.journal.events.toList =
          .unknownOpcode 0x48 0x400 :: sent ∧
        sent.filterMap (·.stray?) = [⟨0x08, 0⟩, ⟨0x48, 8⟩, ⟨0x88, 24⟩]) ∧
      (warnedBefore.run .recording strayLoopRam 0 {}).1.journal.tally.unknownOpcodes = 8 ∧
      (warnedBefore.machine strayLoopRam 0 ({} : Recording)).visit.stray? strayLoopRam =
        some ⟨0x08, 0⟩ ∧
      (warnedBefore.machine strayLoopRam 0 ({} : Recording)).step .recording strayLoopRam {} =
        .next ((warnedBefore.machine strayLoopRam 0 {}).pass strayLoopRam ⟨0x08, 0⟩) := by
  have hmet : warnedBefore.strays .recording strayLoopRam 0 {} =
      [⟨0x08, 0⟩, ⟨0x48, 8⟩, ⟨0x08, 16⟩, ⟨0x88, 24⟩, ⟨0x08, 0⟩, ⟨0x48, 8⟩, ⟨0x08, 16⟩] := by
    decide +kernel
  have hstray : (warnedBefore.machine strayLoopRam 0 ({} : Recording)).visit.stray? strayLoopRam =
      some ⟨0x08, 0⟩ := by decide +kernel
  obtain ⟨hsent, -, -, hcount, hstep⟩ :=
    warnedBefore.run_warnsOfFirsts .recording strayLoopRam 0 ({} : Recording)
  rw [hmet] at hsent hcount
  exact ⟨hmet, hsent, hcount, hstray, hstep {} _ _ hstray⟩

end ListProcessor

end DisplayPipeline
