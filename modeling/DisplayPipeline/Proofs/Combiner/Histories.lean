import DisplayPipeline.Proofs.Combiner.LivePrograms
import DisplayPipeline.Proofs.Combiner.ProgramText

/-!
# Histories of programs

A table of programs alone on its device, asked for programs, told of lost features, cleared, while
the device refuses what it likes. At every moment the device holds what the table refers to and
nothing else. A key keeps its program until something drops it.
-/

namespace DisplayPipeline

namespace Device

private theorem compile_refused {d : Device} {label : String} (h : d.faults.refuses label = true) :
    d.compile label = (d, .error (.compileFailed label "refused")) := by
  rw [compile, h]
  rfl

private theorem ascending_adopt {d : Device} (h : d.programs.Pairwise fun e f => e.1.id < f.1.id)
    (hissued : ∀ e ∈ d.programs, e.1.id < d.nextProgram) (label : String) :
    (d.adopt label).programs.Pairwise fun e f => e.1.id < f.1.id := by
  refine List.pairwise_append.mpr ⟨h, List.pairwise_singleton _ _, fun e he f hf => ?_⟩
  rw [List.mem_singleton.mp hf]
  exact hissued e he

def refuse (d : Device) (programs passThroughs : Bool) : Device :=
  { d with faults := { d.faults with programs, passThroughs } }

end Device

namespace Combiner

namespace Programs

section Making

variable (p : Programs) (key : Key) (handle : Option ProgramHandle)

def mainProgram : Program :=
  { key
    handle
    layout := .ofProgram key.isTextured
    wgsl := Shader.combine key.stages key p.accuracy p.capabilities
    fallback := false
    generation := p.generation
    serial := p.misses }

def substituteProgram : Program :=
  { p.mainProgram key handle with
    wgsl := Shader.passThrough key.stages.color key
    fallback := true }

/-- What a device makes of a key that compiles or refuses main programs and pass-through ones. -/
inductive Made (d : Device) : Device → Program → Prop where
  | main (hmain : d.faults.programs = false) :
    Made d (d.adopt (label key)) (p.mainProgram key (some ⟨d.nextProgram⟩))
  | substitute (hmain : d.faults.programs = true) (hsecond : d.faults.passThroughs = false) :
    Made d (d.adopt (label key ++ passThroughMark))
      (p.substituteProgram key (some ⟨d.nextProgram⟩))
  | refused (hmain : d.faults.programs = true) (hsecond : d.faults.passThroughs = true) :
    Made d d (p.substituteProgram key none)

private theorem make_made (d : Device) :
    ∃ after q events, p.make key d = (after, q, events) ∧ p.Made key d after q := by
  have hmain := refuses_label d.faults key
  have hsecond := refuses_passThrough d.faults key
  rw [make]
  cases hprograms : d.faults.programs with
  | false =>
    rw [Device.compile_eq (hmain.trans hprograms)]
    exact ⟨_, p.mainProgram key _, _, by dsimp only [mainProgram], .main hprograms⟩
  | true =>
    rw [Device.compile_refused (hmain.trans hprograms)]
    dsimp only
    cases hpassThroughs : d.faults.passThroughs with
    | false =>
      rw [Device.compile_eq (hsecond.trans hpassThroughs)]
      exact ⟨_, p.substituteProgram key _, _, by dsimp only [substituteProgram, mainProgram],
        .substitute hprograms hpassThroughs⟩
    | true =>
      rw [Device.compile_refused (hsecond.trans hpassThroughs)]
      exact ⟨_, p.substituteProgram key _, _, by dsimp only [substituteProgram, mainProgram],
        .refused hprograms hpassThroughs⟩

end Making

variable {p : Programs} {d : Device} {key : Key}

theorem Made.fields {after : Device} {q : Program} (h : p.Made key d after q) :
    q.key = key ∧ q.generation = p.generation ∧ q.serial = p.misses := by
  cases h <;> exact ⟨rfl, rfl, rfl⟩

private theorem Made.device {after : Device} {q : Program} (h : p.Made key d after q) :
    (q.handle = none ∧ after = d) ∨
      (q.handle = some ⟨d.nextProgram⟩ ∧ after = d.adopt (deviceLabel q)) := by
  cases h with
  | main => exact Or.inr ⟨rfl, rfl⟩
  | substitute => exact Or.inr ⟨rfl, rfl⟩
  | refused => exact Or.inl ⟨rfl, rfl⟩

def add (p : Programs) (q : Program) : Programs :=
  { p with
    table := p.table ++ [q]
    misses := p.misses + 1
    fallbacks := p.fallbacks + if q.fallback then 1 else 0 }

theorem forall_mem_add {P : Program → Prop} {q : Program} (hold : ∀ r ∈ p.table, P r) (hq : P q) :
    ∀ r ∈ (p.add q).table, P r :=
  List.forall_mem_append.mpr ⟨hold, List.forall_mem_singleton.mpr hq⟩

private theorem pairwise_add {R : Program → Program → Prop} {q : Program}
    (hold : p.table.Pairwise R) (hq : ∀ r ∈ p.table, R r q) : (p.add q).table.Pairwise R := by
  refine List.pairwise_append.mpr ⟨hold, List.pairwise_singleton _ _, fun r hr s hs => ?_⟩
  rw [List.mem_singleton.mp hs]
  exact hq r hr

/-- A request finds a program in the refreshed table, or has it made. -/
theorem build_cases (p : Programs) (key : Key) (d : Device) :
    ∃ refreshed device, p.refresh d = (refreshed, device) ∧
      ((∃ q, refreshed.find? key = some q ∧
          p.build key d = ({ refreshed with hits := refreshed.hits + 1 }, device, q, [])) ∨
        ∃ after q events, refreshed.find? key = none ∧ refreshed.Made key device after q ∧
          p.build key d = (refreshed.add q, after, q, events)) := by
  obtain ⟨refreshed, device, hrefresh⟩ : ∃ refreshed device, p.refresh d = (refreshed, device) :=
    ⟨_, _, rfl⟩
  refine ⟨refreshed, device, hrefresh, ?_⟩
  cases hfound : refreshed.find? key with
  | some q => exact Or.inl ⟨q, rfl, build_of_found hrefresh hfound⟩
  | none =>
    obtain ⟨after, q, events, hmake, hmade⟩ := refreshed.make_made key device
    exact Or.inr ⟨after, q, events, rfl, hmade, build_of_make hrefresh hfound hmake⟩

private theorem refresh_sameBesidePrograms (p : Programs) (d : Device) :
    d.SameBesidePrograms (p.refresh d).2 := by
  rw [refresh]
  split
  · rw [clear, Device.foldl_releaseProgram]
    rfl
  · rfl

theorem build_sameBesidePrograms (p : Programs) (key : Key) (d : Device) :
    d.SameBesidePrograms (p.build key d).2.1 := by
  have hdevice := p.refresh_sameBesidePrograms d
  obtain ⟨refreshed, device, hrefresh, ⟨_, -, hbuild⟩ | ⟨_, _, _, -, hmade, hbuild⟩⟩ :=
    p.build_cases key d
  all_goals
    rw [hrefresh] at hdevice
    rw [hbuild]
  · exact hdevice
  · rcases hmade.device with ⟨-, rfl⟩ | ⟨-, rfl⟩
    · exact hdevice
    · show d.SameBesidePrograms (device.adopt _)
      rw [show device = _ from hdevice]
      rfl

def owned (q : Program) : Option (ProgramHandle × String) :=
  q.handle.map fun handle => (handle, deviceLabel q)

/-- The device holds what the table refers to, and programs are told apart. -/
structure Accounted (p : Programs) (d : Device) : Prop where
  live : d.programs = p.table.filterMap owned
  ascending : d.programs.Pairwise fun e f => e.1.id < f.1.id
  issued : ∀ e ∈ d.programs, e.1.id < d.nextProgram
  keys : p.table.Pairwise fun q r => q.key ≠ r.key
  generation : ∀ q ∈ p.table, q.generation = p.generation
  serials : p.table.Pairwise fun q r => q.serial < r.serial
  counted : ∀ q ∈ p.table, q.serial < p.misses

theorem find?_eq_some {q : Program} (h : p.find? key = some q) : q ∈ p.table ∧ q.key = key :=
  have hmatches := List.find?_some h
  ⟨List.mem_of_find?_eq_some h, of_decide_eq_true hmatches⟩

private theorem find?_eq_none (h : p.find? key = none) {q : Program} (hq : q ∈ p.table) :
    q.key ≠ key := by
  have hnone := List.find?_eq_none.mp h q hq
  simpa using hnone

theorem clear_eq (p : Programs) (d : Device) :
    p.clear d = ({ p with table := [] },
      { d with programs := d.programs.filter fun e => e.1 ∉ p.table.filterMap (·.handle) }) := by
  rw [clear, Device.foldl_releaseProgram]

namespace Accounted

private theorem of_nil (hp : p.table = []) (hd : d.programs = []) : p.Accounted d := by
  constructor <;> simp [hp, hd]

private theorem clear (h : p.Accounted d) : (p.clear d).1.Accounted (p.clear d).2 := by
  rw [clear_eq]
  refine of_nil rfl (List.filter_eq_nil_iff.mpr fun e he => ?_)
  rw [h.live] at he
  obtain ⟨q, hq, howned⟩ := List.mem_filterMap.mp he
  obtain ⟨handle, hhandle, rfl⟩ := Option.map_eq_some_iff.mp howned
  simpa using ⟨q, hq, hhandle⟩

private theorem refresh (h : p.Accounted d) : (p.refresh d).1.Accounted (p.refresh d).2 := by
  rw [Programs.refresh]
  split
  · have hcleared := h.clear
    rw [clear_eq] at hcleared ⊢
    exact of_nil rfl hcleared.live
  · exact h

private theorem add (h : p.Accounted d) {after : Device} {q : Program} (hnew : p.find? key = none)
    (hmade : p.Made key d after q) : (p.add q).Accounted after := by
  obtain ⟨hkey, hnow, hserial⟩ := hmade.fields
  have hkeys : (p.add q).table.Pairwise fun q r => q.key ≠ r.key :=
    pairwise_add h.keys fun r hr => hkey ▸ find?_eq_none hnew hr
  have hgeneration : ∀ r ∈ (p.add q).table, r.generation = p.generation :=
    forall_mem_add h.generation hnow
  have hserials : (p.add q).table.Pairwise fun q r => q.serial < r.serial :=
    pairwise_add h.serials fun r hr => hserial ▸ h.counted r hr
  have hcounted : ∀ r ∈ (p.add q).table, r.serial < p.misses + 1 :=
    forall_mem_add (fun r hr => (h.counted r hr).trans (Nat.lt_succ_self _))
      (hserial ▸ Nat.lt_succ_self _)
  have hlive : (p.add q).table.filterMap owned = d.programs ++ (owned q).toList := by
    rw [Programs.add, List.filterMap_append, ← h.live]
    cases howned : owned q <;> simp [howned]
  rcases hmade.device with ⟨hnone, rfl⟩ | ⟨hsome, rfl⟩
  · refine ⟨?_, h.ascending, h.issued, hkeys, hgeneration, hserials, hcounted⟩
    rw [hlive, owned, hnone]
    simp
  · refine ⟨?_, Device.ascending_adopt h.ascending h.issued _, Device.issued_adopt h.issued _,
      hkeys, hgeneration, hserials, hcounted⟩
    rw [hlive, owned, hsome]
    rfl

private theorem congr (h : p.Accounted d) {other : Programs} {after : Device}
    (htable : other.table = p.table) (hgeneration : other.generation = p.generation)
    (hmisses : other.misses = p.misses) (hprograms : after.programs = d.programs)
    (hnext : after.nextProgram = d.nextProgram) : other.Accounted after where
  live := by rw [hprograms, htable, h.live]
  ascending := hprograms ▸ h.ascending
  issued := by
    rw [hprograms, hnext]
    exact h.issued
  keys := htable ▸ h.keys
  generation := by
    rw [htable, hgeneration]
    exact h.generation
  serials := htable ▸ h.serials
  counted := by
    rw [htable, hmisses]
    exact h.counted

end Accounted

private theorem refresh_current (p : Programs) (d : Device) :
    (p.refresh d).1.obsolete = false ∧
      ((p.refresh d).1.hits = p.hits ∧ (p.refresh d).1.misses = p.misses) := by
  rw [refresh]
  split
  · rw [clear_eq]
    exact ⟨rfl, rfl, rfl⟩
  · next hcurrent => exact ⟨by simpa using hcurrent, rfl, rfl⟩

private theorem refresh_of_current (h : p.obsolete = false) (d : Device) : p.refresh d =
    (p, d) := by
  rw [refresh, h]
  rfl

end Programs

/-- What is asked of a table of programs, and how its device behaves from then on. -/
inductive ProgramCall where
  | build (key : Key)
  | markObsolete
  | setCapabilities (capabilities : Capabilities)
  | clear
  /-- From now on the device refuses main programs or pass-through ones, or compiles them again. -/
  | refuse (programs passThroughs : Bool)
deriving DecidableEq

def ProgramCall.isBuild : ProgramCall → Bool
  | build _ => true
  | _ => false

/-- A table of programs and the device that it alone uses. -/
structure ProgramStock where
  programs : Programs
  device : Device

namespace ProgramStock

def ofSpec (accuracy : Accuracy) (capabilities : Capabilities) (device : DeviceSpec) :
    ProgramStock :=
  ⟨{ accuracy, capabilities }, .ofSpec device⟩

def build (s : ProgramStock) (key : Key) : ProgramStock × Program :=
  let (programs, device, q, _) := s.programs.build key s.device
  (⟨programs, device⟩, q)

def serve (s : ProgramStock) : ProgramCall → ProgramStock
  | .build key => (s.build key).1
  | .markObsolete => ⟨s.programs.markObsolete, s.device⟩
  | .setCapabilities capabilities => ⟨s.programs.setCapabilities capabilities, s.device⟩
  | .clear =>
    let (programs, device) := s.programs.clear s.device
    ⟨programs, device⟩
  | .refuse programs passThroughs => ⟨s.programs, s.device.refuse programs passThroughs⟩

def serveAll (s : ProgramStock) (calls : List ProgramCall) : ProgramStock := calls.foldl serve s

def Drops (s : ProgramStock) : ProgramCall → Prop
  | .build _ | .refuse _ _ => False
  | .markObsolete | .clear => True
  | .setCapabilities capabilities => capabilities.includes s.programs.capabilities = false

/-- None of the calls drops programs. -/
def KeepsThrough (s : ProgramStock) : List ProgramCall → Prop
  | [] => True
  | call :: calls => ¬ s.Drops call ∧ (s.serve call).KeepsThrough calls

variable {s : ProgramStock} {key : Key} {q : Program} {n : Nat}

theorem build_cases (s : ProgramStock) (key : Key) :
    ∃ refreshed device, s.programs.refresh s.device = (refreshed, device) ∧
      ((∃ q, refreshed.find? key = some q ∧
          s.build key = (⟨{ refreshed with hits := refreshed.hits + 1 }, device⟩, q)) ∨
        ∃ after q, refreshed.find? key = none ∧ refreshed.Made key device after q ∧
          s.build key = (⟨refreshed.add q, after⟩, q)) := by
  obtain ⟨refreshed, device, hrefresh, ⟨q, hfound, hbuild⟩ | ⟨after, q, _, hnone, hmade, hbuild⟩⟩ :=
    s.programs.build_cases key s.device
  · exact ⟨refreshed, device, hrefresh, Or.inl ⟨q, hfound, by rw [build, hbuild]⟩⟩
  · exact ⟨refreshed, device, hrefresh, Or.inr ⟨after, q, hnone, hmade, by rw [build, hbuild]⟩⟩

section Accounts

abbrev Accounted (s : ProgramStock) : Prop := s.programs.Accounted s.device

private theorem Accounted.build (h : s.Accounted) (key : Key) : (s.build key).1.Accounted := by
  have hrefreshed := Programs.Accounted.refresh h
  obtain ⟨refreshed, device, hrefresh, ⟨q, -, hbuild⟩ | ⟨after, q, hnone, hmade, hbuild⟩⟩ :=
    s.build_cases key
  all_goals rw [hrefresh] at hrefreshed
  · rw [hbuild]
    exact hrefreshed.congr rfl rfl rfl rfl rfl
  · rw [hbuild]
    exact hrefreshed.add hnone hmade

private theorem Accounted.serve (h : s.Accounted) (call : ProgramCall) :
    (s.serve call).Accounted := by
  cases call with
  | build key => exact h.build key
  | clear => exact Programs.Accounted.clear h
  | markObsolete => exact Programs.Accounted.congr h rfl rfl rfl rfl rfl
  | setCapabilities capabilities => exact Programs.Accounted.congr h rfl rfl rfl rfl rfl
  | refuse programs passThroughs => exact Programs.Accounted.congr h rfl rfl rfl rfl rfl

private theorem Accounted.serveAll (h : s.Accounted) (calls : List ProgramCall) :
    (s.serveAll calls).Accounted := by
  induction calls generalizing s with
  | nil => exact h
  | cons call calls ih => exact ih (h.serve call)

private def requests (s : ProgramStock) : Nat := s.programs.hits + s.programs.misses

private theorem requests_build (s : ProgramStock) (key : Key) :
    (s.build key).1.requests = s.requests + 1 := by
  obtain ⟨-, hhits, hmisses⟩ := s.programs.refresh_current s.device
  obtain ⟨refreshed, device, hrefresh, ⟨q, -, hbuild⟩ | ⟨after, q, -, -, hbuild⟩⟩ :=
    s.build_cases key
  all_goals
    rw [hrefresh] at hhits hmisses
    rw [hbuild]
    simp only [requests, Programs.add] at hhits hmisses ⊢
    omega

private theorem requests_serve (s : ProgramStock) (call : ProgramCall) :
    (s.serve call).requests = s.requests + if call.isBuild then 1 else 0 := by
  cases call with
  | build key => exact s.requests_build key
  | clear =>
    rw [serve, Programs.clear_eq]
    rfl
  | _ => rfl

private theorem requests_serveAll (s : ProgramStock) (calls : List ProgramCall) :
    (s.serveAll calls).requests = s.requests + calls.countP (·.isBuild) := by
  induction calls generalizing s with
  | nil => rfl
  | cons call calls ih =>
    show ((s.serve call).serveAll calls).requests = _
    rw [ih, requests_serve, List.countP_cons]
    omega

private theorem misses_le_build (s : ProgramStock) (key : Key) :
    s.programs.misses ≤ (s.build key).1.programs.misses := by
  obtain ⟨-, -, hmisses⟩ := s.programs.refresh_current s.device
  obtain ⟨refreshed, device, hrefresh, ⟨q, -, hbuild⟩ | ⟨after, q, -, -, hbuild⟩⟩ :=
    s.build_cases key
  all_goals
    rw [hrefresh] at hmisses
    rw [hbuild]
    simp only [Programs.add] at hmisses ⊢
    omega

private theorem misses_le_serve (s : ProgramStock) (call : ProgramCall) :
    s.programs.misses ≤ (s.serve call).programs.misses := by
  cases call with
  | build key => exact s.misses_le_build key
  | clear =>
    rw [serve, Programs.clear_eq]
  | _ => exact le_rfl

end Accounts

section Instances

def Caches (s : ProgramStock) (key : Key) (q : Program) : Prop :=
  s.programs.obsolete = false ∧ s.programs.find? key = some q

private theorem caches_build (s : ProgramStock) (key : Key) :
    (s.build key).1.Caches key (s.build key).2 := by
  obtain ⟨hcurrent, -⟩ := s.programs.refresh_current s.device
  obtain ⟨refreshed, device, hrefresh, ⟨q, hfound, hbuild⟩ | ⟨after, q, hnone, hmade, hbuild⟩⟩ :=
    s.build_cases key
  all_goals
    rw [hrefresh] at hcurrent
    rw [hbuild]
    refine ⟨hcurrent, ?_⟩
  · exact hfound
  · rw [Programs.find?] at hnone
    rw [Programs.find?, Programs.add, List.find?_append, hnone, Option.none_or]
    simp [hmade.fields.1]

private theorem Caches.build (h : s.Caches key q) : (s.build key).2 = q := by
  obtain ⟨refreshed, device, hrefresh, ⟨r, hfound, hbuild⟩ | ⟨_, _, hnone, -, -⟩⟩ :=
    s.build_cases key
  all_goals
    rw [Programs.refresh_of_current h.1] at hrefresh
    cases hrefresh
  · rw [hbuild]
    exact Option.some.inj (hfound.symm.trans h.2)
  · rw [h.2] at hnone
    cases hnone

private theorem Caches.build_other (h : s.Caches key q) (other : Key) :
    (s.build other).1.Caches key q := by
  obtain ⟨refreshed, device, hrefresh, ⟨_, -, hbuild⟩ | ⟨_, _, -, -, hbuild⟩⟩ :=
    s.build_cases other
  all_goals
    rw [Programs.refresh_of_current h.1] at hrefresh
    cases hrefresh
    rw [hbuild]
  · exact h
  · refine ⟨h.1, ?_⟩
    have hfound := h.2
    rw [Programs.find?] at hfound
    rw [Programs.find?, Programs.add, List.find?_append, hfound]
    rfl

private theorem Caches.serve (h : s.Caches key q) {call : ProgramCall} (hkept : ¬ s.Drops call) :
    (s.serve call).Caches key q := by
  cases call with
  | build other => exact h.build_other other
  | refuse programs passThroughs => exact h
  | markObsolete => exact absurd trivial hkept
  | clear => exact absurd trivial hkept
  | setCapabilities capabilities =>
    have hincludes : capabilities.includes s.programs.capabilities = true := by
      simpa [Drops] using hkept
    refine ⟨?_, h.2⟩
    show (s.programs.obsolete || !capabilities.includes s.programs.capabilities) = false
    rw [h.1, hincludes]
    rfl

private theorem Caches.serveAll (h : s.Caches key q) {calls : List ProgramCall}
    (hkept : s.KeepsThrough calls) : (s.serveAll calls).Caches key q := by
  induction calls generalizing s with
  | nil => exact h
  | cons call calls ih => exact ih (h.serve hkept.1) hkept.2

/-- Only programs from a position on will be given out. -/
private def From (s : ProgramStock) (n : Nat) : Prop :=
  (s.programs.obsolete = false → ∀ q ∈ s.programs.table, n ≤ q.serial) ∧ n ≤ s.programs.misses

private theorem From.refresh (h : s.From n) {refreshed : Programs} {device : Device}
    (hrefresh : s.programs.refresh s.device = (refreshed, device)) :
    (∀ q ∈ refreshed.table, n ≤ q.serial) ∧ n ≤ refreshed.misses := by
  rw [Programs.refresh] at hrefresh
  split at hrefresh
  · rw [Programs.clear_eq] at hrefresh
    cases hrefresh
    exact ⟨List.forall_mem_nil _, h.2⟩
  · next hcurrent =>
    cases hrefresh
    exact ⟨h.1 (by simpa using hcurrent), h.2⟩

private theorem From.build (h : s.From n) (key : Key) :
    (s.build key).1.From n ∧ n ≤ (s.build key).2.serial := by
  obtain ⟨refreshed, device, hrefresh, ⟨q, hfound, hbuild⟩ | ⟨after, q, -, hmade, hbuild⟩⟩ :=
    s.build_cases key
  all_goals
    obtain ⟨htable, hmisses⟩ := h.refresh hrefresh
    rw [hbuild]
  · exact ⟨⟨fun _ => htable, hmisses⟩, htable q (Programs.find?_eq_some hfound).1⟩
  · have hnew : n ≤ q.serial := by
      rw [hmade.fields.2.2]
      exact hmisses
    exact ⟨⟨fun _ => Programs.forall_mem_add htable hnew, hmisses.trans (Nat.le_succ _)⟩, hnew⟩

private theorem From.serve (h : s.From n) (call : ProgramCall) : (s.serve call).From n := by
  cases call with
  | build key => exact (h.build key).1
  | refuse programs passThroughs => exact h
  | markObsolete => exact ⟨nofun, h.2⟩
  | clear =>
    rw [ProgramStock.serve, Programs.clear_eq]
    exact ⟨fun _ => nofun, h.2⟩
  | setCapabilities capabilities =>
    exact ⟨fun hcurrent => h.1 (Bool.or_eq_false_iff.mp hcurrent).1, h.2⟩

private theorem from_of_drops {call : ProgramCall} (h : s.Drops call) (hn : n ≤ s.programs.misses) :
    (s.serve call).From n := by
  cases call with
  | build key => exact absurd h id
  | refuse programs passThroughs => exact absurd h id
  | markObsolete => exact ⟨nofun, hn⟩
  | clear =>
    rw [ProgramStock.serve, Programs.clear_eq]
    exact ⟨fun _ => nofun, hn⟩
  | setCapabilities capabilities =>
    refine ⟨fun hcurrent => ?_, hn⟩
    have hkept := (Bool.or_eq_false_iff.mp hcurrent).2
    rw [show capabilities.includes s.programs.capabilities = false from h] at hkept
    cases hkept

private theorem From.serveAll (h : s.From n) (calls : List ProgramCall) :
    (s.serveAll calls).From n := by
  induction calls generalizing s with
  | nil => exact h
  | cons call calls ih => exact ih (h.serve call)

private theorem from_of_not_keepsThrough {calls : List ProgramCall} (h : ¬ s.KeepsThrough calls)
    (hn : n ≤ s.programs.misses) : (s.serveAll calls).From n := by
  induction calls generalizing s with
  | nil => exact absurd trivial h
  | cons call calls ih =>
    by_cases hdrops : s.Drops call
    · exact (from_of_drops hdrops hn).serveAll calls
    · exact ih (fun hkept => h ⟨hdrops, hkept⟩) (hn.trans (s.misses_le_serve call))

/-- A program is given out again exactly if nothing dropped it, and known by its position. -/
theorem build_again (h : s.Accounted) (key : Key) (between : List ProgramCall) :
    let first := s.build key
    let second := (first.1.serveAll between).build key
    (second.2 = first.2 ↔ first.1.KeepsThrough between) ∧
      (second.2.serial = first.2.serial → second.2 = first.2) := by
  intro first second
  have hcaches : first.1.Caches key first.2 := s.caches_build key
  have hkeeps (hkept : first.1.KeepsThrough between) : second.2 = first.2 :=
    (hcaches.serveAll hkept).build
  have hserial : first.2.serial < first.1.programs.misses :=
    (h.build key).counted _ (Programs.find?_eq_some hcaches.2).1
  have hdrops (hdropped : ¬ first.1.KeepsThrough between) : second.2.serial ≠ first.2.serial := by
    have hlater : first.1.programs.misses ≤ second.2.serial :=
      ((from_of_not_keepsThrough hdropped le_rfl).build key).2
    omega
  refine ⟨⟨fun hsame => ?_, hkeeps⟩, fun hsame => hkeeps ?_⟩
  · by_contra hdropped
    exact hdrops hdropped (congrArg Program.serial hsame)
  · by_contra hdropped
    exact hdrops hdropped hsame

end Instances

private theorem labels_nodup (h : s.Accounted) : (s.device.programs.map (·.2)).Nodup := by
  rw [h.live, List.map_filterMap]
  refine List.pairwise_filterMap.mpr (h.keys.imp ?_)
  intro q r hkeys text htext other hother hsame
  obtain ⟨_, hq, rfl⟩ := Option.map_eq_some_iff.mp htext
  obtain ⟨_, hr, rfl⟩ := Option.map_eq_some_iff.mp hother
  obtain ⟨_, -, rfl⟩ := Option.map_eq_some_iff.mp hq
  obtain ⟨_, -, rfl⟩ := Option.map_eq_some_iff.mp hr
  exact hkeys (Programs.key_eq_of_deviceLabel hsame)

private theorem handles_eq (h : s.Accounted) :
    s.device.programs.map (·.1) = s.programs.table.filterMap (·.handle) := by
  rw [h.live, List.map_filterMap]
  refine List.filterMap_congr fun q _ => ?_
  cases hhandle : q.handle <;> simp [Programs.owned, hhandle]

private theorem handles_nodup (h : s.Accounted) : (s.device.programs.map (·.1)).Nodup := by
  refine List.pairwise_map.mpr (h.ascending.imp fun hlt hsame => ?_)
  rw [hsame] at hlt
  exact lt_irrefl _ hlt

private theorem find?_key (h : s.Accounted) (hq : q ∈ s.programs.table) :
    s.programs.find? q.key = some q := by
  obtain ⟨before, after, hsplit⟩ := List.append_of_mem hq
  rw [Programs.find?, List.find?_eq_some_iff_append]
  refine ⟨by simp, before, after, hsplit, fun r hr => ?_⟩
  have hkeys := h.keys
  rw [hsplit] at hkeys
  simpa using (List.pairwise_append.mp hkeys).2.2 r hr q List.mem_cons_self

/-- Over every history of requests, lost features, clearing and refused compilations, a device holds
exactly what the table refers to, each program once and under a label of its own. Every key has one
program of the current generation. It is given out until something drops it, and never again. Every
request is counted once. -/
theorem serveAll_accountsForPrograms (accuracy : Accuracy) (capabilities : Capabilities)
    (device : DeviceSpec) (calls : List ProgramCall) :
    let s := (ofSpec accuracy capabilities device).serveAll calls
    (s.device.programs.map (·.1) = s.programs.table.filterMap (·.handle) ∧
      (s.device.programs.map (·.1)).Nodup ∧ (s.device.programs.map (·.2)).Nodup) ∧
    (∀ q ∈ s.programs.table,
      s.programs.find? q.key = some q ∧ q.generation = s.programs.generation) ∧
    s.programs.hits + s.programs.misses = calls.countP (·.isBuild) ∧
    ∀ key between,
      let first := s.build key
      let second := (first.1.serveAll between).build key
      (second.2 = first.2 ↔ first.1.KeepsThrough between) ∧
        (second.2.serial = first.2.serial → second.2 = first.2) := by
  intro s
  have hstart : (ofSpec accuracy capabilities device).Accounted := Programs.Accounted.of_nil rfl rfl
  have hs : s.Accounted := hstart.serveAll calls
  refine ⟨⟨handles_eq hs, handles_nodup hs, labels_nodup hs⟩,
    fun q hq => ⟨find?_key hs hq, hs.generation q hq⟩, ?_, build_again hs⟩
  have hrequests := requests_serveAll (ofSpec accuracy capabilities device) calls
  rwa [show (ofSpec accuracy capabilities device).requests = 0 from rfl, Nat.zero_add] at hrequests

end ProgramStock

end Combiner

end DisplayPipeline
