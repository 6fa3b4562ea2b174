import DisplayPipeline.Combiner.Programs
import Mathlib.Data.List.Basic
import Mathlib.Data.Nat.Basic
import Mathlib.Order.Basic

namespace DisplayPipeline

namespace Capabilities

variable {a b c : Capabilities}

theorem includes_refl (c : Capabilities) : c.includes c = true := by simp [includes]

theorem includes_trans (hab : a.includes b = true) (hbc : b.includes c = true) :
    a.includes c = true := by
  simp only [includes, beq_iff_eq] at hab hbc ⊢
  rw [← hbc, ← UInt32.and_assoc, hab]

end Capabilities

namespace Device

def SameBesidePrograms (d after : Device) : Prop :=
  after = { d with programs := after.programs, nextProgram := after.nextProgram }

theorem SameBesidePrograms.keeps {α : Type} {d after : Device} (h : d.SameBesidePrograms after)
    (look : Device → α)
    (hlook : ∀ programs next, look { d with programs, nextProgram := next } = look d) :
    look after = look d := by
  rw [h]
  exact hlook _ _

theorem foldl_releaseProgram (d : Device) (handles : List ProgramHandle) :
    handles.foldl releaseProgram d =
      { d with programs := d.programs.filter fun p => p.1 ∉ handles } := by
  induction handles generalizing d with
  | nil => simp
  | cons handle rest ih =>
    rw [List.foldl_cons, ih]
    simp only [releaseProgram, List.filter_filter, List.mem_cons, not_or]
    congr 1
    apply List.filter_congr
    intro p _
    simp [Bool.and_comm]

def adopt (d : Device) (label : String) : Device :=
  { d with
    programs := d.programs ++ [(⟨d.nextProgram⟩, label)]
    nextProgram := d.nextProgram + 1 }

theorem compile_eq {d : Device} {label : String} (h : d.faults.refuses label = false) :
    d.compile label = (d.adopt label, .ok ⟨d.nextProgram⟩) := by
  rw [compile, h]
  rfl

private theorem label?_adopt_of_some {d : Device} {handle : ProgramHandle} {old : String}
    (h : d.label? handle = some old) (label : String) :
    (d.adopt label).label? handle = some old := by
  rw [label?, adopt, List.lookup_append, ← label?, h]
  rfl

private theorem label?_adopt_new {d : Device} (hissued : ∀ e ∈ d.programs, e.1.id < d.nextProgram)
    (label : String) : (d.adopt label).label? ⟨d.nextProgram⟩ = some label := by
  have hnew : d.programs.lookup ⟨d.nextProgram⟩ = none := by
    rw [List.lookup_eq_none_iff]
    intro e he
    rw [bne_iff_ne]
    intro hsame
    have := hissued e he
    rw [← hsame] at this
    exact lt_irrefl _ this
  rw [label?, adopt, List.lookup_append, hnew]
  simp

theorem issued_adopt {d : Device} (hissued : ∀ e ∈ d.programs, e.1.id < d.nextProgram)
    (label : String) : ∀ e ∈ (d.adopt label).programs, e.1.id < (d.adopt label).nextProgram := by
  intro e he
  show e.1.id < d.nextProgram + 1
  rcases List.mem_append.mp he with he | he
  · exact (hissued e he).trans (Nat.lt_succ_self _)
  · rw [List.mem_singleton.mp he]
    exact Nat.lt_succ_self _

end Device

namespace Combiner.Programs

variable {p : Programs} {d : Device}

/-- A program is the main one of its key, and its handle is live under the key's label. -/
structure LiveOn (d : Device) (q : Program) (handle : ProgramHandle) : Prop where
  main : q.fallback = false
  owned : q.handle = some handle
  labelled : d.label? handle = some (label q.key)

/-- A program was made of its key, for features that are all there. -/
def MadeFor (accuracy : Accuracy) (capabilities : Capabilities) (q : Program) : Prop :=
  ∃ used, capabilities.includes used = true ∧
    q.wgsl = Shader.combine q.key.stages q.key accuracy used

/-- What holds of a table on a device that compiles every main program. -/
structure Compiled (p : Programs) (d : Device) : Prop where
  live : ∀ q ∈ p.table, ∃ handle, LiveOn d q handle
  made : p.obsolete = false → ∀ q ∈ p.table, MadeFor p.accuracy p.capabilities q
  issued : ∀ e ∈ d.programs, e.1.id < d.nextProgram

namespace Compiled

theorem of_nil (hp : p.table = []) (hd : d.programs = []) : p.Compiled d where
  live := by
    rw [hp]
    exact List.forall_mem_nil _
  made := by
    rw [hp]
    exact fun _ => List.forall_mem_nil _
  issued := by
    rw [hd]
    exact List.forall_mem_nil _

theorem congr (h : p.Compiled d) {after : Device} (hprograms : after.programs = d.programs)
    (hnext : after.nextProgram = d.nextProgram) : p.Compiled after where
  live q hq := by
    obtain ⟨handle, hmain, howned, hlabelled⟩ := h.live q hq
    exact ⟨handle, hmain, howned, by rwa [Device.label?, hprograms]⟩
  made := h.made
  issued := by
    rw [hprograms, hnext]
    exact h.issued

theorem setCapabilities (h : p.Compiled d) (capabilities : Capabilities) :
    (p.setCapabilities capabilities).Compiled d where
  live := h.live
  made hcurrent q hq := by
    obtain ⟨hold, hkept⟩ := Bool.or_eq_false_iff.mp hcurrent
    have hincludes : capabilities.includes p.capabilities = true := by simpa using hkept
    obtain ⟨used, hused, hwgsl⟩ := h.made hold q hq
    exact ⟨used, Capabilities.includes_trans hincludes hused, hwgsl⟩
  issued := h.issued

private theorem refresh (h : p.Compiled d) :
    (p.refresh d).1.Compiled (p.refresh d).2 ∧ d.SameBesidePrograms (p.refresh d).2 ∧
      (p.refresh d).1.obsolete = false := by
  rw [Programs.refresh]
  cases hobsolete : p.obsolete with
  | false => exact ⟨h, rfl, hobsolete⟩
  | true =>
    simp only [if_true, clear, Device.foldl_releaseProgram]
    exact ⟨⟨nofun, nofun, fun e he => h.issued e (List.mem_of_mem_filter he)⟩, rfl, trivial⟩

private theorem add (h : p.Compiled d) {q : Program} (hmain : q.fallback = false)
    (hhandle : q.handle = some ⟨d.nextProgram⟩) (hmade : MadeFor p.accuracy p.capabilities q)
    {after : Programs} (htable : after.table = p.table ++ [q])
    (haccuracy : after.accuracy = p.accuracy) (hcapabilities : after.capabilities = p.capabilities)
    (hobsolete : after.obsolete = p.obsolete) : after.Compiled (d.adopt (label q.key)) where
  live := by
    rw [htable]
    intro other hother
    rcases List.mem_append.mp hother with hother | hother
    · obtain ⟨handle, hlive⟩ := h.live other hother
      exact ⟨handle, hlive.main, hlive.owned, Device.label?_adopt_of_some hlive.labelled _⟩
    · rw [List.mem_singleton.mp hother]
      exact ⟨_, hmain, hhandle, Device.label?_adopt_new h.issued _⟩
  made hcurrent := by
    rw [htable, haccuracy, hcapabilities]
    intro other hother
    rcases List.mem_append.mp hother with hother | hother
    · exact h.made (hobsolete ▸ hcurrent) other hother
    · rw [List.mem_singleton.mp hother]
      exact hmade
  issued := Device.issued_adopt h.issued _

end Compiled

structure Built (p : Programs) (key : Key) (d : Device) (after : Programs) (device : Device)
    (q : Program) : Prop where
  compiled : after.Compiled device
  device : d.SameBesidePrograms device
  current : after.obsolete = false
  listed : q ∈ after.table
  key : q.key = key

private theorem make_eq (p : Programs) {key : Key}
    (hcompiles : d.faults.refuses (label key) = false) :
    ∃ q, p.make key d = (d.adopt (label key), q, []) ∧ q.key = key ∧ q.fallback = false ∧
      q.handle = some ⟨d.nextProgram⟩ ∧ MadeFor p.accuracy p.capabilities q := by
  rw [make, Device.compile_eq hcompiles]
  dsimp only
  refine ⟨⟨key, some ⟨d.nextProgram⟩, .ofProgram key.isTextured,
    Shader.combine key.stages key p.accuracy p.capabilities, false, p.generation, p.misses⟩,
    rfl, rfl, rfl, rfl, p.capabilities, Capabilities.includes_refl _, ?_⟩
  dsimp only

section Requests

variable {refreshed : Programs} {device made : Device} {key : Key} {q : Program}
  {events : List CompileEvent}

theorem build_of_found (hrefresh : p.refresh d = (refreshed, device))
    (hfound : refreshed.find? key = some q) :
    p.build key d = ({ refreshed with hits := refreshed.hits + 1 }, device, q, []) := by
  rw [Programs.build]
  simp only [hrefresh, hfound]

theorem build_of_make (hrefresh : p.refresh d = (refreshed, device))
    (hnone : refreshed.find? key = none) (hmake : refreshed.make key device = (made, q, events)) :
    p.build key d =
      ({ refreshed with
          table := refreshed.table ++ [q]
          misses := refreshed.misses + 1
          fallbacks := refreshed.fallbacks + if q.fallback then 1 else 0 },
        made, q, events) := by
  rw [Programs.build]
  simp only [hrefresh, hnone, hmake]

theorem Compiled.build (h : p.Compiled d) (hcompiles : d.faults.refuses (label key) = false) :
    ∃ after device q, p.build key d = (after, device, q, []) ∧ p.Built key d after device q := by
  obtain ⟨hrefreshed, hdevice, hcurrent⟩ := h.refresh
  obtain ⟨refreshed, device, hrefresh⟩ : ∃ refreshed device, p.refresh d = (refreshed, device) :=
    ⟨_, _, rfl⟩
  rw [hrefresh] at hrefreshed hdevice hcurrent
  dsimp only at hrefreshed hdevice hcurrent
  cases hfound : refreshed.find? key with
  | some q =>
    have hmatches := List.find?_some hfound
    refine ⟨_, _, q, build_of_found hrefresh hfound, ?_⟩
    exact ⟨⟨hrefreshed.live, hrefreshed.made, hrefreshed.issued⟩, hdevice, hcurrent,
      List.mem_of_find?_eq_some hfound, of_decide_eq_true hmatches⟩
  | none =>
    have hfaults : device.faults = d.faults := hdevice.keeps Device.faults fun _ _ => rfl
    obtain ⟨q, hmake, hkey, hmain, hhandle, hmade⟩ := refreshed.make_eq (hfaults ▸ hcompiles)
    refine ⟨_, _, q, build_of_make hrefresh hfound hmake, ?_, ?_, hcurrent,
      List.mem_append_right _ (.head _), hkey⟩
    · rw [← hkey]
      exact hrefreshed.add hmain hhandle hmade rfl rfl rfl rfl
    · rw [hdevice]
      rfl

end Requests

end Combiner.Programs

end DisplayPipeline
