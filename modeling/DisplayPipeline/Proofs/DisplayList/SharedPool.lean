import DisplayPipeline.Proofs.DisplayList.Hosting
import DisplayPipeline.Proofs.Ring.Invariant
import DisplayPipeline.Proofs.Ring.Later
import DisplayPipeline.Settings.Basic

/-!
# Commands that fit into a shared pool

Writing a command to a pool takes several steps, and others may call the pool between them. Whatever
display lists hold and however refusals fall, every command that is submitted can be read back and
fits into a pool that the settings pass as large enough.
-/

namespace DisplayPipeline

/-- Others who call a pool while one client uses it. -/
structure Company (τ : Type) where
  act : Pool → τ → Pool × τ
  /-- All they do to the pool is to call it. -/
  calls : ∀ p s, ∃ calls : List PoolCall, (act p s).1 = p.serveAll calls

def Company.nobody : Company Unit where
  act p _ := (p, ())
  calls _ _ := ⟨[], rfl⟩

structure Shared (τ : Type) where
  pool : Pool
  company : τ

variable {τ : Type}

namespace Shared

def yield (c : Company τ) (s : Shared τ) : Shared τ :=
  let (pool, company) := c.act s.pool s.company
  ⟨pool, company⟩

private theorem yield_later (c : Company τ) (s : Shared τ) : s.pool.Later (s.yield c).pool := by
  obtain ⟨calls, hcalls⟩ := c.calls s.pool s.company
  have hpool : (s.yield c).pool = s.pool.serveAll calls := hcalls
  rw [hpool]
  exact s.pool.serveAll_later calls

private theorem later_of_yield {c : Company τ} {s after : Shared τ} {q : Pool}
    (h : after = { s with pool := q }.yield c) : q.Later after.pool := by
  rw [h]
  exact yield_later c { s with pool := q }

end Shared

namespace Outlet

/-- Writes commands to a pool, one claim for each. Before every step others may act; where an
allocation waits for room, what they do meanwhile comes before it. -/
def sharing (c : Company τ) : Outlet (Shared τ) where
  submit command s :=
    let s := s.yield c
    match s.pool.allocate command.encode.length with
    | (pool, .error cause) => ({ s with pool }, .error cause)
    | (pool, .ok pointer) =>
      let s := { s with pool }.yield c
      match s.pool.write pointer command.encode with
      | (pool, .error cause) =>
        let s := { s with pool }.yield c
        ({ s with pool := (s.pool.release pointer).1 }, .error cause)
      | (pool, .ok ()) =>
        let s := { s with pool }.yield c
        let (pool, answer) := s.pool.submit pointer
        ({ s with pool }, answer)

/-- With nobody else around the steps come to one push. -/
theorem sharing_nobody (command : Command) (p : Pool) :
    (sharing .nobody).submit command ⟨p, ()⟩ =
      ({ pool := (pool.submit command p).1, company := () }, (pool.submit command p).2) := by
  simp only [sharing, pool, Company.nobody, Shared.yield, Pool.push, Pool.commit]
  cases p.allocate command.encode.length with
  | mk q claimed =>
    cases claimed with
    | error cause => rfl
    | ok pointer =>
      dsimp only
      cases q.write pointer command.encode with
      | mk r written => cases written <;> rfl

/-- What a submission comes to: no claim, a claim that cannot be filled, or a claim that is filled
and submitted. -/
theorem sharing_cases (c : Company τ) (command : Command) (s : Shared τ) :
    (∃ q cause, (s.yield c).pool.allocate command.encode.length = (q, .error cause) ∧
      (sharing c).submit command s = ({ s.yield c with pool := q }, .error cause)) ∨
    (∃ q pointer, (s.yield c).pool.allocate command.encode.length = (q, .ok pointer) ∧
      ∃ claimed, claimed = { s.yield c with pool := q }.yield c ∧
        ((∃ r cause, claimed.pool.write pointer command.encode = (r, .error cause) ∧
          ∃ failed, failed = { claimed with pool := r }.yield c ∧
            (sharing c).submit command s =
              ({ failed with pool := (failed.pool.release pointer).1 }, .error cause)) ∨
        (∃ r, claimed.pool.write pointer command.encode = (r, .ok ()) ∧
          ∃ filled, filled = { claimed with pool := r }.yield c ∧
            (sharing c).submit command s =
              ({ filled with pool := (filled.pool.submit pointer).1 },
                (filled.pool.submit pointer).2)))) := by
  unfold sharing
  dsimp only
  cases hallocate : (s.yield c).pool.allocate command.encode.length with
  | mk q answer =>
    cases answer with
    | error cause => exact Or.inl ⟨q, cause, rfl, rfl⟩
    | ok pointer =>
      refine Or.inr ⟨q, pointer, rfl, _, rfl, ?_⟩
      dsimp only
      cases hwrite : ({ s.yield c with pool := q }.yield c).pool.write pointer command.encode with
      | mk r answer =>
        cases answer with
        | error cause => exact Or.inl ⟨r, cause, rfl, _, rfl, rfl⟩
        | ok _ => exact Or.inr ⟨r, rfl, _, rfl, rfl⟩

theorem sharing_later (c : Company τ) (command : Command) (s : Shared τ) :
    s.pool.Later ((sharing c).submit command s).1.pool := by
  have hclaim := (s.yield_later c).trans
    ((s.yield c).pool.allocate_later command.encode.length)
  rcases sharing_cases c command s with ⟨q, cause, hallocate, hsubmit⟩ |
    ⟨q, pointer, hallocate, claimed, hclaimed, hwritten⟩
  · rw [hallocate] at hclaim
    exact hsubmit ▸ hclaim
  · rw [hallocate] at hclaim
    have hwrite := (hclaim.trans (Shared.later_of_yield hclaimed)).trans
      (claimed.pool.write_later pointer command.encode)
    rcases hwritten with ⟨r, cause, hwritten, failed, hfailed, hsubmit⟩ |
      ⟨r, hwritten, filled, hfilled, hsubmit⟩
    · rw [hwritten] at hwrite
      rw [hsubmit]
      exact (hwrite.trans (Shared.later_of_yield hfailed)).trans (Pool.release_later _ _)
    · rw [hwritten] at hwrite
      rw [hsubmit]
      exact (hwrite.trans (Shared.later_of_yield hfilled)).trans (Pool.submit_later _ _)

end Outlet

namespace Pool

private theorem write_not_tooLarge (p : Pool) (pointer : ClaimPointer) (bytes : List UInt8)
    (requested capacity : Nat) :
    (p.write pointer bytes).2 ≠ .error (.tooLarge requested capacity) := by
  rcases p.write_cases pointer bytes with ⟨_, _, _, _, hwrite⟩ | ⟨_, hwrite⟩ | ⟨_, _, hwrite⟩
  · rw [hwrite]
    exact nofun
  · rw [hwrite]
    exact nofun
  · rw [hwrite]
    exact nofun

private theorem submit_not_tooLarge (p : Pool) (pointer : ClaimPointer) (requested capacity : Nat) :
    (p.submit pointer).2 ≠ .error (.tooLarge requested capacity) := by
  unfold submit
  split
  · exact nofun
  · exact nofun

private theorem checkRequest_of_tooLarge {p q : Pool} {bytes requested capacity : Nat}
    (h : p.allocate bytes = (q, .error (.tooLarge requested capacity))) :
    ∀ rounded, p.checkRequest bytes ≠ .ok rounded := by
  intro rounded hok
  rcases p.allocate_cases bytes with ⟨_, _, _, _, _, hallocate⟩ | ⟨_, _, _, _, hallocate⟩ |
    ⟨_, _, _, hallocate⟩ | ⟨herror, _⟩
  · cases hallocate.symm.trans h
  · cases hallocate.symm.trans h
  · cases hallocate.symm.trans h
  · cases herror.symm.trans hok

end Pool

private theorem Outlet.sharing_not_tooLarge (c : Company τ) {command : Command} {s : Shared τ}
    {rounded : Nat} (h : s.pool.checkRequest command.encode.length = .ok rounded)
    (requested capacity : Nat) :
    ((sharing c).submit command s).2 ≠ .error (.tooLarge requested capacity) := by
  rcases sharing_cases c command s with ⟨q, cause, hallocate, hsubmit⟩ |
    ⟨q, pointer, hallocate, claimed, -, ⟨r, cause, hwritten, failed, -, hsubmit⟩ |
      ⟨r, hwritten, filled, -, hsubmit⟩⟩
  · rw [hsubmit]
    rintro ⟨⟩
    refine Pool.checkRequest_of_tooLarge hallocate rounded ?_
    rw [(s.yield_later c).checkRequest, h]
  · rw [hsubmit]
    rintro ⟨⟩
    exact claimed.pool.write_not_tooLarge pointer command.encode _ _ (by rw [hwritten])
  · rw [hsubmit]
    exact filled.pool.submit_not_tooLarge pointer _ _

/-- A pool with room for the largest command has room for every command that can be read. -/
theorem Pool.checkRequest_of_room {p : Pool} (h : Settings.requiredRing ≤ p.capacity) {length : Nat}
    (hlength : length ≤ Command.maxBytes) : ∃ rounded, p.checkRequest length = .ok rounded := by
  have hmax : Command.maxBytes = 8200 := rfl
  have hlimit : wordLimit = 18446744073709551616 := rfl
  have hrequired : Settings.requiredRing = 8200 := rfl
  refine ⟨alignUp (max length 1) alignment, if_neg ?_⟩
  rcases alignUp_cases (max length 1) with ⟨_, hround⟩ | ⟨hbeyond, _⟩
  · omega
  · omega

theorem Settings.requiredRing_le {s : Settings} (h : s.validate = .ok ()) :
    requiredRing ≤ Pool.roundedCapacity s.ringBytes := by
  unfold validate at h
  split at h
  · cases h
  · rename_i hlarge
    exact Nat.le_of_not_lt hlarge

/-- A command can be read back from what is written for it, and a pool has room for that. -/
structure Command.Legal (command : Command) (p : Pool) : Prop where
  short : command.encode.length ≤ maxBytes
  readable : decode command.encode = .ok command
  accepted : ∃ rounded, p.checkRequest command.encode.length = .ok rounded

private theorem Command.WellFormed.legal {command : Command} (h : command.WellFormed) {s : Settings}
    (hs : s.validate = .ok ()) : command.Legal (.ofCapacity s.ringBytes s.ringPatience) :=
  ⟨h.length_le, decode_encode_of_wellFormed h,
    Pool.checkRequest_of_room (Settings.requiredRing_le hs) h.length_le⟩

namespace Hosting

variable {σ : Type}

/-- Every command that is submitted for a host can be read back and fits into a pool of valid
settings, whatever memory holds and whatever the outlet answers. So no call that writes to such a
pool ends with a command that is too large, whatever others do to the pool meanwhile. -/
theorem submissions_legal {s : Settings} (hs : s.validate = .ok ()) (settings : ListSettings)
    (calls : List HostCall) :
    (∀ (σ : Type) (o : Outlet σ) (sink : σ),
      ∀ a ∈ ((start settings ⟨sink, []⟩).serveAll o.traced calls).sink.attempts,
        a.command.Legal (.ofCapacity s.ringBytes s.ringPatience)) ∧
    ∀ (τ : Type) (c : Company τ) (company : τ),
      ∀ reply ∈ ((start settings ⟨.ofCapacity s.ringBytes s.ringPatience, company⟩).serveAll
        (.sharing c) calls).replies,
        ∀ requested capacity,
          reply.fault? ≠ some (.refused (.tooLarge requested capacity)) := by
  let first : Pool := .ofCapacity s.ringBytes s.ringPatience
  obtain ⟨t, ht, hcalls⟩ := start_speaks settings calls
  constructor
  · intro σ o sink
    let S (trace : Traced σ) : Prop := ∀ a ∈ trace.attempts, a.command.Legal first
    have hstart : S ⟨sink, []⟩ := fun _ hnone => absurd hnone List.not_mem_nil
    have hkept := (ht fun _ => True).keeps (o := o.traced) (S := S)
      (fun command trace hcommand htrace =>
        ⟨List.forall_mem_append.mpr ⟨htrace, List.forall_mem_singleton.mpr (hcommand.legal hs)⟩,
          fun _ _ => trivial⟩) hstart
    rw [← hcalls] at hkept
    exact hkept.1
  · intro τ c company
    let S (shared : Shared τ) : Prop := first.Later shared.pool
    have hstart : S ⟨first, company⟩ := .refl first
    have hkept := (ht fun cause => ∀ requested capacity, cause ≠ .tooLarge requested capacity).keeps
      (o := .sharing c) (S := S)
      (fun command shared hcommand hshared => by
        obtain ⟨rounded, haccepted⟩ := (hcommand.legal hs).accepted
        refine ⟨hshared.trans (Outlet.sharing_later c command shared), ?_⟩
        rintro cause hcause requested capacity rfl
        rw [← hshared.checkRequest] at haccepted
        exact Outlet.sharing_not_tooLarge c haccepted _ _ hcause) hstart
    rw [← hcalls] at hkept
    exact fun reply hreply requested capacity hfault =>
      hkept.2 reply hreply _ hfault requested capacity rfl

/-- The first command that a run submits is refused; the smallest pool has room for it. -/
theorem submissions_legal_threeShapes :
    let s : Settings := { ringBytes := 8200 }
    let calls : List HostCall :=
      [.notify 16 4, .run ListProcessor.threeShapesRam 0, .endFrame]
    let attempts := ((start { budget := 4 } ⟨0, []⟩).serveAll
      (Outlet.refusingOnly 0).traced calls).sink.attempts
    s.validate = .ok () ∧
      attempts.map (fun a => (a.command.kind, a.refusal.isSome)) =
        [(.invalidateRange, true), (.fillRects, false), (.endFrame, false)] ∧
      (∀ a ∈ attempts, a.command.Legal (.ofCapacity 8200 s.ringPatience)) ∧
      ∀ reply ∈ ((start { budget := 4 } ⟨.ofCapacity 8200 s.ringPatience, ()⟩).serveAll
        (.sharing .nobody) calls).replies,
        ∀ requested capacity,
          reply.fault? ≠ some (.refused (.tooLarge requested capacity)) := by
  intro s calls attempts
  have hs : s.validate = .ok () := by decide +kernel
  obtain ⟨hlegal, hfaults⟩ := submissions_legal hs { budget := 4 } calls
  exact ⟨hs, by decide +kernel, hlegal Nat (Outlet.refusingOnly 0) 0,
    hfaults Unit .nobody ()⟩

end Hosting

end DisplayPipeline
