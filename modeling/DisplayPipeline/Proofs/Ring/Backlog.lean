import DisplayPipeline.Ring.Pool
import Mathlib.Data.List.Range

/-!
# The queue that a pool is to its clients

A pool as its producer and its consumer see it: claims wait in the order of allocation until the
consumer takes the oldest one, which it may do once that one is submitted. There are no offsets here
and no arena; all that is left of them is that a request may find no room while something is held.
-/

namespace DisplayPipeline

/-- A claim as its clients see it. -/
structure Parcel where
  ticket : Nat
  /-- What was last written to each byte, if anything was. -/
  contents : List (Option UInt8)
  /-- Whether it is submitted. -/
  ready : Bool

def Parcel.put (x : Parcel) (bytes : List UInt8) : Parcel :=
  { x with contents := bytes.map some ++ x.contents.drop bytes.length }

def Parcel.submit (x : Parcel) : Parcel := { x with ready := true }

/-- What a client does next. A claim is named by its ticket, its place among all allocations. -/
inductive Turn where
  | allocate (bytes : Nat)
  | write (ticket : Nat) (bytes : List UInt8)
  | submit (ticket : Nat)
  | commit (ticket : Nat) (bytes : List UInt8)
  | push (bytes : List UInt8)
  /-- The producer gives a claim back without submitting it. -/
  | abandon (ticket : Nat)
  | close
  | next
  | read (ticket : Nat)
  /-- The consumer gives a claim back. -/
  | release (ticket : Nat)

/-- The claim that must be in the hands of the producer. -/
def Turn.filling? : Turn → Option Nat
  | write ticket _ | submit ticket | commit ticket _ | abandon ticket => some ticket
  | _ => none

def Turn.taken? : Turn → Option Nat
  | read ticket | release ticket => some ticket
  | _ => none

inductive Reply where
  | claimed (ticket : Nat)
  | done
  | refused (e : PoolError)
  | delivered (ticket : Nat)
  /-- There is nothing to deliver yet. -/
  | nothing
  | bytes (bytes : List UInt8)
  /-- The client does not hold the claim, so the pool is not asked. -/
  | notHeld

/-- The claims that are held, without those that were given back. -/
structure Backlog where
  capacity : Nat
  patience : Nat
  /-- Not taken by the consumer yet, in the order of allocation. -/
  waiting : List Parcel := []
  /-- Taken by the consumer, in the order of delivery. -/
  delivered : List Parcel := []
  issued : Nat := 0
  isClosed : Bool := false

namespace Backlog

/-- The bytes that a request takes up: whole words, and at least one. -/
def reserve (bytes : Nat) : Nat := (max bytes 1 + 3) / 4 * 4

def enqueue (b : Backlog) (contents : List (Option UInt8)) (ready : Bool) : Backlog :=
  { b with waiting := b.waiting ++ [⟨b.issued, contents, ready⟩], issued := b.issued + 1 }

def withWaiting (b : Backlog) (waiting : List Parcel) : Backlog := { b with waiting }

def withDelivered (b : Backlog) (delivered : List Parcel) : Backlog := { b with delivered }

/-- Why a request for bytes is turned down. It never waits in vain while nothing is held. -/
inductive Refuses (b : Backlog) (bytes : Nat) : PoolError → Prop where
  | tooLarge : b.capacity < reserve bytes → Refuses b bytes (.tooLarge bytes b.capacity)
  | closed : reserve bytes ≤ b.capacity → b.isClosed = true → Refuses b bytes .closed
  | timeout : reserve bytes ≤ b.capacity → b.isClosed = false →
      b.waiting ≠ [] ∨ b.delivered ≠ [] → Refuses b bytes (.timeout b.patience)

/-- What a turn may be answered, and what is held then. -/
inductive Step (b : Backlog) : Turn → Reply → Backlog → Prop where
  | allocate {bytes : Nat} : reserve bytes ≤ b.capacity → b.isClosed = false →
      Step b (.allocate bytes) (.claimed b.issued) (b.enqueue (.replicate bytes none) false)
  | allocateRefused {bytes : Nat} {e : PoolError} : b.Refuses bytes e →
      Step b (.allocate bytes) (.refused e) b
  | write {xs ys : List Parcel} {x : Parcel} {bytes : List UInt8} :
      b.waiting = xs ++ x :: ys → x.ready = false → bytes.length ≤ x.contents.length →
      Step b (.write x.ticket bytes) .done (b.withWaiting (xs ++ x.put bytes :: ys))
  | writeRefused {xs ys : List Parcel} {x : Parcel} {bytes : List UInt8} :
      b.waiting = xs ++ x :: ys → x.ready = false → x.contents.length < bytes.length →
      Step b (.write x.ticket bytes) (.refused (.overflow bytes.length x.contents.length)) b
  | submit {xs ys : List Parcel} {x : Parcel} : b.waiting = xs ++ x :: ys → x.ready = false →
      Step b (.submit x.ticket) .done (b.withWaiting (xs ++ x.submit :: ys))
  | commit {xs ys : List Parcel} {x : Parcel} {bytes : List UInt8} :
      b.waiting = xs ++ x :: ys → x.ready = false → bytes.length ≤ x.contents.length →
      Step b (.commit x.ticket bytes) .done
        (b.withWaiting (xs ++ (x.put bytes).submit :: ys))
  | commitRefused {xs ys : List Parcel} {x : Parcel} {bytes : List UInt8} :
      b.waiting = xs ++ x :: ys → x.ready = false → x.contents.length < bytes.length →
      Step b (.commit x.ticket bytes) (.refused (.overflow bytes.length x.contents.length))
        (b.withWaiting (xs ++ ys))
  | push {bytes : List UInt8} : reserve bytes.length ≤ b.capacity → b.isClosed = false →
      Step b (.push bytes) .done (b.enqueue (bytes.map some) true)
  | pushRefused {bytes : List UInt8} {e : PoolError} : b.Refuses bytes.length e →
      Step b (.push bytes) (.refused e) b
  | abandon {xs ys : List Parcel} {x : Parcel} : b.waiting = xs ++ x :: ys → x.ready = false →
      Step b (.abandon x.ticket) .done (b.withWaiting (xs ++ ys))
  | close : Step b .close .done { b with isClosed := true }
  | next {x : Parcel} {rest : List Parcel} : b.waiting = x :: rest → x.ready = true →
      Step b .next (.delivered x.ticket)
        ((b.withWaiting rest).withDelivered (b.delivered ++ [x]))
  /-- An older claim that is not submitted holds back all that follow it. -/
  | nothing : (∀ x, b.waiting.head? = some x → x.ready = false) → Step b .next .nothing b
  | read {x : Parcel} {bytes : List UInt8} : x ∈ b.delivered →
      bytes.length = x.contents.length →
      (∀ (i : Nat) (byte : UInt8), x.contents[i]? = some (some byte) → bytes[i]? = some byte) →
      Step b (.read x.ticket) (.bytes bytes) b
  | release {xs ys : List Parcel} {x : Parcel} : b.delivered = xs ++ x :: ys →
      Step b (.release x.ticket) .done (b.withDelivered (xs ++ ys))
  | fillsNone {turn : Turn} {ticket : Nat} : turn.filling? = some ticket →
      (∀ x ∈ b.waiting, x.ticket = ticket → x.ready = true) → Step b turn .notHeld b
  | tookNone {turn : Turn} {ticket : Nat} : turn.taken? = some ticket →
      (∀ x ∈ b.delivered, x.ticket ≠ ticket) → Step b turn .notHeld b

theorem Step.capacity {b c : Backlog} {turn : Turn} {reply : Reply} (h : b.Step turn reply c) :
    c.capacity = b.capacity := by
  cases h <;> rfl

section Inversion

variable {b c : Backlog} {reply : Reply} {ticket : Nat} {bytes : List UInt8}

theorem Step.next_cases (h : b.Step .next reply c) :
    (∃ x rest, b.waiting = x :: rest ∧ x.ready = true ∧ reply = .delivered x.ticket ∧
      c = (b.withWaiting rest).withDelivered (b.delivered ++ [x])) ∨
    ((∀ x, b.waiting.head? = some x → x.ready = false) ∧ reply = .nothing ∧ c = b) := by
  cases h with
  | next hwaiting hready => exact Or.inl ⟨_, _, hwaiting, hready, rfl, rfl⟩
  | nothing hnone => exact Or.inr ⟨hnone, rfl, rfl⟩
  | fillsNone hfilling => cases hfilling
  | tookNone htaken => cases htaken

theorem Step.write_cases (h : b.Step (.write ticket bytes) reply c) :
    (∃ xs x ys, b.waiting = xs ++ x :: ys ∧ x.ready = false ∧ x.ticket = ticket ∧
      ((bytes.length ≤ x.contents.length ∧ reply = .done ∧
        c = b.withWaiting (xs ++ x.put bytes :: ys)) ∨
      (x.contents.length < bytes.length ∧ c = b))) ∨
    ((∀ x ∈ b.waiting, x.ticket = ticket → x.ready = true) ∧ reply = .notHeld) := by
  cases h with
  | write hwaiting hready hlength =>
    exact Or.inl ⟨_, _, _, hwaiting, hready, rfl, Or.inl ⟨hlength, rfl, rfl⟩⟩
  | writeRefused hwaiting hready hlength =>
    exact Or.inl ⟨_, _, _, hwaiting, hready, rfl, Or.inr ⟨hlength, rfl⟩⟩
  | fillsNone hfilling hall =>
    cases hfilling
    exact Or.inr ⟨hall, rfl⟩
  | tookNone htaken => cases htaken

theorem Step.submit_cases (h : b.Step (.submit ticket) reply c) :
    (∃ xs x ys, b.waiting = xs ++ x :: ys ∧ x.ready = false ∧ x.ticket = ticket ∧ reply = .done ∧
      c = b.withWaiting (xs ++ x.submit :: ys)) ∨
    ((∀ x ∈ b.waiting, x.ticket = ticket → x.ready = true) ∧ reply = .notHeld) := by
  cases h with
  | submit hwaiting hready => exact Or.inl ⟨_, _, _, hwaiting, hready, rfl, rfl, rfl⟩
  | fillsNone hfilling hall =>
    cases hfilling
    exact Or.inr ⟨hall, rfl⟩
  | tookNone htaken => cases htaken

theorem Step.push_cases (h : b.Step (.push bytes) reply c) :
    (reply = .done ∧ c = b.enqueue (bytes.map some) true) ∨ ((∃ e, reply = .refused e) ∧ c = b) := by
  cases h with
  | push => exact Or.inl ⟨rfl, rfl⟩
  | pushRefused => exact Or.inr ⟨⟨_, rfl⟩, rfl⟩
  | fillsNone hfilling => cases hfilling
  | tookNone htaken => cases htaken

theorem Step.close_cases (h : b.Step .close reply c) : c = { b with isClosed := true } := by
  cases h with
  | close => rfl
  | fillsNone hfilling => cases hfilling
  | tookNone htaken => cases htaken

theorem Step.read_cases (h : b.Step (.read ticket) reply c) :
    (∃ x told, x ∈ b.delivered ∧ x.ticket = ticket ∧ reply = .bytes told ∧
      told.length = x.contents.length ∧
      (∀ (i : Nat) (byte : UInt8), x.contents[i]? = some (some byte) → told[i]? = some byte) ∧
      c = b) ∨
    ((∀ x ∈ b.delivered, x.ticket ≠ ticket) ∧ reply = .notHeld) := by
  cases h with
  | read hmem hlength hbytes => exact Or.inl ⟨_, _, hmem, rfl, rfl, hlength, hbytes, rfl⟩
  | fillsNone hfilling => cases hfilling
  | tookNone htaken hall =>
    cases htaken
    exact Or.inr ⟨hall, rfl⟩

theorem Step.release_cases (h : b.Step (.release ticket) reply c) :
    (∃ xs x ys, b.delivered = xs ++ x :: ys ∧ x.ticket = ticket ∧ reply = .done ∧
      c = b.withDelivered (xs ++ ys)) ∨
    ((∀ x ∈ b.delivered, x.ticket ≠ ticket) ∧ reply = .notHeld) := by
  cases h with
  | release hdelivered => exact Or.inl ⟨_, _, _, hdelivered, rfl, rfl, rfl⟩
  | fillsNone hfilling => cases hfilling
  | tookNone htaken hall =>
    cases htaken
    exact Or.inr ⟨hall, rfl⟩

end Inversion

/-- What turns may be answered, one after the other. -/
inductive Run (b : Backlog) : List (Turn × Reply) → Backlog → Prop where
  | start : Run b [] b
  | turn {log : List (Turn × Reply)} {c d : Backlog} {turn : Turn} {reply : Reply} :
      Run b log c → Step c turn reply d → Run b (log ++ [(turn, reply)]) d

theorem Run.capacity {b c : Backlog} {log : List (Turn × Reply)} (h : b.Run log c) :
    c.capacity = b.capacity := by
  induction h with
  | start => rfl
  | turn _ hstep ih => exact hstep.capacity.trans ih

end Backlog

/-- The tickets of the claims that were delivered. -/
def deliveries (log : List (Turn × Reply)) : List Nat :=
  log.filterMap fun
    | (_, .delivered ticket) => some ticket
    | _ => none

/-- The tickets of the claims that were given back without being submitted. -/
def abandoned (log : List (Turn × Reply)) : List Nat :=
  log.filterMap fun
    | (.abandon ticket, .done) | (.commit ticket _, .refused _) => some ticket
    | _ => none

namespace Backlog

theorem filter_key_ne {α : Type} (key : α → Nat) {xs ys : List α} {x : α}
    (h : ((xs ++ x :: ys).map key).Nodup) :
    (xs ++ x :: ys).filter (fun y => key y ≠ key x) = xs ++ ys := by
  rw [List.map_append, List.map_cons, List.nodup_append] at h
  obtain ⟨_, hright, hapart⟩ := h
  have hxs : xs.filter (fun y => key y ≠ key x) = xs :=
    List.filter_eq_self.mpr fun y hy =>
      decide_eq_true (hapart _ (List.mem_map_of_mem hy) _ List.mem_cons_self)
  have hys : ys.filter (fun y => key y ≠ key x) = ys :=
    List.filter_eq_self.mpr fun y hy => decide_eq_true fun heq =>
      (List.nodup_cons.mp hright).1 (heq ▸ List.mem_map_of_mem hy)
  rw [List.filter_append, hxs, List.filter_cons_of_neg (by simp), hys]

/-- What a log tells about the tickets: those delivered, followed by those that wait, are all that
were issued, in that order, but for the abandoned ones. -/
structure Accounts (b : Backlog) (log : List (Turn × Reply)) : Prop where
  tickets : deliveries log ++ b.waiting.map (·.ticket) =
    (List.range b.issued).filter (· ∉ abandoned log)
  known : ∀ ticket ∈ abandoned log, ticket < b.issued

variable {b c : Backlog} {log : List (Turn × Reply)} {turn : Turn} {reply : Reply}

private theorem deliveries_append (log : List (Turn × Reply)) (entry : Turn × Reply) :
    deliveries (log ++ [entry]) = deliveries log ++ deliveries [entry] :=
  List.filterMap_append

private theorem abandoned_append (log : List (Turn × Reply)) (entry : Turn × Reply) :
    abandoned (log ++ [entry]) = abandoned log ++ abandoned [entry] :=
  List.filterMap_append

private theorem accounts_keep (h : b.Accounts log) (hdeliveries : deliveries [(turn, reply)] = [])
    (habandoned : abandoned [(turn, reply)] = [])
    (hwaiting : c.waiting.map (·.ticket) = b.waiting.map (·.ticket))
    (hissued : c.issued = b.issued) : c.Accounts (log ++ [(turn, reply)]) := by
  constructor
  · rw [deliveries_append, abandoned_append, hdeliveries, habandoned, List.append_nil,
      List.append_nil, hwaiting, hissued]
    exact h.tickets
  · rw [abandoned_append, habandoned, List.append_nil, hissued]
    exact h.known

private theorem accounts_enqueue (h : b.Accounts log)
    (hdeliveries : deliveries [(turn, reply)] = [])
    (habandoned : abandoned [(turn, reply)] = []) (contents : List (Option UInt8)) (ready : Bool) :
    (b.enqueue contents ready).Accounts (log ++ [(turn, reply)]) := by
  constructor
  · rw [deliveries_append, abandoned_append, hdeliveries, habandoned, List.append_nil,
      List.append_nil]
    simp only [enqueue, List.map_append, List.map_cons, List.map_nil]
    rw [← List.append_assoc, h.tickets, List.range_succ, List.filter_append]
    -- The ticket is new, so that it has not been given back.
    have hnew : b.issued ∉ abandoned log := fun hmem => Nat.lt_irrefl _ (h.known _ hmem)
    simp [hnew]
  · rw [abandoned_append, habandoned, List.append_nil]
    exact fun ticket hticket => Nat.lt_succ_of_lt (h.known ticket hticket)

private theorem accounts_abandon {xs ys : List Parcel} {x : Parcel} (h : b.Accounts log)
    (hwaiting : b.waiting = xs ++ x :: ys) (hdeliveries : deliveries [(turn, reply)] = [])
    (habandoned : abandoned [(turn, reply)] = [x.ticket]) :
    (b.withWaiting (xs ++ ys)).Accounts (log ++ [(turn, reply)]) := by
  have htickets := h.tickets
  simp only [hwaiting, List.map_append, List.map_cons] at htickets
  have hmem : x.ticket ∈ (List.range b.issued).filter (· ∉ abandoned log) := by
    rw [← htickets]
    simp
  have hnodup : ((List.range b.issued).filter (· ∉ abandoned log)).Nodup :=
    List.nodup_range.filter _
  constructor
  · rw [deliveries_append, abandoned_append, hdeliveries, habandoned, List.append_nil]
    simp only [withWaiting, List.map_append]
    have hsplit : (List.range b.issued).filter (· ∉ abandoned log ++ [x.ticket]) =
        ((List.range b.issued).filter (· ∉ abandoned log)).filter (· ≠ x.ticket) := by
      rw [List.filter_filter]
      refine List.filter_congr fun ticket _ => ?_
      simp only [List.mem_append, List.mem_singleton, not_or, Bool.decide_and, Bool.and_comm]
    rw [← htickets, ← List.append_assoc] at hnodup
    rw [hsplit, ← htickets, ← List.append_assoc, ← List.append_assoc]
    exact (filter_key_ne id (by rwa [List.map_id])).symm
  · rw [abandoned_append, habandoned]
    intro ticket hticket
    rcases List.mem_append.mp hticket with hold | hnew
    · exact h.known ticket hold
    · obtain rfl := List.mem_singleton.mp hnew
      exact List.mem_range.mp (List.mem_filter.mp hmem).1

private theorem accounts_step (h : b.Accounts log) (hstep : b.Step turn reply c) :
    c.Accounts (log ++ [(turn, reply)]) := by
  cases hstep with
  | allocate => exact accounts_enqueue h rfl rfl _ _
  | push => exact accounts_enqueue h rfl rfl _ _
  | write hwaiting | submit hwaiting | commit hwaiting =>
    exact accounts_keep h rfl rfl (by simp [hwaiting, withWaiting, Parcel.put, Parcel.submit]) rfl
  | commitRefused hwaiting | abandon hwaiting => exact accounts_abandon h hwaiting rfl rfl
  | @next x _ hwaiting =>
    have hdeliveries : deliveries [(.next, .delivered x.ticket)] = [x.ticket] := rfl
    have habandoned : abandoned [(.next, .delivered x.ticket)] = [] := rfl
    have htickets := h.tickets
    rw [hwaiting, List.map_cons] at htickets
    constructor
    · rw [deliveries_append, abandoned_append, hdeliveries, habandoned, List.append_nil,
        List.append_assoc]
      exact htickets
    · rw [abandoned_append, habandoned, List.append_nil]
      exact h.known
  | fillsNone hfilling | tookNone hfilling =>
    refine accounts_keep h rfl ?_ rfl rfl
    cases turn <;> rfl
  | _ => exact accounts_keep h rfl rfl rfl rfl

theorem accounts_run {capacity patience : Nat}
    (h : Run ⟨capacity, patience, [], [], 0, false⟩ log b) :
    b.Accounts log := by
  induction h with
  | start => exact ⟨rfl, by simp [abandoned]⟩
  | turn _ hstep ih => exact accounts_step ih hstep

end Backlog

end DisplayPipeline
