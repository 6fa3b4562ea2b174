import DisplayPipeline.Text.Duration

/-!
# The ring pool

A circular arena of bytes through which a producer hands claims to a consumer in the order in which
they were allocated. Claims may be released in any order; their space becomes free again once every
older claim is released too. Nothing here waits: a request that does not fit now has timed out.
-/

namespace DisplayPipeline

/-- Why a pool refuses a request. -/
inductive PoolError where
  /-- No claim of this size can ever fit. -/
  | tooLarge (requested capacity : Nat)
  /-- No space became free within the given number of milliseconds. -/
  | timeout (milliseconds : Nat)
  /-- The pointer does not name a claim that is held. -/
  | invalidPointer
  /-- More bytes than the claim has. -/
  | overflow (length size : Nat)
  | closed
deriving DecidableEq, Repr

namespace PoolError

def message : PoolError → String
  | tooLarge requested capacity =>
    s!"allocation of {requested} bytes exceeds pool capacity {capacity}"
  | timeout milliseconds =>
    "timed out after " ++ Text.Duration.ofMilliseconds milliseconds ++ " waiting for pool space"
  | invalidPointer => "pointer does not name a live allocation"
  | overflow length size => s!"write of {length} bytes overflows claim of {size} bytes"
  | closed => "pool is closed"

end PoolError

/-- What has happened to a claim. -/
inductive ClaimState where
  /-- The producer may still write. -/
  | allocated
  /-- Ready for the consumer. -/
  | submitted
  /-- Handed to the consumer. -/
  | consumed
  /-- Given back, but its space may not be free yet. -/
  | released
deriving DecidableEq, Repr

/-- A part of the arena that is spoken for. -/
structure Claim where
  /-- The position among all claims that were ever allocated. -/
  seq : Nat
  offset : Nat
  /-- The bytes asked for. -/
  size : Nat
  /-- The bytes reserved. -/
  rounded : Nat
  state : ClaimState
deriving DecidableEq, Repr

/-- Names a claim. A pointer that no pool handed out is not valid. -/
structure ClaimPointer where
  offset : Nat := 0
  size : Nat := 0
  rounded : Nat := 0
  valid : Bool := false
  seq : Nat := 0
deriving DecidableEq, Repr, Inhabited

namespace ClaimPointer

def ofClaim (c : Claim) : ClaimPointer := ⟨c.offset, c.size, c.rounded, true, c.seq⟩

def text (p : ClaimPointer) : String :=
  "PoolBufferPointer \x7b offset: " ++ toString p.offset ++ ", size: " ++ toString p.size ++
    ", rounded_size: " ++ toString p.rounded ++ ", valid: " ++ toString p.valid ++
    ", seq: " ++ toString p.seq ++ " \x7d"

end ClaimPointer

/-- Counts of what a pool did. -/
structure PoolTally where
  allocations : Nat := 0
  /-- Allocations that did not fit at once. -/
  waits : Nat := 0
  timeouts : Nat := 0
  /-- The most bytes in use at any time. -/
  highWater : Nat := 0
deriving DecidableEq, Repr

/-- The state of a pool. -/
structure Pool where
  capacity : Nat
  /-- How many milliseconds an allocation may take. -/
  patience : Nat
  arena : ByteArray
  /-- The offset of the oldest byte in use. -/
  start : Nat := 0
  /-- The offset after the newest byte in use. -/
  stop : Nat := 0
  /-- Whether the bytes in use run past the end of the arena and on from its start. -/
  wrapped : Bool := false
  /-- The claims that are held, in the order of allocation. -/
  claims : List Claim := []
  /-- How many of the held claims the consumer has passed. -/
  cursor : Nat := 0
  inUse : Nat := 0
  nextSeq : Nat := 0
  isClosed : Bool := false
  tally : PoolTally := {}

namespace Pool

/-- Every claim starts and ends at a multiple of this. -/
def alignment : Nat := 4

def wordLimit : Nat := UInt64.size

/-- The least multiple of `alignment` from `value` on, or the largest one below `wordLimit` if the
sum of both reaches beyond it. -/
def alignUp (value alignment : Nat) : Nat :=
  let reach := value + (alignment - 1)
  if reach < wordLimit then reach / alignment * alignment
  else (wordLimit - 1) / alignment * alignment

/-- The bytes of a pool that is asked to have `bytes` bytes. -/
def roundedCapacity (bytes : Nat) : Nat := bytes / alignment * alignment

def ofCapacity (bytes patience : Nat) : Pool :=
  let capacity := roundedCapacity bytes
  { capacity, patience, arena := ⟨Array.replicate capacity 0⟩ }

/-- The bytes that a request reserves, unless it can never fit. -/
def checkRequest (p : Pool) (bytes : Nat) : Except PoolError Nat :=
  let rounded := alignUp (max bytes 1) alignment
  if rounded > p.capacity then .error (.tooLarge bytes p.capacity) else .ok rounded

/-- Where a claim of `rounded` bytes would start, if it fits now. -/
def fit? (p : Pool) (rounded : Nat) : Option Nat :=
  if p.claims.isEmpty then
    if rounded ≤ p.capacity then some 0 else none
  else if p.wrapped then
    if p.stop + rounded ≤ p.start then some p.stop else none
  else if p.stop + rounded ≤ p.capacity then some p.stop
  else if rounded ≤ p.start then some 0
  else none

def claimAt (p : Pool) (bytes rounded offset : Nat) : Pool × ClaimPointer :=
  let claim : Claim := ⟨p.nextSeq, offset, bytes, rounded, .allocated⟩
  let inUse := p.inUse + rounded
  ({ p with
      start := if p.claims.isEmpty then 0 else p.start
      wrapped := if p.claims.isEmpty then false else p.wrapped || offset == 0
      stop := offset + rounded
      claims := p.claims ++ [claim]
      nextSeq := p.nextSeq + 1
      inUse
      tally :=
        { p.tally with
          allocations := p.tally.allocations + 1
          highWater := max p.tally.highWater inUse } },
    .ofClaim claim)

def allocate (p : Pool) (bytes : Nat) : Pool × Except PoolError ClaimPointer :=
  match p.checkRequest bytes with
  | .error e => (p, .error e)
  | .ok rounded =>
    if p.isClosed then (p, .error .closed)
    else
      match p.fit? rounded with
      | some offset =>
        let (p, pointer) := p.claimAt bytes rounded offset
        (p, .ok pointer)
      | none =>
        ({ p with
            tally :=
              { p.tally with waits := p.tally.waits + 1, timeouts := p.tally.timeouts + 1 } },
          .error (.timeout p.patience))

/-- Where a claim stands in the queue of held claims. -/
def index? (p : Pool) (seq : Nat) : Option Nat :=
  match p.claims with
  | [] => none
  | oldest :: _ =>
    if oldest.seq ≤ seq ∧ seq - oldest.seq < p.claims.length then some (seq - oldest.seq) else none

/-- The claim that a pointer names, with its position, if it is held and not released. -/
def live? (p : Pool) (pointer : ClaimPointer) : Option (Nat × Claim) := do
  guard pointer.valid
  let i ← p.index? pointer.seq
  let claim ← p.claims[i]?
  guard (claim.offset = pointer.offset ∧ claim.size = pointer.size ∧ claim.state ≠ .released)
  return (i, claim)

/-- The claim that a pointer names if the producer may still write to it. -/
def writable? (p : Pool) (pointer : ClaimPointer) : Option (Nat × Claim) :=
  (p.live? pointer).filter fun (_, claim) => claim.state = .allocated

def write (p : Pool) (pointer : ClaimPointer) (bytes : List UInt8) : Pool × Except PoolError Unit :=
  if bytes.length > pointer.size then (p, .error (.overflow bytes.length pointer.size))
  else if (p.writable? pointer).isNone then (p, .error .invalidPointer)
  else
    match p with
    | ⟨capacity, patience, arena, start, stop, wrapped, claims, cursor, inUse, nextSeq, isClosed,
        tally⟩ =>
      (⟨capacity, patience, bytes.toByteArray.copySlice 0 arena pointer.offset bytes.length, start,
        stop, wrapped, claims, cursor, inUse, nextSeq, isClosed, tally⟩, .ok ())

def setState (p : Pool) (i : Nat) (claim : Claim) (state : ClaimState) : Pool :=
  { p with claims := p.claims.set i { claim with state } }

def submit (p : Pool) (pointer : ClaimPointer) : Pool × Except PoolError Unit :=
  match p.writable? pointer with
  | none => (p, .error .invalidPointer)
  | some (i, claim) => (p.setState i claim .submitted, .ok ())

/-- Drops the released claims at the front of the queue. -/
def reclaim (p : Pool) : Pool :=
  let freed := p.claims.takeWhile fun c => c.state = .released
  let held := p.claims.dropWhile fun c => c.state = .released
  let p :=
    { p with
      claims := held
      cursor := p.cursor - freed.length
      inUse := freed.foldl (fun n (c : Claim) => n - c.rounded) p.inUse }
  match held with
  | [] => { p with start := 0, stop := 0, wrapped := false }
  | oldest :: _ =>
    { p with start := oldest.offset, wrapped := p.wrapped && p.start ≤ oldest.offset }

def release (p : Pool) (pointer : ClaimPointer) : Pool × Except PoolError Unit :=
  match p.live? pointer with
  | none => (p, .error .invalidPointer)
  | some (i, claim) => ((p.setState i claim .released).reclaim, .ok ())

/-- Writes to a claim and submits it. Where the bytes do not go in, the claim is given back. -/
def commit (p : Pool) (pointer : ClaimPointer) (bytes : List UInt8) :
    Pool × Except PoolError Unit :=
  match p.write pointer bytes with
  | (p, .error e) => ((p.release pointer).1, .error e)
  | (p, .ok ()) => p.submit pointer

def push (p : Pool) (bytes : List UInt8) : Pool × Except PoolError Unit :=
  match p.allocate bytes.length with
  | (p, .error e) => (p, .error e)
  | (p, .ok pointer) => p.commit pointer bytes

def skipReleased (p : Pool) : Pool :=
  let passed := (p.claims.drop p.cursor).takeWhile fun c => c.state = .released
  { p with cursor := p.cursor + passed.length }

/-- Hands out the oldest claim that the consumer has not passed, if it is submitted. -/
def next (p : Pool) : Pool × Option ClaimPointer :=
  let p := p.skipReleased
  match p.claims[p.cursor]? with
  | none => (p, none)
  | some claim =>
    if claim.state = .submitted then
      ({ p.setState p.cursor claim .consumed with cursor := p.cursor + 1 }, some (.ofClaim claim))
    else (p, none)

/-- What a consumer is told that waits for a claim: that there is none, if the pool is closed and has
none ready. Without an answer the consumer goes on waiting. -/
def answer? (p : Pool) : Option (Option ClaimPointer) :=
  match p.next.2 with
  | some pointer => some (some pointer)
  | none => if p.isClosed then some none else none

def read (p : Pool) (pointer : ClaimPointer) : Except PoolError (List UInt8) :=
  if (p.live? pointer).isNone then .error .invalidPointer
  else .ok (p.arena.extract pointer.offset (pointer.offset + pointer.size)).toList

/-- Takes at most `limit` claims that are ready, one after the other, gives each back, and tells
their bytes. -/
def drain (limit : Nat) (p : Pool) : Pool × List (List UInt8) :=
  match limit with
  | 0 => (p, [])
  | n + 1 =>
    match p.next with
    | (p, none) => (p, [])
    | (p, some pointer) =>
      let bytes := (p.read pointer).toOption.getD []
      let (p, rest) := drain n (p.release pointer).1
      (p, bytes :: rest)

def close (p : Pool) : Pool := { p with isClosed := true }

def isIdle (p : Pool) : Bool := p.claims.isEmpty

def text (p : Pool) : String :=
  "RingBufferPool \x7b capacity: " ++ toString p.capacity ++ ", start: " ++ toString p.start ++
    ", end: " ++ toString p.stop ++ ", wrapped: " ++ toString p.wrapped ++
    ", live: " ++ toString p.claims.length ++ " \x7d"

end Pool

end DisplayPipeline
