import SyncCascade.Broker.Call
import SyncCascade.Table

/-!
# A lane in memory

Pending jobs are claimed in the order of the times at which they become ready, and of their sequence
numbers where these are equal. Additions, claims and requeued jobs draw their numbers from one
sequence, so every token is new.
-/

namespace SyncCascade

structure QueuedJob where
  payload : JobPayload
  attemptsMade : Nat
  maxAttempts : Nat
  backoff : Timespan
  readyAt : Nat
  seq : Nat
deriving DecidableEq, Repr

structure ActiveJob where
  job : QueuedJob
  token : Nat
  leaseUntil : Nat
deriving DecidableEq, Repr

structure LaneState where
  pending : Table String QueuedJob
  active : Table String ActiveJob
  /-- The oldest record first. -/
  failed : List FailedJob
  completed : Nat
  /-- The last number drawn. -/
  seq : Nat
deriving DecidableEq

namespace LaneState

def empty : LaneState := ⟨.empty, .empty, [], 0, 0⟩

instance : Inhabited LaneState := ⟨empty⟩

def precedes (a b : QueuedJob) : Bool :=
  a.readyAt < b.readyAt || (a.readyAt == b.readyAt && a.seq < b.seq)

/-- The pending jobs in the order in which they are claimed. -/
def pendingJobs (s : LaneState) : List QueuedJob :=
  s.pending.rows.mergeSort fun a b => !precedes b a

def earlier (best : Option QueuedJob) (job : QueuedJob) : Option QueuedJob :=
  match best with
  | none => some job
  | some b => if precedes job b then some job else some b

def isClaimable (s : LaneState) (now : Nat) (job : QueuedJob) : Bool :=
  job.readyAt ≤ now && !s.active.contains job.payload.id

def nextJob (s : LaneState) (now : Nat) : Option QueuedJob :=
  (s.pending.rows.filter (s.isClaimable now)).foldl earlier none

def add (s : LaneState) (now : Nat) (job : JobPayload) (options : LaneOptions) (delay : Timespan) :
    AddOutcome × LaneState :=
  if s.pending.contains job.id then (.exists, s)
  else
    (.added, { s with
      seq := s.seq + 1
      pending := s.pending.insert job.id {
        payload := job
        attemptsMade := 0
        maxAttempts := max options.attempts.toNat 1
        backoff := options.backoff
        readyAt := now + delay.nanos
        seq := s.seq + 1 } })

def deferJob (now : Nat) (delay : Timespan) (job : QueuedJob) : QueuedJob :=
  { job with
    payload := { job.payload with dedupCount := job.payload.dedupCount + 1 }
    readyAt := max job.readyAt (now + delay.nanos) }

def defer (s : LaneState) (now : Nat) (id : String) (delay : Timespan) :
    DeferOutcome × LaneState :=
  match s.pending.find? id with
  | some job =>
    (.deferred (job.payload.dedupCount + 1),
      { s with pending := s.pending.modify id (deferJob now delay) })
  | none => (.missing, s)

def claim (s : LaneState) (now : Nat) (lease : Timespan) : Option ClaimedJob × LaneState :=
  match s.nextJob now with
  | none => (none, s)
  | some job =>
    (some ⟨job.payload, s.seq + 1, job.attemptsMade, job.maxAttempts⟩,
      { s with
        seq := s.seq + 1
        pending := s.pending.erase job.payload.id
        active := s.active.insert job.payload.id ⟨job, s.seq + 1, now + lease.nanos⟩ })

/-- The claimed job, if the token owns it, and the lane without it. -/
def takeActive (s : LaneState) (id : String) (token : Nat) : Option (ActiveJob × LaneState) :=
  match s.active.find? id with
  | some a => if a.token = token then some (a, { s with active := s.active.erase id }) else none
  | none => none

/-- A job that is no longer claimed becomes pending, unless a newer one has its identifier. -/
def requeue (s : LaneState) (now : Nat) (job : QueuedJob) (delay : Timespan) :
    Disposition × LaneState :=
  if s.pending.contains job.payload.id then (.superseded, s)
  else
    (.retrying delay, { s with
      seq := s.seq + 1
      pending := s.pending.insert job.payload.id
        { job with readyAt := now + delay.nanos, seq := s.seq + 1 } })

def consumeAttempt (s : LaneState) (clock : Clock) (job : QueuedJob) (error : String)
    (delay : Timespan) : Disposition × LaneState :=
  let made := job.attemptsMade + 1
  if made < job.maxAttempts then s.requeue clock.elapsed { job with attemptsMade := made } delay
  else (.failed, { s with failed := s.failed ++ [⟨job.payload, made, error, clock.wall⟩] })

def complete (s : LaneState) (id : String) (token : Nat) : Bool × LaneState :=
  match s.takeActive id token with
  | some (_, s) => (true, { s with completed := s.completed + 1 })
  | none => (false, s)

def fail (s : LaneState) (clock : Clock) (id : String) (token : Nat) (error : String) :
    Disposition × LaneState :=
  match s.takeActive id token with
  | some (a, s) => s.consumeAttempt clock a.job error a.job.backoff
  | none => (.superseded, s)

def retryLater (s : LaneState) (now : Nat) (payload : JobPayload) (token : Nat)
    (delay : Timespan) : Disposition × LaneState :=
  match s.takeActive payload.id token with
  | some (a, s) => s.requeue now { a.job with payload := payload } delay
  | none => (.superseded, s)

def stalledError : String := "job stalled"

def expired (s : LaneState) (now : Nat) : List String :=
  (s.active.entries.filter fun e => e.2.leaseUntil ≤ now).map Prod.fst

def recoverJob (clock : Clock) (s : LaneState) (id : String) : Option StalledJob × LaneState :=
  match s.active.find? id with
  | none => (none, s)
  | some a =>
    let payload := { a.job.payload with stalled := a.job.payload.stalled + 1 }
    let (disposition, s) := { s with active := s.active.erase id }.consumeAttempt clock
      { a.job with payload := payload } stalledError .zero
    (some ⟨payload, disposition⟩, s)

def recoverAll (clock : Clock) : LaneState → List String → List StalledJob × LaneState
  | s, [] => ([], s)
  | s, id :: rest =>
    let (job, s) := recoverJob clock s id
    let (jobs, s) := recoverAll clock s rest
    (job.toList ++ jobs, s)

def recoverStalled (s : LaneState) (clock : Clock) : List StalledJob × LaneState :=
  recoverAll clock s (s.expired clock.elapsed)

def counts (s : LaneState) (now : Nat) : LaneCounts :=
  let waiting := s.pending.rows.countP fun j => j.readyAt ≤ now
  { waiting := waiting
    delayed := s.pending.size - waiting
    active := s.active.size
    completed := s.completed
    failed := s.failed.length }

end LaneState

end SyncCascade
