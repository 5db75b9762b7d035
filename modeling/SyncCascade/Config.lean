import SyncCascade.Job
import SyncCascade.Timespan
import SyncCascade.Word

/-!
# Configuration

How transactions are isolated and repeated, how jobs are batched, deduplicated and redelivered, and
how workers poll and lease.
-/

namespace SyncCascade

inductive IsolationLevel where
  | readCommitted
  | repeatableRead
  | serializable
deriving DecidableEq, Repr, Inhabited

namespace IsolationLevel

def name : IsolationLevel → String
  | readCommitted => "read_committed"
  | repeatableRead => "repeatable_read"
  | serializable => "serializable"

instance : Named IsolationLevel where
  label := "isolation level"
  all := [readCommitted, repeatableRead, serializable]
  name := name
  find_name a := by cases a <;> decide

def sql : IsolationLevel → String
  | readCommitted => "READ COMMITTED"
  | repeatableRead => "REPEATABLE READ"
  | serializable => "SERIALIZABLE"

/-- In lower case, with underscores for blanks and hyphens. -/
def normalize (s : String) : String :=
  s.map fun c => if c = ' ' ∨ c = '-' then '_' else c.toLower

def parse (s : String) : Except Failure IsolationLevel := Named.parse (normalize s)

end IsolationLevel

structure RetryPolicy where
  enabled : Bool
  /-- Repetitions after the first attempt. -/
  numRetries : UInt32
deriving DecidableEq, Repr

namespace RetryPolicy

def default : RetryPolicy := ⟨true, 3⟩

def disabled : RetryPolicy := ⟨false, 0⟩

def maxAttempts (p : RetryPolicy) : Except Failure UInt32 :=
  if p.enabled then Word.uint32 (p.numRetries.toNat + 1) else .ok 1

end RetryPolicy

structure TransactionConfig where
  isolation : IsolationLevel
  retry : RetryPolicy
deriving DecidableEq, Repr

def TransactionConfig.default : TransactionConfig := ⟨.serializable, .default⟩

/-- How the jobs of one lane are published and redelivered. -/
structure LaneOptions where
  /-- Several jobs pushed at once go into batches of this size, if there is one. -/
  batchSize : Option Nat
  /-- How far a push moves back the queued job that it repeats. -/
  dedupDelay : Timespan
  /-- Deliveries before a job fails for good. -/
  attempts : UInt32
  /-- The wait before redelivery after a failure. -/
  backoff : Timespan
deriving DecidableEq, Repr

namespace LaneOptions

def default : LaneOptions := ⟨none, .ofSeconds 1, 3, .ofSeconds 1⟩

def batched (size : Nat) : LaneOptions := { default with batchSize := some (max size 1) }

end LaneOptions

structure QueueConfig where
  /-- What the keys of a shared broker begin with. -/
  keyPrefix : String
  changesets : LaneOptions
  files : LaneOptions
  syncs : LaneOptions
deriving DecidableEq, Repr

namespace QueueConfig

def default : QueueConfig := ⟨"synctrack", .batched 100, .default, .default⟩

def lane (c : QueueConfig) : Lane → LaneOptions
  | .changesets => c.changesets
  | .files => c.files
  | .syncs => c.syncs

end QueueConfig

/-- The window from which the wait after a transaction failure is drawn. -/
structure BackoffWindow where
  least : Timespan
  most : Timespan
deriving DecidableEq, Repr

namespace BackoffWindow

def default : BackoffWindow := ⟨.ofMillis 500, .ofSeconds 5⟩

/-- The low 64 bits of the whole milliseconds. -/
def millisWord (t : Timespan) : Nat := t.wholeMillis % Word.limit 64

def lowMillis (w : BackoffWindow) : Nat := millisWord w.least

def highMillis (w : BackoffWindow) : Nat := max (millisWord w.most) w.lowMillis

def draw (w : BackoffWindow) (roll : Nat) : Timespan :=
  .ofMillis (w.lowMillis + roll % (w.highMillis - w.lowMillis + 1))

end BackoffWindow

structure WorkerConfig where
  /-- Consumers of one lane. -/
  concurrency : Nat
  /-- The wait between two polls of an empty lane. -/
  pollInterval : Timespan
  /-- A claimed job that is not acknowledged within the lease is stalled. -/
  lease : Timespan
  stalledInterval : Timespan
  failureDelay : BackoffWindow
deriving DecidableEq, Repr

def WorkerConfig.default : WorkerConfig :=
  ⟨1, .ofMillis 100, .ofSeconds 30, .ofSeconds 30, .default⟩

end SyncCascade
