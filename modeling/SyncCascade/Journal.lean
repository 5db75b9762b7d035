import SyncCascade.Failure
import SyncCascade.Identifier
import SyncCascade.Job
import SyncCascade.Json

/-!
# The journal

What the tracker reports while it works. A notice has a level, a message and fields; an operation
that announces its failure writes a notice without a message.
-/

namespace SyncCascade

/-- What a unit of work is called, and for whom it runs. -/
structure WorkContext where
  operation : String
  correlationId : String
deriving DecidableEq, Repr

inductive Notice where
  /-- An operation that announces its failures returned one. -/
  | failure (error : Failure)
  | retriesExhausted (context : WorkContext) (attempts : Nat) (error : Failure)
  | transactionRepeated (context : WorkContext) (attempt : Nat) (error : Failure)
  | entitiesCompleted (updated : Nat)
  | fileClosed (file : FileId) (sync : SyncId)
  | syncClosed (sync : SyncId)
  | rerunCreated (base rerun : SyncId) (runNumber : Int32) (deleted archived reopened reset : Nat)
  | baseClosed (base : SyncId)
  | duplicateDeferred (lane : Lane) (job : String) (dedupCount : UInt32)
  | jobClaimed (lane : Lane) (job : String) (attemptsMade : Nat)
  | leaseLost (lane : Lane) (job : String)
  | jobCompleted (lane : Lane) (job : String)
  | jobRequeued (lane : Lane) (job : String) (transactionFailures : UInt32) (delayMillis : Nat)
      (error : Failure)
  | jobFailed (lane : Lane) (job : String) (attemptsMade maxAttempts : Nat)
      (transactionFailures : UInt32) (error : Failure)
  | jobStalled (lane : Lane) (job : String) (stalled : UInt32)
  | workerStarted (lane : Lane) (concurrency : Nat)
  | processingFailed (lane : Lane) (consumer : Nat) (error : Failure)
  | consumerStopped (lane : Lane) (consumer : Nat)
  | recoveryFailed (lane : Lane) (error : Failure)
  | workerStopped (lane : Lane)
  | servicesStopped
  | responseRetriesExhausted (error : Failure)
  | responseFailed (error : Failure)
deriving DecidableEq, Repr

namespace Notice

inductive Level where
  | error
  | warn
  | info
  | debug
deriving DecidableEq, Repr

def Level.name : Level → String
  | error => "ERROR"
  | warn => "WARN"
  | info => "INFO"
  | debug => "DEBUG"

def level : Notice → Level
  | failure _ | processingFailed .. | recoveryFailed .. | responseFailed _ => .error
  | retriesExhausted .. | leaseLost .. | jobFailed .. | jobStalled .. | responseRetriesExhausted _ =>
    .warn
  | fileClosed .. | syncClosed _ | rerunCreated .. | baseClosed _ | jobRequeued .. |
    workerStarted .. | workerStopped _ | servicesStopped => .info
  | transactionRepeated .. | entitiesCompleted _ | duplicateDeferred .. | jobClaimed .. |
    jobCompleted .. | consumerStopped .. => .debug

def message : Notice → Option String
  | failure _ => none
  | retriesExhausted .. => some "transaction retries exhausted"
  | transactionRepeated .. => some "transaction failed, retrying"
  | entitiesCompleted _ => some "changeset entities completed"
  | fileClosed .. => some "file closed"
  | syncClosed _ => some "sync closed"
  | rerunCreated .. => some "rerun created"
  | baseClosed _ => some "base sync closed, rerun not created"
  | duplicateDeferred .. => some "duplicate job deferred"
  | jobClaimed .. => some "claimed job"
  | leaseLost .. => some "lease lost before completion"
  | jobCompleted .. => some "job completed"
  | jobRequeued .. => some "transaction failure, job re-queued"
  | jobFailed .. => some "job failed"
  | jobStalled .. => some "job stalled"
  | workerStarted .. => some "worker started"
  | processingFailed .. => some "failed to process job"
  | consumerStopped .. => some "consumer stopped"
  | recoveryFailed .. => some "failed to recover stalled jobs"
  | workerStopped _ => some "worker stopped"
  | servicesStopped => some "services stopped"
  | responseRetriesExhausted _ => some "transaction retries exhausted"
  | responseFailed _ => some "request failed"

open Json in
def fields : Notice → List (String × Json)
  | failure e => [("error", .string e.message)]
  | retriesExhausted c attempts e => [("operation", .string c.operation),
      ("correlation_id", .string c.correlationId), ("attempts", ofNat attempts),
      ("error", .string e.message)]
  | transactionRepeated c attempt e => [("operation", .string c.operation),
      ("correlation_id", .string c.correlationId), ("attempt", ofNat attempt),
      ("error", .string e.message)]
  | entitiesCompleted n => [("updated", ofNat n)]
  | fileClosed f s => [("file_id", .string f.uuid.text), ("sync_id", .string s.uuid.text)]
  | syncClosed s => [("sync_id", .string s.uuid.text)]
  | rerunCreated base rerun number deleted archived reopened reset => [
      ("base_sync_id", .string base.uuid.text), ("rerun_id", .string rerun.uuid.text),
      ("run_number", .int number.toInt), ("deleted_files", ofNat deleted),
      ("archived", ofNat archived), ("reopened", ofNat reopened), ("reset", ofNat reset)]
  | baseClosed s => [("base_sync_id", .string s.uuid.text)]
  | duplicateDeferred lane job n => [("lane", .string lane.name), ("job_id", .string job),
      ("dedup_count", ofNat n.toNat)]
  | jobClaimed lane job made => [("lane", .string lane.name), ("job_id", .string job),
      ("attempts_made", ofNat made)]
  | leaseLost lane job => [("lane", .string lane.name), ("job_id", .string job)]
  | jobCompleted lane job => [("lane", .string lane.name), ("job_id", .string job)]
  | jobRequeued lane job failures delay e => [("lane", .string lane.name), ("job_id", .string job),
      ("transaction_failures", ofNat failures.toNat), ("delay_ms", ofNat delay),
      ("error", .string e.message)]
  | jobFailed lane job made most failures e => [("lane", .string lane.name),
      ("job_id", .string job), ("attempts_made", ofNat made), ("max_attempts", ofNat most),
      ("transaction_failures", ofNat failures.toNat), ("error", .string e.message)]
  | jobStalled lane job stalled => [("lane", .string lane.name), ("job_id", .string job),
      ("stalled", ofNat stalled.toNat)]
  | workerStarted lane n => [("lane", .string lane.name), ("concurrency", ofNat n)]
  | processingFailed lane consumer e => [("lane", .string lane.name), ("consumer", ofNat consumer),
      ("error", .string e.message)]
  | consumerStopped lane consumer => [("lane", .string lane.name), ("consumer", ofNat consumer)]
  | recoveryFailed lane e => [("lane", .string lane.name), ("error", .string e.message)]
  | workerStopped lane => [("lane", .string lane.name)]
  | servicesStopped => []
  | responseRetriesExhausted e => [("error", .string e.message)]
  | responseFailed e => [("error", .string e.message)]

def toJson (n : Notice) : Json :=
  .object (("level", .string n.level.name) ::
    (n.message.toList.map fun m => ("message", Json.string m)) ++ n.fields)

end Notice

end SyncCascade
