import SyncCascade.Queue
import SyncCascade.Word

/-!
# Workers

A worker claims jobs of one lane, runs a handler on each and settles the job by the result. A
transaction failure sends the job back after a random delay and costs no attempt; any other failure
costs one.
-/

namespace SyncCascade

/-- What one look at the lane came to. -/
inductive JobOutcome where
  /-- No job was ready. -/
  | idle
  | completed (job : String) (result : Json)
  /-- The handler succeeded, but the claim had been lost. -/
  | leaseLost (job : String)
  | transactionFailed (job : String) (delay : Timespan) (disposition : Disposition)
  | failed (job : String) (error : Failure) (disposition : Disposition)
deriving DecidableEq, Repr

open Json in
def JobOutcome.toJson : JobOutcome → Json
  | idle => .object [("outcome", .string "idle")]
  | completed job result => .object [
      ("job_id", .string job), ("outcome", .string "completed"), ("result", result)]
  | leaseLost job => .object [("job_id", .string job), ("outcome", .string "lease_lost")]
  | transactionFailed job delay disposition => .object [
      ("delay_ms", ofNat (BackoffWindow.millisWord delay)), ("job_id", .string job),
      ("outcome", .string "transaction_failed"), ("result", disposition.toJson)]
  | failed job error disposition => .object [
      ("error", .string error.message), ("job_id", .string job), ("outcome", .string "failed"),
      ("result", disposition.toJson)]

structure Worker (σ β : Type) where
  lane : Lane
  broker : Broker β
  handler : JobPayload → Action σ β Json
  config : WorkerConfig

namespace Worker

variable {σ β : Type} (W : Worker σ β)

def request (c : BrokerCall) : Action σ β c.Reply := Queue.request W.broker c

def drawDelay : Action σ β Timespan := do
  let w ← Action.world
  .update fun w =>
    { w with seed := (w.seed * 6364136223846793005 + 1442695040888963407) % Word.limit 64 }
  pure (W.config.failureDelay.draw w.seed)

def settleSuccess (job : ClaimedJob) (result : Json) (duration : Timespan) :
    Action σ β JobOutcome := do
  let id := job.payload.id
  if ← W.request (.complete W.lane id job.token) then
    .record W.lane (.completed duration)
    .note (.jobCompleted W.lane id)
    pure (.completed id result)
  else
    .note (.leaseLost W.lane id)
    pure (.leaseLost id)

def settleTransactionFailure (job : ClaimedJob) (error : Failure) (duration : Timespan) :
    Action σ β JobOutcome := do
  let payload := { job.payload with transactionFailures := job.payload.transactionFailures + 1 }
  let delay ← W.drawDelay
  let disposition ← W.request (.retryLater W.lane payload job.token delay)
  .record W.lane (.transactionFailure duration)
  .record W.lane .retry
  .note (.jobRequeued W.lane payload.id payload.transactionFailures (BackoffWindow.millisWord delay)
    error)
  pure (.transactionFailed payload.id delay disposition)

def settleFailure (job : ClaimedJob) (error : Failure) (duration : Timespan) :
    Action σ β JobOutcome := do
  let id := job.payload.id
  let disposition ← W.request (.fail W.lane id job.token error.message)
  .record W.lane (.failed duration)
  if disposition.isRetrying then
    .record W.lane .retry
  .note (.jobFailed W.lane id ((job.attemptsMade + 1) % Word.limit 32) job.maxAttempts
    job.payload.transactionFailures error)
  pure (.failed id error disposition)

/-- Claims and runs at most one job. -/
def processNext : Action σ β JobOutcome := do
  match ← W.request (.claim W.lane W.config.lease) with
  | none => pure .idle
  | some job =>
    .note (.jobClaimed W.lane job.payload.id job.attemptsMade)
    let started := (← Action.world).clock.elapsed
    let result ← (W.handler job.payload).attempt
    let duration : Timespan := ⟨(← Action.world).clock.elapsed - started⟩
    match result with
    | .ok value => W.settleSuccess job value duration
    | .error e =>
      if e.isTransaction then W.settleTransactionFailure job e duration
      else W.settleFailure job e duration

def reportStalled : List StalledJob → Action σ β Unit
  | [] => pure ()
  | job :: rest => do
    .record W.lane .stalled
    if job.disposition.isRetrying then
      .record W.lane .retry
    .note (.jobStalled W.lane job.payload.id job.payload.stalled)
    reportStalled rest

def recoverStalled : Action σ β (List StalledJob) := do
  let stalled ← W.request (.recoverStalled W.lane)
  W.reportStalled stalled
  pure stalled

end Worker

end SyncCascade
