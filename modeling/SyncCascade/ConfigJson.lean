import SyncCascade.Config
import SyncCascade.JobJson
import SyncCascade.Word

/-!
# Configuration as JSON objects

Every group of options takes what is left out from its own defaults, except for the backoff window,
whose bounds are both required. A span is an object of seconds and nanoseconds and nothing else.
-/

namespace SyncCascade

open Json

namespace Timespan

def toJson (t : Timespan) : Json :=
  .object [("nanos", ofNat t.subsecondNanos), ("secs", ofNat t.seconds)]

def decoder : Decoder Timespan := fun depth n => do
  let f ← Fields.openRecord ["secs", "nanos"] true depth n
  let seconds ← f.required "secs" Decode.uint64
  let nanos ← f.required "nanos" (Decode.natural (Word.limit 32))
  match ofParts? seconds nanos with
  | some t => f.close t
  | none => .error f.missing

end Timespan

namespace RetryPolicy

def toJson (p : RetryPolicy) : Json :=
  .object [("enabled", .bool p.enabled), ("num_retries", ofNat p.numRetries.toNat)]

def decoder : Decoder RetryPolicy := fun depth n => do
  let f ← Fields.openRecord ["enabled", "num_retries"] false depth n
  let enabled ← f.defaulted "enabled" Decode.bool default.enabled
  let numRetries ← f.defaulted "num_retries" Decode.uint32 default.numRetries
  f.close ⟨enabled, numRetries⟩

end RetryPolicy

namespace TransactionConfig

def toJson (c : TransactionConfig) : Json :=
  .object [("isolation_level", ofName c.isolation), ("retry", c.retry.toJson)]

def decoder : Decoder TransactionConfig := fun depth n => do
  let f ← Fields.openRecord ["isolation_level", "retry"] false depth n
  let isolation ← f.defaulted "isolation_level" Decode.named default.isolation
  let retry ← f.defaulted "retry" RetryPolicy.decoder default.retry
  f.close ⟨isolation, retry⟩

end TransactionConfig

namespace LaneOptions

def toJson (o : LaneOptions) : Json := .object [
  ("attempts", ofNat o.attempts.toNat),
  ("backoff", o.backoff.toJson),
  ("batch_size", ofOption ofNat o.batchSize),
  ("dedup_delay", o.dedupDelay.toJson)]

def decoder : Decoder LaneOptions := fun depth n => do
  let f ← Fields.openRecord ["batch_size", "dedup_delay", "attempts", "backoff"] false depth n
  let batchSize ← f.defaulted "batch_size" (Decode.option Decode.uint64) default.batchSize
  let dedupDelay ← f.defaulted "dedup_delay" Timespan.decoder default.dedupDelay
  let attempts ← f.defaulted "attempts" Decode.uint32 default.attempts
  let backoff ← f.defaulted "backoff" Timespan.decoder default.backoff
  f.close ⟨batchSize, dedupDelay, attempts, backoff⟩

end LaneOptions

namespace QueueConfig

def toJson (c : QueueConfig) : Json := .object [
  ("changesets", c.changesets.toJson),
  ("files", c.files.toJson),
  ("prefix", .string c.keyPrefix),
  ("syncs", c.syncs.toJson)]

def decoder : Decoder QueueConfig := fun depth n => do
  let f ← Fields.openRecord ["prefix", "changesets", "files", "syncs"] false depth n
  let keyPrefix ← f.defaulted "prefix" Decode.string default.keyPrefix
  let changesets ← f.defaulted "changesets" LaneOptions.decoder default.changesets
  let files ← f.defaulted "files" LaneOptions.decoder default.files
  let syncs ← f.defaulted "syncs" LaneOptions.decoder default.syncs
  f.close ⟨keyPrefix, changesets, files, syncs⟩

end QueueConfig

namespace BackoffWindow

def toJson (w : BackoffWindow) : Json :=
  .object [("max", w.most.toJson), ("min", w.least.toJson)]

def decoder : Decoder BackoffWindow := fun depth n => do
  let f ← Fields.openRecord ["min", "max"] false depth n
  let least ← f.required "min" Timespan.decoder
  let most ← f.required "max" Timespan.decoder
  f.close ⟨least, most⟩

end BackoffWindow

namespace WorkerConfig

def toJson (c : WorkerConfig) : Json := .object [
  ("concurrency", ofNat c.concurrency),
  ("lease", c.lease.toJson),
  ("poll_interval", c.pollInterval.toJson),
  ("stalled_interval", c.stalledInterval.toJson),
  ("transaction_failure_delay", c.failureDelay.toJson)]

def decoder : Decoder WorkerConfig := fun depth n => do
  let f ← Fields.openRecord ["concurrency", "poll_interval", "lease", "stalled_interval",
    "transaction_failure_delay"] false depth n
  let concurrency ← f.defaulted "concurrency" Decode.uint64 default.concurrency
  let pollInterval ← f.defaulted "poll_interval" Timespan.decoder default.pollInterval
  let lease ← f.defaulted "lease" Timespan.decoder default.lease
  let stalledInterval ← f.defaulted "stalled_interval" Timespan.decoder default.stalledInterval
  let failureDelay ← f.defaulted "transaction_failure_delay" BackoffWindow.decoder
    default.failureDelay
  f.close ⟨concurrency, pollInterval, lease, stalledInterval, failureDelay⟩

end WorkerConfig

end SyncCascade
