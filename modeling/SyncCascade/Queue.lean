import SyncCascade.Broker.Call
import SyncCascade.World

/-!
# Publishing jobs

A push forms the jobs for a list of targets and hands them to the broker one after another. A job
that is pending already is deferred instead of being added twice; if a consumer claims it in between,
the job is added anew.
-/

namespace SyncCascade

/-- What became of the jobs of a push. -/
structure PushReport where
  enqueued : List String
  /-- Jobs coalesced into pending ones. -/
  deduplicated : List String
deriving DecidableEq, Repr

namespace PushReport

def jobIds (r : PushReport) : List String := r.enqueued ++ r.deduplicated

def size (r : PushReport) : Nat := r.enqueued.length + r.deduplicated.length

def empty : PushReport := ⟨[], []⟩

open Json in
def toJson (r : PushReport) : Json := .object [
  ("deduplicated", ofStrings r.deduplicated), ("enqueued", ofStrings r.enqueued),
  ("is_empty", .bool (r.size == 0)), ("job_ids", ofStrings r.jobIds), ("len", ofNat r.size)]

end PushReport

namespace Queue

/-- One id makes a job of its own, and so does every id of a lane without batches; otherwise the
sorted distinct ids are cut into batches. -/
def formJobs (options : LaneOptions) (kind : JobKind) (ids : List String) : List JobPayload :=
  match ids, options.batchSize with
  | [], _ => []
  | [id], _ => [.single kind id]
  | ids, none => ids.map (.single kind)
  | ids, some size => (Chunk.pieces size (Batch.normalize ids)).map (.batch kind)

/-- Bounds the race with consumers that claim the job between `add` and `defer`. -/
def maxRounds : Nat := 3

def exhausted (lane : Lane) (id : String) : Failure :=
  .queue ("could not enqueue or defer job " ++ id ++ " on lane " ++ lane.name)

variable {σ β : Type} (B : Broker β)

def request (c : BrokerCall) : Action σ β c.Reply :=
  .announcingIf (B.announces c) (.onBroker fun clock b => B.call clock c b)

/-- Tells whether the job is new to the lane, within a number of rounds. -/
def enqueue (options : LaneOptions) (lane : Lane) (job : JobPayload) :
    (rounds : Nat) → Action σ β Bool
  | 0 => .fail (exhausted lane job.id)
  | rounds + 1 => do
    match ← request B (.add lane job options .zero) with
    | .added => pure true
    | .exists =>
      match ← request B (.defer lane job.id options.dedupDelay) with
      | .deferred n =>
        .record lane .duplicate
        .note (.duplicateDeferred lane job.id n)
        pure false
      | .missing => enqueue options lane job rounds

def publish (options : LaneOptions) (lane : Lane) :
    PushReport → List JobPayload → Action σ β PushReport
  | report, [] => pure report
  | report, job :: rest => do
    if ← enqueue B options lane job maxRounds then
      publish options lane { report with enqueued := report.enqueued ++ [job.id] } rest
    else
      publish options lane { report with deduplicated := report.deduplicated ++ [job.id] } rest

def push (config : QueueConfig) (kind : JobKind) (ids : List String) : Action σ β PushReport :=
  let options := config.lane kind.lane
  .announcing (publish B options kind.lane .empty (formJobs options kind ids))

end Queue

end SyncCascade
