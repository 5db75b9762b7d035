import SyncCascade.Clock
import SyncCascade.Config
import SyncCascade.ConfigJson

/-!
# Brokers

A lane holds pending jobs and claimed ones, both by the identifier of the job. A claim gives a fresh
token for a limited time, and only the token that owns a claimed job can settle it. While a job is
claimed, another one with its identifier may be added, which then waits until the first is settled.
-/

namespace SyncCascade

inductive AddOutcome where
  | added
  /-- A pending job with the identifier is there already. -/
  | exists
deriving DecidableEq, Repr

inductive DeferOutcome where
  | deferred (dedupCount : UInt32)
  /-- No pending job has the identifier any more. -/
  | missing
deriving DecidableEq, Repr

/-- What became of a job that was not completed. -/
inductive Disposition where
  /-- Another delivery follows after the delay. -/
  | retrying (delay : Timespan)
  /-- A newer pending job covers the work, or the claim was lost. -/
  | superseded
  /-- There are no attempts left. -/
  | failed
deriving DecidableEq, Repr

def Disposition.isRetrying : Disposition → Bool
  | retrying _ => true
  | _ => false

structure ClaimedJob where
  payload : JobPayload
  /-- Names this delivery when it is settled. -/
  token : Nat
  /-- Attempts used up before this delivery. -/
  attemptsMade : Nat
  maxAttempts : Nat
deriving DecidableEq, Repr

structure StalledJob where
  payload : JobPayload
  disposition : Disposition
deriving DecidableEq, Repr

structure FailedJob where
  payload : JobPayload
  attemptsMade : Nat
  error : String
  failedAt : Timestamp
deriving DecidableEq, Repr

structure LaneCounts where
  waiting : Nat
  delayed : Nat
  active : Nat
  completed : Nat
  failed : Nat
deriving DecidableEq, Repr

inductive BrokerCall where
  /-- Queue a job after the delay, unless a pending one has its identifier. -/
  | add (lane : Lane) (job : JobPayload) (options : LaneOptions) (delay : Timespan)
  /-- Move a pending job back to the delay from now, if it is earlier, and count a duplicate. -/
  | defer (lane : Lane) (id : String) (delay : Timespan)
  /-- The next ready job whose identifier is not claimed. -/
  | claim (lane : Lane) (lease : Timespan)
  /-- Tells whether the token owned the job. -/
  | complete (lane : Lane) (id : String) (token : Nat)
  /-- Uses up one attempt. -/
  | fail (lane : Lane) (id : String) (token : Nat) (error : String)
  /-- Queue a claimed job again with a new payload and without using up an attempt. -/
  | retryLater (lane : Lane) (payload : JobPayload) (token : Nat) (delay : Timespan)
  /-- Take back the claimed jobs whose lease has run out; each uses up one attempt. -/
  | recoverStalled (lane : Lane)
  | counts (lane : Lane)
  | failedJobs (lane : Lane)
deriving DecidableEq, Repr

abbrev BrokerCall.Reply : BrokerCall → Type
  | add .. => AddOutcome
  | defer .. => DeferOutcome
  | claim .. => Option ClaimedJob
  | complete .. => Bool
  | fail .. => Disposition
  | retryLater .. => Disposition
  | recoverStalled _ => List StalledJob
  | counts _ => LaneCounts
  | failedJobs _ => List FailedJob

/-- A broker whose state, with everything at its far end, is a `β`. -/
structure Broker (β : Type) where
  call : Clock → (c : BrokerCall) → β → Except Failure c.Reply × β
  /-- Whether a failure of the call is reported in the journal. -/
  announces : BrokerCall → Bool

/-- The broker as a part of something larger. -/
def Broker.within {β γ : Type} (B : Broker β) (get : γ → β) (put : β → γ → γ) : Broker γ where
  call clock c g :=
    match B.call clock c (get g) with
    | (r, b) => (r, put b g)
  announces := B.announces

open Json

def LaneCounts.toJson (c : LaneCounts) : Json := .object [
  ("active", ofNat c.active), ("completed", ofNat c.completed), ("delayed", ofNat c.delayed),
  ("failed", ofNat c.failed), ("waiting", ofNat c.waiting)]

def ClaimedJob.toJson (j : ClaimedJob) : Json := .object [
  ("attempts_made", ofNat j.attemptsMade), ("max_attempts", ofNat j.maxAttempts),
  ("payload", j.payload.toJson), ("token", ofNat j.token)]

def FailedJob.toJson (j : FailedJob) : Json := .object [
  ("attempts_made", ofNat j.attemptsMade), ("error", .string j.error),
  ("failed_at", ofTimestamp j.failedAt), ("payload", j.payload.toJson)]

def Disposition.toJson : Disposition → Json
  | retrying delay => .object [("delay", delay.toJson), ("disposition", .string "retrying")]
  | superseded => .object [("disposition", .string "superseded")]
  | failed => .object [("disposition", .string "failed")]

def AddOutcome.toJson : AddOutcome → Json
  | added => .string "added"
  | .exists => .string "exists"

def DeferOutcome.toJson : DeferOutcome → Json
  | deferred n => .object [("dedup_count", ofNat n.toNat)]
  | missing => .string "missing"

def StalledJob.toJson (j : StalledJob) : Json :=
  .object [("payload", j.payload.toJson), ("result", j.disposition.toJson)]

def StalledJob.listJson (jobs : List StalledJob) : Json :=
  .array ((jobs.mergeSort fun a b => decide (a.payload.id ≤ b.payload.id)).map StalledJob.toJson)

def BrokerCall.replyJson : (c : BrokerCall) → c.Reply → Json
  | add .., r => r.toJson
  | defer .., r => r.toJson
  | claim .., r => ofOption ClaimedJob.toJson r
  | complete .., r => .bool r
  | fail .., r => r.toJson
  | retryLater .., r => r.toJson
  | recoverStalled _, r => StalledJob.listJson r
  | counts _, r => r.toJson
  | failedJobs _, r => .array (r.map FailedJob.toJson)

end SyncCascade
