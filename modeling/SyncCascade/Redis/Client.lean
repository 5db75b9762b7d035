import SyncCascade.Broker.Call
import SyncCascade.Redis.Reply
import SyncCascade.Redis.Script
import SyncCascade.Word

/-!
# A client of Redis

The calls of a broker as scripts and commands on the keys of a lane, and what the client makes of the
replies. Times are milliseconds since 1970 as signed 64-bit words; counters that a hash keeps beside
the payload count in place of those in the payload. A script that the server does not have is handed
to it and called once more. After an answer that breaks the rules the client hangs up.
-/

namespace SyncCascade.Redis

inductive Request where
  /-- Calls a script that the server has. -/
  | run (script : Script) (keys args : List String)
  /-- Hands a script to the server. -/
  | load (script : Script)
  | command (words : List String)
deriving DecidableEq, Repr

def Request.script? : Request → Option Script
  | run script _ _ => some script
  | _ => none

structure Link (ρ : Type) where
  /-- How the server answers. -/
  send : Request → ρ → Reply × ρ
  /-- The client hangs up. -/
  hangUp : ρ → ρ

/-- The failure of a call whose answer is lost, refused or of another shape. -/
def garbled : Failure := .queue "redis error: no readable answer"

def malformedSettlement : Failure := .queue "malformed settle reply"

def notANumber (raw : String) : Failure := .queue ("expected a number, got '" ++ raw ++ "'")

def payloadMissing : Failure := .queue "job hash without payload"

def orGarbled {α : Type} : Option α → Except Failure α
  | some a => .ok a
  | none => .error garbled

def base (keyPrefix : String) (lane : Lane) : String := keyPrefix ++ ":" ++ lane.name

def key (keyPrefix : String) (lane : Lane) (last : String) : String :=
  base keyPrefix lane ++ ":" ++ last

def nowMillis (clock : Clock) : Int64 := Int64.ofInt clock.wall.toMillis

def deadline (clock : Clock) (t : Timespan) : Int64 :=
  nowMillis clock + Int64.ofInt t.wholeMillis

/-- The deadline if it is the sum of what the clock reads and the word for the span. -/
def checkedDeadline (clock : Clock) (t : Timespan) : Except Failure Int64 :=
  Word.int64 ((nowMillis clock).toInt + (Int64.ofInt t.wholeMillis).toInt)

def wordText (n : Int64) : String := Numeral.integerText n.toInt

/-- Pending jobs that a claim looks through. -/
def claimScan : Nat := 100

section Requests

variable (keyPrefix : String) (clock : Clock)

def addRequest (lane : Lane) (job : JobPayload) (options : LaneOptions) (delay : Timespan) :
    Request :=
  .run .add [key keyPrefix lane "pending", key keyPrefix lane ("job:" ++ job.id)]
    [job.id, job.text, Numeral.text (max options.attempts.toNat 1),
      Numeral.text (BackoffWindow.millisWord options.backoff), wordText (deadline clock delay),
      Numeral.text job.dedupCount.toNat, Numeral.text job.stalled.toNat]

def deferRequest (lane : Lane) (id : String) (delay : Timespan) : Request :=
  .run .defer [key keyPrefix lane "pending", key keyPrefix lane ("job:" ++ id)]
    [id, wordText (deadline clock delay)]

def claimRequest (lane : Lane) (lease : Timespan) : Request :=
  .run .claim [key keyPrefix lane "pending", key keyPrefix lane "active"]
    [base keyPrefix lane, wordText (nowMillis clock), wordText (deadline clock lease),
      Numeral.text claimScan]

def completeRequest (lane : Lane) (id : String) (token : Nat) : Request :=
  .run .complete [key keyPrefix lane "active", key keyPrefix lane "completed"]
    [id, base keyPrefix lane, Numeral.text token]

/-- How a claimed job leaves the claimed ones. -/
inductive Settlement where
  | fail (token : Nat) (error : String)
  | retry (token : Nat) (payload : JobPayload) (delay : Timespan)
  | stall
deriving DecidableEq, Repr

namespace Settlement

def mode : Settlement → String
  | fail .. => "fail"
  | retry .. => "retry"
  | stall => "stall"

def payloadText : Settlement → String
  | retry _ payload _ => payload.text
  | _ => ""

def delayMillis : Settlement → Nat
  | retry _ _ delay => BackoffWindow.millisWord delay
  | _ => 0

def errorText : Settlement → String
  | fail _ error => error
  | retry .. => ""
  | stall => "job stalled"

def token : Settlement → Nat
  | fail token _ => token
  | retry token .. => token
  | stall => 0

end Settlement

def settleRequest (lane : Lane) (id : String) (s : Settlement) : Request :=
  .run .settle
    [key keyPrefix lane "active", key keyPrefix lane "pending", key keyPrefix lane "failed"]
    [id, base keyPrefix lane, wordText (nowMillis clock), s.mode, s.payloadText,
      Numeral.text s.delayMillis, s.errorText, Numeral.text s.token]

def expiredRequest (lane : Lane) : Request :=
  .command ["ZRANGEBYSCORE", key keyPrefix lane "active", "-inf", wordText (nowMillis clock)]

def countRequests (lane : Lane) : List Request := [
  .command ["ZCARD", key keyPrefix lane "pending"],
  .command ["ZCOUNT", key keyPrefix lane "pending", "-inf", wordText (nowMillis clock)],
  .command ["ZCARD", key keyPrefix lane "active"],
  .command ["GET", key keyPrefix lane "completed"],
  .command ["ZCARD", key keyPrefix lane "failed"]]

def failedRequest (lane : Lane) : Request :=
  .command ["ZRANGE", key keyPrefix lane "failed", "0", "-1"]

def failureRequest (lane : Lane) (record : String) : Request :=
  .command ["HGETALL", key keyPrefix lane ("failed:" ++ record)]

end Requests

namespace Fields

/-- A field that is a number below `bound`; zero, if there is no such field. -/
def natural (fields : Fields) (name : String) (bound : Nat) : Except Failure Nat :=
  match fields.value? name with
  | none => .ok 0
  | some raw =>
    match Numeral.unsigned? bound raw.toList with
    | some n => .ok n
    | none => .error (notANumber raw)

/-- A field that is a signed 64-bit word; zero, if there is no such field. -/
def integer (fields : Fields) (name : String) : Except Failure Int :=
  match fields.value? name with
  | none => .ok 0
  | some raw =>
    match Numeral.signed? (Word.limit 63) raw.toList with
    | some n => .ok n
    | none => .error (notANumber raw)

def payload (fields : Fields) : Except Failure JobPayload := do
  match fields.value? "payload" with
  | none => .error payloadMissing
  | some raw =>
    let payload ← JobPayload.parse raw
    let dedupCount ← fields.natural "dedup_count" (Word.limit 32)
    let stalled ← fields.natural "stalled" (Word.limit 32)
    pure { payload with dedupCount := UInt32.ofNat dedupCount, stalled := UInt32.ofNat stalled }

def claimedJob (fields : Fields) : Except Failure ClaimedJob := do
  let payload ← fields.payload
  let token ← fields.natural "token" (Word.limit 64)
  let attemptsMade ← fields.natural "attempts_made" (Word.limit 32)
  let maxAttempts ← fields.natural "max_attempts" (Word.limit 32)
  pure ⟨payload, token, attemptsMade, maxAttempts⟩

/-- A failure whose time no date can show happened now. -/
def failedJob (clock : Clock) (fields : Fields) : Except Failure FailedJob := do
  let failedAt ← fields.integer "failed_at"
  let payload ← fields.payload
  let attemptsMade ← fields.natural "attempts_made" (Word.limit 32)
  pure ⟨payload, attemptsMade, (fields.value? "error").getD "",
    (Timestamp.ofMillis? failedAt).getD clock.wall⟩

end Fields

def naturalText (bound : Nat) (raw : String) : Except Failure Nat :=
  match Numeral.unsigned? bound raw.toList with
  | some n => .ok n
  | none => .error (notANumber raw)

/-- What became of a settled job, and its payload, unless nothing was settled. -/
def readSettlement : List String → Except Failure (Disposition × Option JobPayload)
  | [status, delay, payload, stalled] => do
    let disposition ←
      if status = "retrying" then do
        let millis ← naturalText (Word.limit 64) delay
        pure (.retrying (.ofMillis millis))
      else if status = "failed" then pure .failed
      else pure .superseded
    if payload = "" then pure (disposition, none)
    else
      let job ← JobPayload.parse payload
      let count ← naturalText (Word.limit 32) stalled
      pure (disposition, some { job with stalled := UInt32.ofNat count })
  | _ => .error malformedSettlement

/-- The counters in the order in which they are asked for; no job may have been completed. -/
def readCounts : List Reply → Option LaneCounts
  | [pending, waiting, active, completed, failed] => do
    let pending ← pending.count?
    let waiting ← waiting.count?
    let active ← active.count?
    let completed ←
      match completed with
      | .nil => some 0
      | reply => reply.count?
    let failed ← failed.count?
    some ⟨waiting, pending - waiting, active, completed, failed⟩
  | _ => none

namespace Client

variable {ρ α : Type} (L : Link ρ) (keyPrefix : String)

/-- The answer to one request; the client hangs up if it breaks the rules. -/
def answer (r : Request) (s : ρ) : Reply × ρ :=
  match L.send r s with
  | (reply, s) => if reply.breaksRules then (.garbage, L.hangUp s) else (reply, s)

/-- The answer to one request. A script that the server does not have is handed to it and called once
more. -/
def answerOnceLoaded (r : Request) (s : ρ) : Reply × ρ :=
  match answer L r s with
  | (reply, s) =>
    match r.script? with
    | some script =>
      if reply.asksForScript then answer L r (answer L (.load script) s).2 else (reply, s)
    | none => (reply, s)

def ask (r : Request) (read : Reply → Option α) (s : ρ) : Except Failure α × ρ :=
  match answerOnceLoaded L r s with
  | (reply, s) => (orGarbled (read reply), s)

def sendAll : List Request → ρ → List Reply × ρ
  | [], s => ([], s)
  | r :: rest, s =>
    match L.send r s with
    | (reply, s) =>
      match sendAll rest s with
      | (replies, s) => (reply :: replies, s)

/-- The answers to requests that are sent together; one refusal is the failure of all. -/
def askAll (rs : List Request) (s : ρ) : List Reply × ρ :=
  match sendAll L rs s with
  | (replies, s) => (replies, if replies.any Reply.breaksRules then L.hangUp s else s)

def settle (clock : Clock) (lane : Lane) (id : String) (how : Settlement) (s : ρ) :
    Except Failure (Disposition × Option JobPayload) × ρ :=
  match ask L (settleRequest keyPrefix clock lane id how) Reply.texts? s with
  | (.ok texts, s) => (readSettlement texts, s)
  | (.error f, s) => (.error f, s)

/-- Settles the jobs one after another; one that was settled in the meantime is passed over. -/
def settleStalled (clock : Clock) (lane : Lane) : List String → ρ →
    Except Failure (List StalledJob) × ρ
  | [], s => (.ok [], s)
  | id :: rest, s =>
    match settle L keyPrefix clock lane id .stall s with
    | (.error f, s) => (.error f, s)
    | (.ok (disposition, payload), s) =>
      match settleStalled clock lane rest s with
      | (.error f, s) => (.error f, s)
      | (.ok jobs, s) => (.ok ((payload.map fun p => ⟨p, disposition⟩).toList ++ jobs), s)

/-- Fetches the records of failures one after another; one that is gone is passed over. -/
def fetchFailed (clock : Clock) (lane : Lane) : List String → ρ →
    Except Failure (List FailedJob) × ρ
  | [], s => (.ok [], s)
  | record :: rest, s =>
    match ask L (failureRequest keyPrefix lane record) Reply.fields? s with
    | (.error f, s) => (.error f, s)
    | (.ok fields, s) =>
      if fields.isEmpty then fetchFailed clock lane rest s
      else
        match fields.failedJob clock with
        | .error f => (.error f, s)
        | .ok job =>
          match fetchFailed clock lane rest s with
          | (.error f, s) => (.error f, s)
          | (.ok jobs, s) => (.ok (job :: jobs), s)

def exchange (clock : Clock) (c : BrokerCall) (s : ρ) : Except Failure c.Reply × ρ :=
  match c with
  | .add lane job options delay =>
    match ask L (addRequest keyPrefix clock lane job options delay) Reply.int? s with
    | (.ok n, s) => (.ok (if n = 1 then .added else .exists), s)
    | (.error f, s) => (.error f, s)
  | .defer lane id delay =>
    match ask L (deferRequest keyPrefix clock lane id delay) Reply.int? s with
    | (.ok n, s) => (.ok (if n < 0 then .missing else .deferred (UInt32.ofInt n)), s)
    | (.error f, s) => (.error f, s)
  | .claim lane lease =>
    match ask L (claimRequest keyPrefix clock lane lease) Reply.fields? s with
    | (.ok [], s) => (.ok none, s)
    | (.ok fields, s) => (fields.claimedJob.map some, s)
    | (.error f, s) => (.error f, s)
  | .complete lane id token =>
    match ask L (completeRequest keyPrefix lane id token) Reply.int? s with
    | (.ok n, s) => (.ok (n == 1), s)
    | (.error f, s) => (.error f, s)
  | .fail lane id token error =>
    match settle L keyPrefix clock lane id (.fail token error) s with
    | (.ok (disposition, _), s) => (.ok disposition, s)
    | (.error f, s) => (.error f, s)
  | .retryLater lane payload token delay =>
    match settle L keyPrefix clock lane payload.id (.retry token payload delay) s with
    | (.ok (disposition, _), s) => (.ok disposition, s)
    | (.error f, s) => (.error f, s)
  | .recoverStalled lane =>
    match ask L (expiredRequest keyPrefix clock lane) Reply.texts? s with
    | (.ok ids, s) => settleStalled L keyPrefix clock lane ids s
    | (.error f, s) => (.error f, s)
  | .counts lane =>
    match askAll L (countRequests keyPrefix clock lane) s with
    | (replies, s) => (orGarbled (readCounts replies), s)
  | .failedJobs lane =>
    match ask L (failedRequest keyPrefix lane) Reply.texts? s with
    | (.ok records, s) => fetchFailed L keyPrefix clock lane records s
    | (.error f, s) => (.error f, s)

def span? : BrokerCall → Option Timespan
  | .add _ _ _ delay => some delay
  | .defer _ _ delay => some delay
  | .claim _ lease => some lease
  | _ => none

/-- The time that the call asks for fits its word. -/
def isTimely (clock : Clock) (c : BrokerCall) : Bool :=
  (span? c).all fun t => (checkedDeadline clock t).isOk

/-- Nothing is sent for a time that does not fit its word. -/
def call (clock : Clock) (c : BrokerCall) (s : ρ) : Except Failure c.Reply × ρ :=
  if isTimely clock c then exchange L keyPrefix clock c s else (.error .overflow, s)

/-- The broker behind the client; only a failed addition is reported in the journal. -/
def broker : Broker ρ where
  call := call L keyPrefix
  announces
    | .add .. => true
    | _ => false

end Client

end SyncCascade.Redis
