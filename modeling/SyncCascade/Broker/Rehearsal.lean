import SyncCascade.Broker.Call

/-!
# A broker that answers as a script says

For trying out how jobs are published: the script tells the answers to the next additions and
deferrals. Where a list has run out, jobs are added and none is there to be deferred. Nothing can be
claimed or settled.
-/

namespace SyncCascade

structure BrokerRehearsal where
  adds : List (Except Failure AddOutcome)
  defers : List (Except Failure DeferOutcome)
  /-- The calls so far, the first one first. -/
  calls : List BrokerCall

namespace BrokerRehearsal

def unavailable (what : String) : Failure := .queue (what ++ " unavailable")

def answer (r : BrokerRehearsal) : (c : BrokerCall) → Except Failure c.Reply
  | .add .. => r.adds.head?.getD (.ok .added)
  | .defer .. => r.defers.head?.getD (.ok .missing)
  | .claim .. => .error (unavailable "claim")
  | .complete .. => .error (unavailable "complete")
  | .fail .. => .error (unavailable "fail")
  | .retryLater .. => .error (unavailable "retry")
  | .recoverStalled _ => .error (unavailable "recover")
  | .counts _ => .error (unavailable "counts")
  | .failedJobs _ => .error (unavailable "failed jobs")

def advance (r : BrokerRehearsal) (c : BrokerCall) : BrokerRehearsal :=
  let r := { r with calls := r.calls ++ [c] }
  match c with
  | .add .. => { r with adds := r.adds.tail }
  | .defer .. => { r with defers := r.defers.tail }
  | _ => r

def broker : Broker BrokerRehearsal where
  call _ c r := (r.answer c, r.advance c)
  announces _ := false

end BrokerRehearsal

end SyncCascade
