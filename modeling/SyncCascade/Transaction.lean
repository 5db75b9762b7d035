import SyncCascade.Store.Storage
import SyncCascade.World

/-!
# Transactions

A unit of work runs in a transaction of its own and is committed. When the storage reports a
transaction failure the whole unit is repeated, as often as the policy allows; every other failure
is final.
-/

namespace SyncCascade.Transaction

variable {σ β α : Type}

/-- Repeats `work` after a transaction failure, at most `remaining` times. -/
def repeating (policy : RetryPolicy) (context : WorkContext) (work : Action σ β α) :
    (remaining attempt : Nat) → Action σ β α
  | remaining, attempt => Action.ofFunction fun w =>
    match work w with
    | (.ok a, w) => (.ok a, w)
    | (.error e, w) =>
      if e.isTransaction && policy.enabled then
        match remaining with
        | 0 =>
          (.error (.retriesExceeded policy.numRetries),
            { w with journal := w.journal.push (.retriesExhausted context attempt e) })
        | remaining + 1 =>
          repeating policy context work remaining (attempt + 1)
            { w with journal := w.journal.push (.transactionRepeated context attempt e) }
      else (.error e, w)

/-- The attempts are counted out before the first one, and without their number there is none. -/
def withRetries (policy : RetryPolicy) (context : WorkContext) (work : Action σ β α) :
    Action σ β α :=
  match policy.maxAttempts with
  | .ok attempts => repeating policy context work (attempts.toNat - 1) 1
  | .error e => .fail e

variable (S : Storage σ)

def start (level : IsolationLevel) : Action σ β Unit :=
  .announcingIf S.announcesStart (.onStore fun clock s => S.start clock level s)

def query (c : StoreCall) : Action σ β c.Reply :=
  .announcingIf (S.announces c) (.onStore fun clock s => S.call clock c s)

def commit : Action σ β Unit := .onStore S.commit

def rollback : Action σ β Unit := .update fun w => { w with store := S.rollback w.store }

/-- Starts, works and commits once; a failure of the work undoes it. -/
def once (level : IsolationLevel) (work : Action σ β α) : Action σ β α := do
  start S level
  match ← work.attempt with
  | .ok a =>
    commit S
    pure a
  | .error e =>
    rollback S
    .fail e

def run (config : TransactionConfig) (context : WorkContext) (work : Action σ β α) :
    Action σ β α :=
  withRetries config.retry context (once S config.isolation work)

end SyncCascade.Transaction
