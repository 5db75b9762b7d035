import SyncCascade.Numeral

/-!
# Failures

Every operation of the tracker fails in one of eight ways, or the program stops in it at a sum that does
not fit its word. A caller decides by the kind: a client's mistake is never retried, a transaction
failure may be.
-/

namespace SyncCascade

inductive Failure where
  /-- A row that was named, or its parent, is not there. -/
  | notFound (what : String)
  /-- A row with this key is there already. -/
  | alreadyExists (what : String)
  /-- The target is in a state that forbids the request. -/
  | conflict (why : String)
  /-- The storage gave up a transaction because of a concurrent one. -/
  | transaction (why : String)
  /-- The budget for repeating a transaction ran out. -/
  | retriesExceeded (retries : UInt32)
  | storage (why : String)
  | queue (why : String)
  | invalidPayload (why : String)
  /-- A sum does not fit its word, and the program goes no further. -/
  | overflow
deriving DecidableEq, Repr

namespace Failure

inductive Kind where
  | notFound
  | alreadyExists
  | conflict
  | transaction
  | retriesExceeded
  | storage
  | queue
  | invalidPayload
  | overflow
deriving DecidableEq, Repr

def kind : Failure → Kind
  | notFound _ => .notFound
  | alreadyExists _ => .alreadyExists
  | conflict _ => .conflict
  | transaction _ => .transaction
  | retriesExceeded _ => .retriesExceeded
  | storage _ => .storage
  | queue _ => .queue
  | invalidPayload _ => .invalidPayload
  | overflow => .overflow

def ofKind (kind : Kind) (why : String) (retries : UInt32) : Failure :=
  match kind with
  | .notFound => notFound why
  | .alreadyExists => alreadyExists why
  | .conflict => conflict why
  | .transaction => transaction why
  | .retriesExceeded => retriesExceeded retries
  | .storage => storage why
  | .queue => queue why
  | .invalidPayload => invalidPayload why
  | .overflow => overflow

def message : Failure → String
  | notFound what => "not found: " ++ what
  | alreadyExists what => "already exists: " ++ what
  | conflict why => "conflict: " ++ why
  | transaction why => "transaction failure: " ++ why
  | retriesExceeded n => "exceeded number of retries (" ++ Numeral.text n.toNat ++ ")"
  | storage why => "storage error: " ++ why
  | queue why => "queue error: " ++ why
  | invalidPayload why => "invalid payload: " ++ why
  | overflow => "attempt to add with overflow"

/-- The mistakes of a client. -/
def Kind.isClientError : Kind → Bool
  | .notFound | .alreadyExists | .conflict => true
  | _ => false

def isTransaction (f : Failure) : Bool := f.kind == .transaction

end Failure

end SyncCascade
