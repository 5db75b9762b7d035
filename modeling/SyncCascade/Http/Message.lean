import SyncCascade.Failure
import SyncCascade.Json.Decoder
import SyncCascade.World

/-!
# Requests and responses

A failure is answered with a status that tells a client's mistakes from the service's own, a code and
the message. The service's own failures are reported in the journal. A stop breaks the connection off;
here it counts as one of them.
-/

namespace SyncCascade.Http

structure Request where
  method : String
  /-- With the query, if there is one. -/
  target : String
  contentType : Option String
  body : String
deriving DecidableEq, Repr

structure Response where
  status : Nat
  body : Option Json
deriving DecidableEq, Repr

namespace Response

/-- The body, unless no decoder opens as many containers. -/
def readableBody? (r : Response) : Option Json := r.body.filter (·.depth ≤ Json.depthLimit)

def toJson (r : Response) : Json :=
  .object [("status", Json.ofNat r.status), ("body", r.readableBody?.getD .null)]

def empty (status : Nat) : Response := ⟨status, none⟩

def json (status : Nat) (body : Json) : Response := ⟨status, some body⟩

def error (status : Nat) (code message : String) : Response :=
  json status (.object [("error", .string code), ("message", .string message)])

end Response

def statusOf : Failure.Kind → Nat
  | .notFound => 404
  | .alreadyExists | .conflict => 409
  | .invalidPayload => 400
  | .transaction | .retriesExceeded | .storage | .queue | .overflow => 500

def codeOf : Failure.Kind → String
  | .notFound => "not_found"
  | .alreadyExists => "already_exists"
  | .conflict => "conflict"
  | .invalidPayload => "invalid_payload"
  | .transaction | .retriesExceeded => "transaction_failure"
  | .storage | .queue | .overflow => "internal_error"

def Response.ofFailure (e : Failure) : Response :=
  .error (statusOf e.kind) (codeOf e.kind) e.message

def noticeOf (e : Failure) : Option Notice :=
  match e.kind with
  | .transaction | .retriesExceeded => some (.responseRetriesExhausted e)
  | .storage | .queue | .overflow => some (.responseFailed e)
  | _ => none

variable {σ β : Type}

def refuse (e : Failure) : Action σ β Response :=
  match noticeOf e with
  | some n => do
    .note n
    pure (.ofFailure e)
  | none => pure (.ofFailure e)

end SyncCascade.Http
