import SyncCascade.Broker.Memory
import SyncCascade.Http.Handler
import SyncCascade.Store.Session

/-!
# A service that is talked to in lines

Each line is an inquiry: a request and the moment at which it is made. The service keeps everything
in memory; its workers run from one inquiry to the next.
-/

namespace SyncCascade

structure Inquiry where
  /-- In milliseconds since 1970. -/
  now : Nat
  request : Http.Request
deriving DecidableEq, Repr

open Json in
def Inquiry.decoder : Decoder Inquiry := fun depth n => do
  let f ← Fields.openRecord ["now_ms", "method", "path", "content_type", "body"] true depth n
  let now ← f.required "now_ms" Decode.uint64
  let method ← f.required "method" Decode.string
  let path ← f.required "path" Decode.string
  let contentType ← f.optional "content_type" Decode.string
  let body ← f.optional "body" Decode.string
  f.close ⟨now, ⟨method, path, contentType, body.getD ""⟩⟩

structure Console where
  settings : Settings
  world : World Session Lanes
  /-- How many inquiries there were. -/
  inquiries : Nat

namespace Console

def ofSettings (s : Settings) : Console := ⟨s, .initial (.ofDatabase .empty) .empty, 0⟩

def service (c : Console) : Service Session Lanes := ⟨Session.storage, Lanes.broker, c.settings⟩

/-- The id of a rerun whose request leaves the choice to the service. -/
def freshId (c : Console) (now : Nat) : SyncId := ⟨.timeOrdered now c.inquiries⟩

/-- Lets the workers run until the moment of the inquiry, unless that has passed, and answers. -/
def respond (c : Console) (q : Inquiry) : Except Failure Http.Response × Console :=
  let wall := Timestamp.ofMillis q.now
  let passed := (wall.toMillis - c.world.clock.wall.toMillis).toNat
  let idle := if c.inquiries = 0 then 0 else passed
  let start := { c.world with clock := { c.world.clock with wall := wall }, journal := #[] }
  let (_, ready) := (Crew.work (Lane.all.map c.service.worker) idle).run start
  let (response, done) := (Http.respond c.service (c.freshId q.now) q.request).run ready
  (response, { c with world := done, inquiries := c.inquiries + 1 })

def report (line : String) (c : Console) : Json × Console :=
  match Json.decode Inquiry.decoder line.toList with
  | .error _ => (.object [("error", .string "no inquiry in this line")], c)
  | .ok q =>
    let (result, c) := c.respond q
    let response :=
      match result with
      | .ok r => r
      | .error e => .ofFailure e
    (.object [("response", response.toJson),
      ("journal", .array (c.world.journal.toList.map Notice.toJson))], c)

end Console

end SyncCascade
