import SyncCascade.Http.Body
import SyncCascade.Http.MediaType
import SyncCascade.Http.Percent
import SyncCascade.Http.Route
import SyncCascade.Service

/-!
# Answering requests

Health and metrics are read; closures are pushed to their lane under the written form of their ids; a
rerun is created at once.
-/

namespace SyncCascade.Http

open Json

variable {σ β : Type} (S : Service σ β)

def health : Action σ β Response := do
  match ← S.ping.attempt with
  | .ok () => pure (.empty 200)
  | .error e => pure (.error 503 "unavailable" e.message)

/-- The report of a lane, which puts the lane into the metrics. -/
def reportLane (lane : Lane) (counts : LaneCounts) : Action σ β Json := do
  .touch lane
  let w ← Action.world
  pure (.object [("counts", counts.toJson), ("lane", .string lane.name),
    ("metrics", Metrics.laneJson lane.name (w.metrics.lane lane.name))])

def reportLanes : List (Lane × LaneCounts) → Action σ β (List Json)
  | [] => pure []
  | (lane, counts) :: rest => do
    let report ← reportLane lane counts
    let others ← reportLanes rest
    pure (report :: others)

def metrics : Action σ β Response := do
  match ← (S.countLanes Lane.all).attempt with
  | .ok counts => pure (.json 200 (.object [("lanes", .array (← reportLanes counts))]))
  | .error e => refuse e

/-- The written forms of ids, if every one is an identifier of the type. -/
def canonicalIds (α : Type) [Identifier α] : List String → Except Failure (List String)
  | [] => .ok []
  | s :: rest => do
    let id ← Identifier.parse (α := α) s
    let others ← canonicalIds α rest
    pure (Identifier.text id :: others)

def canonicalTargets : JobKind → List String → Except Failure (List String)
  | .changesetClosure => canonicalIds ChangesetId
  | .fileClosure => canonicalIds FileId
  | .syncClosure => canonicalIds SyncId

def acceptsJson (contentType : Option String) : Bool :=
  match contentType.bind MediaType.parse? with
  | some m => m.isJson
  | none => false

def queued (kind : JobKind) (report : PushReport) : Response :=
  .json 201 (.object [("deduplicated", ofStrings report.deduplicated),
    ("enqueued", ofStrings report.enqueued), ("lane", .string kind.lane.name)])

section Closures

variable (E : Engine σ β)

def pushClosure (kind : JobKind) (body : ClosureBody) : Action σ β Response :=
  if body.ids.isEmpty then pure (.error 400 "invalid_payload" "ids must not be empty")
  else
    match canonicalTargets kind body.ids with
    | .error e => refuse e
    | .ok ids => do
      match ← (E.push kind ids).attempt with
      | .ok report => pure (queued kind report)
      | .error e => refuse e

/-- A body that is no JSON is told from one of another shape; text after the first value does not
matter. -/
def closure (kind : JobKind) (r : Request) : Action σ β Response :=
  if acceptsJson r.contentType then
    match decodeFirst ClosureBody.decoder r.body.toList with
    | .ok body => pushClosure E kind body
    | .error .malformed => pure (.empty 400)
    | .error .mistyped => pure (.empty 422)
  else pure (.empty 415)

end Closures

def createRerun (base : SyncId) (request : RerunRequest) : Action σ β Response := do
  match ← (S.createRerun base request).attempt with
  | .ok (.created sync) =>
    pure (.json 201 (.object [("created", .bool true), ("sync", sync.toJson)]))
  | .ok (.notCreated closed) =>
    pure (.json 200 (.object [("closed", .array (closed.map ofUuid)), ("created", .bool false)]))
  | .error e => refuse e

/-- A rerun of the sync that the segment names; without an id in the body it is called `fresh`. -/
def rerun (fresh : SyncId) (segment : String) (r : Request) : Action σ β Response :=
  match Percent.decode? segment with
  | none => pure (.empty 400)
  | some name =>
    match Identifier.parse (α := SyncId) name with
    | .error e => refuse e
    | .ok base =>
      match RerunBody.parse r.body with
      | .error e => refuse e
      | .ok body => do
        let now := (← Action.world).clock.wall
        createRerun S base ⟨body.id.getD fresh, body.startDate.getD now, body.metadata⟩

/-- The response to a request; a rerun that needs a new id is called `fresh`. -/
def respond (fresh : SyncId) (r : Request) : Action σ β Response :=
  match Route.ofTarget? r.target with
  | none => pure (.empty 404)
  | some route =>
    if route.allows r.method then do
      let response ←
        match route with
        | .health => health S
        | .metrics => metrics S
        | .closure kind => closure S.engine kind r
        | .rerun segment => rerun S fresh segment r
      pure (if r.method = "HEAD" then .empty response.status else response)
    else pure (.empty 405)

end SyncCascade.Http
