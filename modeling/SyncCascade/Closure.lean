import SyncCascade.Queue
import SyncCascade.RowJson
import SyncCascade.Transaction

/-!
# The closure cascade

Closing changesets completes their entities and asks for the closure of the files they touch; closing
a file asks for the closure of its sync. Each step is one transaction, after which the next step is
published. A step that finds its target closed already publishes nothing.
-/

namespace SyncCascade

structure ChangesetClosure where
  /-- The files a closure was asked for. -/
  fileIds : List FileId
deriving DecidableEq, Repr

structure FileClosure where
  fileId : FileId
  /-- The owner of the file, if the file closed. -/
  syncId : Option SyncId
deriving DecidableEq, Repr

structure SyncClosure where
  syncId : SyncId
  /-- The sync and its latest rerun, as far as they closed. -/
  closed : List SyncId
deriving DecidableEq, Repr

/-- Where the closure engine works and how. -/
structure Engine (σ β : Type) where
  storage : Storage σ
  broker : Broker β
  transaction : TransactionConfig
  queue : QueueConfig

namespace Engine

variable {σ β : Type} (E : Engine σ β)

def push (kind : JobKind) (ids : List String) : Action σ β PushReport :=
  Queue.push E.broker E.queue kind ids

def transact {α : Type} (operation correlationId : String) (work : Action σ β α) : Action σ β α :=
  Transaction.run E.storage E.transaction ⟨operation, correlationId⟩ work

def query (c : StoreCall) : Action σ β c.Reply := Transaction.query E.storage c

def closeChangesets (ids : List ChangesetId) (correlationId : String) :
    Action σ β ChangesetClosure :=
  .announcing do
    let files ← E.transact "close_changesets" correlationId do
      let updated ← E.query (.markCompleted ids)
      .note (.entitiesCompleted updated)
      E.query (.findFiles ids [.inProgress])
    if !files.isEmpty then
      discard <| E.push .fileClosure (files.map Identifier.text)
    pure ⟨files⟩

def closeFile (id : FileId) (correlationId : String) : Action σ β FileClosure :=
  .announcing do
    let owner ← E.transact "close_file" correlationId (E.query (.tryCloseFile id))
    if let some sync := owner then
      .note (.fileClosed id sync)
      discard <| E.push .syncClosure [sync.uuid.text]
    pure ⟨id, owner⟩

def closeSync (id : SyncId) (correlationId : String) : Action σ β SyncClosure :=
  .announcing do
    let closed ← E.transact "close_sync" correlationId (E.query (.tryCloseSync id))
    if !closed.isEmpty then
      .note (.syncClosed id)
    pure ⟨id, closed⟩

end Engine

open Json

def ChangesetClosure.toJson (c : ChangesetClosure) : Json := .object [
  ("file_ids", .array (c.fileIds.map ofUuid)), ("invoked_files", ofNat c.fileIds.length)]

def FileClosure.toJson (c : FileClosure) : Json := .object [
  ("closed", .bool c.syncId.isSome), ("file_id", ofUuid c.fileId),
  ("sync_id", ofOption ofUuid c.syncId)]

def SyncClosure.toJson (c : SyncClosure) : Json := .object [
  ("closed", .array (c.closed.map ofUuid)), ("sync_id", ofUuid c.syncId)]

def Json.singleOrAll : List Json → Json
  | [j] => j
  | js => .array js

namespace Engine

variable {σ β : Type} (E : Engine σ β)

/-- The members of the job, if every one is an identifier; otherwise the fault of the first that is
none. -/
def parseMembers {α : Type} [Identifier α] : List String → Except Failure (List α)
  | [] => .ok []
  | s :: rest => do
    let a ← Identifier.parse s
    let as ← parseMembers rest
    pure (a :: as)

def each {α ρ : Type} (step : α → Action σ β ρ) : List α → Action σ β (List ρ)
  | [] => pure []
  | a :: rest => do
    let r ← step a
    let rs ← each step rest
    pure (r :: rs)

/-- The step for the kind of the job on its members: on all changesets at once, on files and syncs
one after another. -/
def handle (job : JobPayload) : Action σ β Json :=
  match job.kind with
  | .changesetClosure => do
    let ids ← .ofExcept (parseMembers job.memberIds)
    return (← E.closeChangesets ids job.id).toJson
  | .fileClosure => do
    let ids ← .ofExcept (parseMembers job.memberIds)
    let results ← each (fun id => E.closeFile id job.id) ids
    return Json.singleOrAll (results.map FileClosure.toJson)
  | .syncClosure => do
    let ids ← .ofExcept (parseMembers job.memberIds)
    let results ← each (fun id => E.closeSync id job.id) ids
    return Json.singleOrAll (results.map SyncClosure.toJson)

end Engine

end SyncCascade
