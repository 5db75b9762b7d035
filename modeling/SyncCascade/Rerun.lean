import SyncCascade.RowJson
import SyncCascade.Transaction

/-!
# Reruns

A rerun is a new attempt at the unfinished part of a failed root sync. In one transaction the state
of the entities is archived, the files that own unsynced entities are reopened, the unfinished
entities are handed to the rerun, and the rerun is inserted. Files without entities are deleted
before; if that lets the base close, there is nothing to rerun.
-/

namespace SyncCascade

structure RerunRequest where
  id : SyncId
  startDate : Timestamp
  metadata : Option Json
deriving DecidableEq, Repr

inductive RerunOutcome where
  | created (sync : SyncRun)
  /-- Without its empty files the base could close. -/
  | notCreated (closed : List SyncId)
deriving DecidableEq, Repr

namespace Rerun

def isRerunConflict (base : SyncId) : Failure :=
  .conflict ("sync " ++ base.uuid.text ++ " is itself a rerun")

def statusConflict (base : SyncId) (status : SyncStatus) : Failure :=
  .conflict ("sync " ++ base.uuid.text ++ " is " ++ status.name ++
    ", only failed syncs can be rerun")

def progressConflict (base rerun : SyncId) : Failure :=
  .conflict ("sync " ++ base.uuid.text ++ " already has rerun " ++ rerun.uuid.text ++
    " in progress")

/-- Why the base cannot be rerun, given its row and its latest rerun. -/
def obstacle (base : SyncId) (row : SyncRun) (latest : Option SyncRun) : Option Failure :=
  if row.isRerun then some (isRerunConflict base)
  else if row.status ≠ .failed then some (statusConflict base row.status)
  else (latest.filter fun r => r.status = .inProgress).map fun r => progressConflict base r.id

def nextNumber (latest : Option SyncRun) : Except Failure Int32 :=
  Word.int32 ((latest.map fun r => r.runNumber.toInt).getD 0 + 1)

def newRow (base : SyncId) (row : SyncRun) (number : Int32) (totalFiles : Option Int32)
    (request : RerunRequest) : SyncRun where
  id := request.id
  layerId := row.layerId
  geometryType := row.geometryType
  dumpDate := row.dumpDate
  startDate := request.startDate
  endDate := none
  status := .inProgress
  totalFiles := totalFiles
  isFull := row.isFull
  baseSyncId := some base
  runNumber := number
  metadata := request.metadata

variable {σ β : Type} (S : Storage σ)

/-- Fails as the row of the base alone demands, before anything else is looked up. -/
def checkBase (base : SyncId) (row : SyncRun) : Action σ β Unit :=
  match obstacle base row none with
  | some f => .fail f
  | none => pure ()

def checkLatest (base : SyncId) (row : SyncRun) (latest : Option SyncRun) : Action σ β Unit :=
  match obstacle base row latest with
  | some f => .fail f
  | none => pure ()

/-- Numbers the rerun after the latest one, and inserts and reports it. -/
def insertNext (base : SyncId) (row : SyncRun) (latest : Option SyncRun) (totalFiles : Option Int32)
    (request : RerunRequest) (report : SyncRun → Notice) : Action σ β RerunOutcome := do
  let number ← .ofExcept (nextNumber latest)
  let rerun := newRow base row number totalFiles request
  Transaction.query S (.insertSync rerun)
  .note (report rerun)
  pure (.created rerun)

def build (base : SyncId) (row : SyncRun) (latest : Option SyncRun) (deleted : Nat)
    (request : RerunRequest) : Action σ β RerunOutcome := do
  let archived ← Transaction.query S (.archiveEntities base request.id)
  let reopened ← Transaction.query S (.reopenFiles base)
  let reset ← Transaction.query S (.resetEntities base)
  let totalFiles ←
    if deleted = 0 then pure row.totalFiles
    else do
      let reread ← Transaction.query S (.findSync base)
      pure (reread.bind SyncRun.totalFiles)
  insertNext S base row latest totalFiles request fun rerun =>
    .rerunCreated base rerun.id rerun.runNumber deleted archived reopened reset

def attempt (base : SyncId) (request : RerunRequest) : Action σ β RerunOutcome := do
  match ← Transaction.query S (.findSync base) with
  | none => .fail (.syncMissing base)
  | some row =>
    checkBase base row
    let latest ← Transaction.query S (.latestRerun base)
    checkLatest base row latest
    if (← Transaction.query S (.findSync request.id)).isSome then
      .fail (.syncExists request.id)
    else
      let deleted ← Transaction.query S (.deleteEmptyFiles base)
      if deleted = 0 then build S base row latest deleted request
      else
        Transaction.query S (.decrementTotalFiles base deleted)
        let closed ← Transaction.query S (.tryCloseSync base)
        if closed.isEmpty then build S base row latest deleted request
        else pure (.notCreated closed)

def create (config : TransactionConfig) (base : SyncId) (request : RerunRequest) :
    Action σ β RerunOutcome :=
  .announcing do
    let outcome ← Transaction.run S config ⟨"create_rerun", request.id.uuid.text⟩
      (attempt S base request)
    if let .notCreated _ := outcome then
      .note (.baseClosed base)
    pure outcome

end Rerun

open Json in
def RerunOutcome.toJson : RerunOutcome → Json
  | created sync => .object [("outcome", .string "created"), ("sync", sync.toJson)]
  | notCreated closed =>
    .object [("closed", .array (closed.map ofUuid)), ("outcome", .string "not_created")]

end SyncCascade
