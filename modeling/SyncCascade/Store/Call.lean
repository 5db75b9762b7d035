import SyncCascade.RowJson

/-!
# Calls of a store

Everything a unit of work may ask of a store, and what it is told. Counts of rows are numbers.
-/

namespace SyncCascade

inductive StoreCall where
  | findSync (id : SyncId)
  /-- The base must be there, the identifier must not. -/
  | insertSync (sync : SyncRun)
  /-- Close the sync if it is closable and as many of its files are completed as it declares, and
  with it its latest rerun if that is in progress. Tells which closed. -/
  | tryCloseSync (id : SyncId)
  /-- The rerun of the base with the highest run number. -/
  | latestRerun (base : SyncId)
  /-- Lower the declared total, not below zero. -/
  | decrementTotalFiles (id : SyncId) (count : Nat)
  | findFile (id : FileId)
  | insertFile (file : File)
  /-- Close the file if it is in progress and as many of its entities are resolved as it declares.
  Tells the sync that owns a closed file. -/
  | tryCloseFile (id : FileId)
  /-- Delete the files of the sync that own no entity. -/
  | deleteEmptyFiles (sync : SyncId)
  /-- Reopen the files of the sync that own an entity that was not synced. -/
  | reopenFiles (sync : SyncId)
  | findEntity (id : EntityId) (file : FileId)
  | insertEntities (entities : List Entity)
  | patchEntity (id : EntityId) (file : FileId) (patch : EntityPatch)
  /-- Complete the entities of the changesets. -/
  | markCompleted (changesets : List ChangesetId)
  /-- The files with one of the statuses that own an entity of the changesets. -/
  | findFiles (changesets : List ChangesetId) (statuses : List FileStatus)
  /-- Hand the unfinished entities of the sync to a rerun. -/
  | resetEntities (sync : SyncId)
  | findChangeset (id : ChangesetId)
  | insertChangeset (changeset : Changeset)
  /-- Archive the entities of the base for the rerun, except for those archived as completed. -/
  | archiveEntities (base rerun : SyncId)
  | history (sync : SyncId)
deriving DecidableEq, Repr

abbrev StoreCall.Reply : StoreCall → Type
  | findSync _ => Option SyncRun
  | insertSync _ => Unit
  | tryCloseSync _ => List SyncId
  | latestRerun _ => Option SyncRun
  | decrementTotalFiles .. => Unit
  | findFile _ => Option File
  | insertFile _ => Unit
  | tryCloseFile _ => Option SyncId
  | deleteEmptyFiles _ => Nat
  | reopenFiles _ => Nat
  | findEntity .. => Option Entity
  | insertEntities _ => Unit
  | patchEntity .. => Unit
  | markCompleted _ => Nat
  | findFiles .. => List FileId
  | resetEntities _ => Nat
  | findChangeset _ => Option Changeset
  | insertChangeset _ => Unit
  | archiveEntities .. => Nat
  | history _ => List EntityHistory

open Json in
def StoreCall.replyJson : (c : StoreCall) → c.Reply → Json
  | findSync _, r => ofOption SyncRun.toJson r
  | insertSync _, _ => .null
  | tryCloseSync _, r => .array (r.map ofUuid)
  | latestRerun _, r => ofOption SyncRun.toJson r
  | decrementTotalFiles .., _ => .null
  | findFile _, r => ofOption File.toJson r
  | insertFile _, _ => .null
  | tryCloseFile _, r => ofOption ofUuid r
  | deleteEmptyFiles _, r => ofNat r
  | reopenFiles _, r => ofNat r
  | findEntity .., r => ofOption Entity.toJson r
  | insertEntities _, _ => .null
  | patchEntity .., _ => .null
  | markCompleted _, r => ofNat r
  | findFiles .., r => .array (r.map ofUuid)
  | resetEntities _, r => ofNat r
  | findChangeset _, r => ofOption Changeset.toJson r
  | insertChangeset _, _ => .null
  | archiveEntities .., r => ofNat r
  | history _, r => .array (r.map EntityHistory.toJson)

namespace Failure

def syncMissing (id : SyncId) : Failure := .notFound ("sync " ++ id.uuid.text)

def baseMissing (id : SyncId) : Failure := .notFound ("base sync " ++ id.uuid.text)

def syncExists (id : SyncId) : Failure := .alreadyExists ("sync " ++ id.uuid.text)

def fileMissing (id : FileId) : Failure := .notFound ("file " ++ id.uuid.text)

def fileExists (id : FileId) : Failure := .alreadyExists ("file " ++ id.uuid.text)

def changesetMissing (id : ChangesetId) : Failure := .notFound ("changeset " ++ id.uuid.text)

def changesetExists (id : ChangesetId) : Failure := .alreadyExists ("changeset " ++ id.uuid.text)

def entityName (id : EntityId) (file : FileId) : String :=
  "entity " ++ id.text ++ " in file " ++ file.uuid.text

def entityMissing (id : EntityId) (file : FileId) : Failure := .notFound (entityName id file)

def entityExists (id : EntityId) (file : FileId) : Failure := .alreadyExists (entityName id file)

end Failure

end SyncCascade
