import SyncCascade.Neighbours
import SyncCascade.Store.Call
import SyncCascade.Table
import SyncCascade.Word

/-!
# The database in memory

Four tables and the history. Every call is a function of the database; a call that fails gives no
database, so it cannot leave anything behind. Counts are compared with declared totals as 32-bit
words.
-/

namespace SyncCascade

structure Database where
  syncs : Table SyncId SyncRun
  files : Table FileId File
  entities : Table EntityKey Entity
  changesets : Table ChangesetId Changeset
  /-- The oldest row first. -/
  history : List EntityHistory
deriving DecidableEq

namespace Database

def empty : Database := ⟨.empty, .empty, .empty, .empty, []⟩

def filesOf (db : Database) (sync : SyncId) : List File :=
  db.files.rows.filter fun f => f.syncId = sync

/-- The first key an entity of the file can have. -/
def firstKey (file : FileId) : EntityKey := ⟨file, ⟨""⟩⟩

/-- The entities of a file stand together in the table, so the scan starts at the first key of the
file and ends with the file. -/
def entitiesOf (db : Database) (file : FileId) : List Entity :=
  ((db.entities.entries.dropWhile fun e => decide (e.1 < firstKey file)).takeWhile
    fun e => decide (e.1.file = file)).map Prod.snd

def rerunsOf (db : Database) (base : SyncId) : List SyncRun :=
  db.syncs.rows.filter fun s => s.baseSyncId = some base

/-- The later of two reruns; of two with one run number the second. -/
def laterRun (best : Option SyncRun) (s : SyncRun) : Option SyncRun :=
  match best with
  | none => some s
  | some b => if b.runNumber.toInt ≤ s.runNumber.toInt then some s else some b

def latestRerun (db : Database) (base : SyncId) : Option SyncRun :=
  (db.rerunsOf base).foldl laterRun none

def completedFiles (db : Database) (sync : SyncId) : Nat :=
  (db.filesOf sync).countP fun f => f.status = .completed

def resolvedEntities (db : Database) (file : FileId) : Nat :=
  (db.entitiesOf file).countP fun e => e.status.isResolved

def insertSync (db : Database) (s : SyncRun) : Except Failure Database :=
  match s.baseSyncId with
  | some base =>
    if db.syncs.contains base then insertNew db s else .error (.baseMissing base)
  | none => insertNew db s
where
  insertNew (db : Database) (s : SyncRun) : Except Failure Database :=
    if db.syncs.contains s.id then .error (.syncExists s.id)
    else .ok { db with syncs := db.syncs.insert s.id s }

def completeSync (now : Timestamp) (s : SyncRun) : SyncRun :=
  { s with status := .completed, endDate := some now }

/-- Whether the row `s` of the sync `id` is closable and declares as many files as are completed. -/
def syncCloses (db : Database) (id : SyncId) (s : SyncRun) : Bool :=
  s.status.isClosable && s.totalFiles == some (Int32.ofNat (db.completedFiles id))

def tryCloseSync (now : Timestamp) (db : Database) (id : SyncId) : List SyncId × Database :=
  match db.syncs.find? id with
  | none => ([], db)
  | some s =>
    if db.syncCloses id s then
      let closed := { db with syncs := db.syncs.modify id (completeSync now) }
      match closed.latestRerun id with
      | some r =>
        if r.status = .inProgress then
          ([id, r.id], { closed with syncs := closed.syncs.modify r.id (completeSync now) })
        else ([id], closed)
      | none => ([id], closed)
    else ([], db)

def loweredTotal (total : Int32) (count : Nat) : Int32 :=
  Int32.ofInt (max 0 (total.toInt - (min count (Word.limit 31 - 1) : Nat)))

def decrementTotalFiles (db : Database) (id : SyncId) (count : Nat) : Except Failure Database :=
  if db.syncs.contains id then
    .ok { db with syncs := db.syncs.modify id fun s =>
      { s with totalFiles := s.totalFiles.map fun total => loweredTotal total count } }
  else .error (.syncMissing id)

def insertFile (db : Database) (f : File) : Except Failure Database :=
  if !db.syncs.contains f.syncId then .error (.syncMissing f.syncId)
  else if db.files.contains f.fileId then .error (.fileExists f.fileId)
  else .ok { db with files := db.files.insert f.fileId f }

def completeFile (now : Timestamp) (f : File) : File :=
  { f with status := .completed, endDate := some now }

/-- Whether the row `f` of the file `id` is in progress and declares as many entities as are
resolved. -/
def fileCloses (db : Database) (id : FileId) (f : File) : Bool :=
  f.status == .inProgress && f.totalEntities == some (Int32.ofNat (db.resolvedEntities id))

def tryCloseFile (now : Timestamp) (db : Database) (id : FileId) : Option SyncId × Database :=
  match db.files.find? id with
  | none => (none, db)
  | some f =>
    if db.fileCloses id f then
      (some f.syncId, { db with files := db.files.modify id (completeFile now) })
    else (none, db)

/-- Whether the file belongs to the sync and owns no entity. -/
def isEmptyFileOf (db : Database) (sync : SyncId) (f : File) : Bool :=
  f.syncId = sync && (db.entitiesOf f.fileId).isEmpty

def deleteEmptyFiles (db : Database) (sync : SyncId) : Nat × Database :=
  (db.files.rows.countP (db.isEmptyFileOf sync),
    { db with files := db.files.filter fun _ f => !db.isEmptyFileOf sync f })

/-- Whether the file belongs to the sync, is not in progress and owns an entity not synced. -/
def reopens (db : Database) (sync : SyncId) (f : File) : Bool :=
  f.syncId = sync && f.status ≠ .inProgress &&
    (db.entitiesOf f.fileId).any fun e => e.status = .notSynced

def reopenFile (f : File) : File := { f with status := .inProgress, endDate := none }

def reopenFiles (db : Database) (sync : SyncId) : Nat × Database :=
  (db.files.rows.countP (db.reopens sync),
    { db with files := db.files.mapRows fun _ f => if db.reopens sync f then reopenFile f else f })

/-- The fault of the first entity that cannot be inserted after those with the keys `seen`. -/
def checkEntities (db : Database) : (seen : List EntityKey) → List Entity → Except Failure Unit
  | _, [] => .ok ()
  | seen, e :: rest =>
    if !db.files.contains e.fileId then .error (.fileMissing e.fileId)
    else
      match e.changesetId.filter fun c => !db.changesets.contains c with
      | some c => .error (.changesetMissing c)
      | none =>
        if db.entities.contains e.key || seen.contains e.key then
          .error (.entityExists e.entityId e.fileId)
        else checkEntities db (e.key :: seen) rest

def insertEntities (db : Database) (es : List Entity) : Except Failure Database :=
  match db.checkEntities [] es with
  | .error f => .error f
  | .ok () => .ok { db with entities := es.foldl (fun t e => t.insert e.key e) db.entities }

def patchEntity (db : Database) (id : EntityId) (file : FileId) (p : EntityPatch) :
    Except Failure Database :=
  match p.changesetId.filter fun c => !db.changesets.contains c with
  | some c => .error (.changesetMissing c)
  | none =>
    if db.entities.contains ⟨file, id⟩ then
      .ok { db with entities := db.entities.modify ⟨file, id⟩ p.apply }
    else .error (.entityMissing id file)

def inChangesets (ids : List ChangesetId) (e : Entity) : Bool :=
  match e.changesetId with
  | some c => ids.contains c
  | none => false

def marks (ids : List ChangesetId) (e : Entity) : Bool :=
  inChangesets ids e && e.status ≠ .completed

def markCompleted (db : Database) (ids : List ChangesetId) : Nat × Database :=
  (db.entities.rows.countP (marks ids),
    { db with entities := db.entities.mapRows fun _ e =>
        if marks ids e then { e with status := .completed } else e })

def hasStatus (db : Database) (statuses : List FileStatus) (file : FileId) : Bool :=
  match db.files.find? file with
  | some f => statuses.contains f.status
  | none => false

def findFiles (db : Database) (ids : List ChangesetId) (statuses : List FileStatus) : List FileId :=
  dropRepeats ((db.entities.entries.filter fun e =>
    inChangesets ids e.2 && db.hasStatus statuses e.1.file).map fun e => e.1.file)

def ownsFile (db : Database) (sync : SyncId) (file : FileId) : Bool :=
  match db.files.find? file with
  | some f => f.syncId = sync
  | none => false

def resets (db : Database) (sync : SyncId) (e : Entity) : Bool :=
  db.ownsFile sync e.fileId && e.status.isRerunnable

def resetEntity (e : Entity) : Entity :=
  { e with status := .inRerun, changesetId := none, failReason := none }

def resetEntities (db : Database) (sync : SyncId) : Nat × Database :=
  (db.entities.rows.countP (db.resets sync),
    { db with entities := db.entities.mapRows fun _ e =>
        if db.resets sync e then resetEntity e else e })

def insertChangeset (db : Database) (c : Changeset) : Except Failure Database :=
  if db.changesets.contains c.changesetId then .error (.changesetExists c.changesetId)
  else .ok { db with changesets := db.changesets.insert c.changesetId c }

def isArchived (db : Database) (rerun : SyncId) (e : Entity) : Bool :=
  db.history.any fun h => h.entityId = e.entityId && h.fileId = e.fileId &&
    (h.status = .completed || h.syncId = rerun)

def archiveRows (db : Database) (base rerun : SyncId) : List EntityHistory :=
  (db.entities.rows.filter fun e => db.ownsFile base e.fileId && !db.isArchived rerun e).map
    fun e => .archive e rerun base

def archiveEntities (db : Database) (base rerun : SyncId) : Nat × Database :=
  ((db.archiveRows base rerun).length,
    { db with history := db.history ++ db.archiveRows base rerun })

def historyOf (db : Database) (sync : SyncId) : List EntityHistory :=
  db.history.filter fun h => h.syncId = sync

/-- The reply to a call and the database after it. -/
def apply (now : Timestamp) (db : Database) :
    (c : StoreCall) → Except Failure (c.Reply × Database)
  | .findSync id => .ok (db.syncs.find? id, db)
  | .insertSync s => (db.insertSync s).map fun db' => ((), db')
  | .tryCloseSync id => .ok (db.tryCloseSync now id)
  | .latestRerun base => .ok (db.latestRerun base, db)
  | .decrementTotalFiles id n => (db.decrementTotalFiles id n).map fun db' => ((), db')
  | .findFile id => .ok (db.files.find? id, db)
  | .insertFile f => (db.insertFile f).map fun db' => ((), db')
  | .tryCloseFile id => .ok (db.tryCloseFile now id)
  | .deleteEmptyFiles s => .ok (db.deleteEmptyFiles s)
  | .reopenFiles s => .ok (db.reopenFiles s)
  | .findEntity id file => .ok (db.entities.find? ⟨file, id⟩, db)
  | .insertEntities es => (db.insertEntities es).map fun db' => ((), db')
  | .patchEntity id file p => (db.patchEntity id file p).map fun db' => ((), db')
  | .markCompleted ids => .ok (db.markCompleted ids)
  | .findFiles ids statuses => .ok (db.findFiles ids statuses, db)
  | .resetEntities s => .ok (db.resetEntities s)
  | .findChangeset id => .ok (db.changesets.find? id, db)
  | .insertChangeset c => (db.insertChangeset c).map fun db' => ((), db')
  | .archiveEntities base rerun => .ok (db.archiveEntities base rerun)
  | .history s => .ok (db.historyOf s, db)

end Database

end SyncCascade
