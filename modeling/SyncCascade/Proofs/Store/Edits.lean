import SyncCascade.Proofs.Store.Syncs

/-!
# Calls as edits in place

A unit of work edits its own copy of the database: every look and every write of a call takes place on
the copy as it stands, and a failure takes nothing back. Performed in this way a call still comes to
what `Database.apply` tells of it, because each call looks at all it has to look at before its first
write. So a call that fails leaves the copy as it was.
-/

namespace SyncCascade

/-- Looks at a copy of the database and writes to it; what is written before a failure stays. -/
abbrev Edit (α : Type) := ExceptT Failure (StateM Database) α

namespace Edit

variable {α γ κ : Type}

def run (e : Edit α) (db : Database) : Except Failure α × Database := e db

def ofFunction (f : Database → Except Failure α × Database) : Edit α := f

def look (f : Database → α) : Edit α := ofFunction fun db => (.ok (f db), db)

def write (f : Database → Database) : Edit Unit := ofFunction fun db => (.ok (), f db)

def refuse (e : Failure) : Edit α := ofFunction fun db => (.error e, db)

def demand (p : Database → Bool) (e : Failure) : Edit Unit := do
  if ← look p then pure ()
  else refuse e

def demandOf (o : Option κ) (p : κ → Database → Bool) (e : κ → Failure) : Edit Unit :=
  match o with
  | some k => demand (p k) (e k)
  | none => pure ()

def insertSync (s : SyncRun) : Edit Unit := do
  demandOf s.baseSyncId (fun base db => db.syncs.contains base) .baseMissing
  demand (fun db => !db.syncs.contains s.id) (.syncExists s.id)
  write fun db => { db with syncs := db.syncs.insert s.id s }

/-- The sync is closed before its latest rerun is looked up. -/
def tryCloseSync (now : Timestamp) (id : SyncId) : Edit (List SyncId) := do
  match ← look fun db => (db.syncs.find? id).filter (db.syncCloses id) with
  | none => pure []
  | some _ =>
    write fun db => db.withCompleted now id
    match (← look fun db => db.latestRerun id).filter fun r => r.status = .inProgress with
    | none => pure [id]
    | some r =>
      write fun db => db.withCompleted now r.id
      pure [id, r.id]

def decrementTotalFiles (id : SyncId) (count : Nat) : Edit Unit := do
  demand (fun db => db.syncs.contains id) (.syncMissing id)
  write fun db => { db with syncs := db.syncs.modify id fun s =>
    { s with totalFiles := s.totalFiles.map fun total => Database.loweredTotal total count } }

def insertFile (f : File) : Edit Unit := do
  demand (fun db => db.syncs.contains f.syncId) (.syncMissing f.syncId)
  demand (fun db => !db.files.contains f.fileId) (.fileExists f.fileId)
  write fun db => { db with files := db.files.insert f.fileId f }

def tryCloseFile (now : Timestamp) (id : FileId) : Edit (Option SyncId) := do
  match ← look fun db => (db.files.find? id).filter (db.fileCloses id) with
  | none => pure none
  | some f =>
    write fun db => { db with files := db.files.modify id (Database.completeFile now) }
    pure (some f.syncId)

def checkEach : (seen : List EntityKey) → List Entity → Edit Unit
  | _, [] => pure ()
  | seen, e :: rest => do
    demand (fun db => db.files.contains e.fileId) (.fileMissing e.fileId)
    demandOf e.changesetId (fun c db => db.changesets.contains c) .changesetMissing
    demand (fun db => !(db.entities.contains e.key || seen.contains e.key))
      (.entityExists e.entityId e.fileId)
    checkEach (e.key :: seen) rest

def storeEach : List Entity → Edit Unit
  | [] => pure ()
  | e :: rest => do
    write fun db => { db with entities := db.entities.insert e.key e }
    storeEach rest

/-- All entities are checked before the first is stored. -/
def insertEntities (es : List Entity) : Edit Unit := do
  checkEach [] es
  storeEach es

def patchEntity (id : EntityId) (file : FileId) (p : EntityPatch) : Edit Unit := do
  demandOf p.changesetId (fun c db => db.changesets.contains c) .changesetMissing
  demand (fun db => db.entities.contains ⟨file, id⟩) (.entityMissing id file)
  write fun db => { db with entities := db.entities.modify ⟨file, id⟩ p.apply }

def insertChangeset (c : Changeset) : Edit Unit := do
  demand (fun db => !db.changesets.contains c.changesetId) (.changesetExists c.changesetId)
  write fun db => { db with changesets := db.changesets.insert c.changesetId c }

def counted (f : Database → Nat × Database) : Edit Nat := do
  let count ← look fun db => (f db).1
  write fun db => (f db).2
  pure count

/-- A call as the unit of work performs it on its copy. -/
def perform (now : Timestamp) : (c : StoreCall) → Edit c.Reply
  | .findSync id => look fun db => db.syncs.find? id
  | .insertSync s => insertSync s
  | .tryCloseSync id => tryCloseSync now id
  | .latestRerun base => look fun db => db.latestRerun base
  | .decrementTotalFiles id n => decrementTotalFiles id n
  | .findFile id => look fun db => db.files.find? id
  | .insertFile f => insertFile f
  | .tryCloseFile id => tryCloseFile now id
  | .deleteEmptyFiles s => counted fun db => db.deleteEmptyFiles s
  | .reopenFiles s => counted fun db => db.reopenFiles s
  | .findEntity id file => look fun db => db.entities.find? ⟨file, id⟩
  | .insertEntities es => insertEntities es
  | .patchEntity id file p => patchEntity id file p
  | .markCompleted ids => counted fun db => db.markCompleted ids
  | .findFiles ids statuses => look fun db => db.findFiles ids statuses
  | .resetEntities s => counted fun db => db.resetEntities s
  | .findChangeset id => look fun db => db.changesets.find? id
  | .insertChangeset c => insertChangeset c
  | .archiveEntities base rerun => counted fun db => db.archiveEntities base rerun
  | .history s => look fun db => db.historyOf s

variable (db : Database)

theorem run_bind (e : Edit α) (k : α → Edit γ) :
    (e >>= k).run db =
      match e.run db with
      | (.ok a, db') => (k a).run db'
      | (.error f, db') => (.error f, db') := by
  change (ExceptT.bindCont k (e db).1 : StateM Database _) (e db).2 = _
  rw [run]
  obtain ⟨r, db'⟩ := e db
  cases r <;> rfl

theorem run_look_bind (f : Database → α) (k : α → Edit γ) :
    (look f >>= k).run db = (k (f db)).run db := run_bind db (look f) k

theorem run_write_bind (f : Database → Database) (k : Unit → Edit γ) :
    (write f >>= k).run db = (k ()).run (f db) := run_bind db (write f) k

theorem run_demand_bind (p : Database → Bool) (e : Failure) (k : Unit → Edit γ) :
    (demand p e >>= k).run db = if p db then (k ()).run db else (.error e, db) := by
  rw [run_bind, demand, run_look_bind]
  cases p db <;> rfl

theorem run_demandOf_bind (o : Option κ) (p : κ → Database → Bool) (e : κ → Failure)
    (k : Unit → Edit γ) :
    (demandOf o p e >>= k).run db =
      match o.filter fun a => !p a db with
      | some a => (.error (e a), db)
      | none => (k ()).run db := by
  cases o with
  | none => rfl
  | some a =>
    change (demand (p a) (e a) >>= k).run db = _
    rw [run_demand_bind, Option.filter]
    cases p a db <;> rfl

/-- Either all is written and answered, or the edit fails and nothing is written. -/
def ending : Except Failure (α × Database) → Except Failure α × Database
  | .ok (a, db') => (.ok a, db')
  | .error f => (.error f, db)

theorem run_insertSync (s : SyncRun) :
    (insertSync s).run db = ending db ((db.insertSync s).map fun db' => ((), db')) := by
  have hnew : (do
      demand (fun db => !db.syncs.contains s.id) (.syncExists s.id)
      write fun db => { db with syncs := db.syncs.insert s.id s } : Edit Unit).run db =
      ending db ((Database.insertSync.insertNew db s).map fun db' => ((), db')) := by
    rw [run_demand_bind, Database.insertSync.insertNew]
    cases db.syncs.contains s.id <;> rfl
  rw [insertSync, run_demandOf_bind, hnew, Database.insertSync]
  cases s.baseSyncId with
  | none => rfl
  | some base =>
    by_cases hbase : db.syncs.contains base = true
    · simp only [Option.filter, hbase, Bool.not_true, Bool.false_eq_true, if_false, if_true]
    · simp only [Option.filter, hbase, Bool.not_false, Bool.false_eq_true, if_false, if_true]
      rfl

theorem run_tryCloseSync (now : Timestamp) (id : SyncId) :
    (tryCloseSync now id).run db = ending db (.ok (db.tryCloseSync now id)) := by
  rw [tryCloseSync, run_look_bind, Database.tryCloseSync]
  cases db.syncs.find? id with
  | none => rfl
  | some s =>
    dsimp only [Option.filter]
    cases db.syncCloses id s with
    | false => rfl
    | true =>
      -- The latest rerun is that of the copy in which the sync is closed already.
      have hclosed : { db with syncs := db.syncs.modify id (Database.completeSync now) } =
          db.withCompleted now id := rfl
      change (write _ >>= _ : Edit (List SyncId)).run db = _
      rw [run_write_bind, run_look_bind, if_pos rfl, hclosed]
      cases (db.withCompleted now id).latestRerun id with
      | none => rfl
      | some r =>
        dsimp only [Option.filter]
        by_cases hr : r.status = .inProgress
        · rw [if_pos hr, if_pos (decide_eq_true hr)]
          rfl
        · rw [if_neg hr, if_neg (by simpa using hr)]
          rfl

theorem run_decrementTotalFiles (id : SyncId) (count : Nat) :
    (decrementTotalFiles id count).run db =
      ending db ((db.decrementTotalFiles id count).map fun db' => ((), db')) := by
  rw [decrementTotalFiles, run_demand_bind, Database.decrementTotalFiles]
  cases db.syncs.contains id <;> rfl

theorem run_insertFile (f : File) :
    (insertFile f).run db = ending db ((db.insertFile f).map fun db' => ((), db')) := by
  rw [insertFile, run_demand_bind, run_demand_bind, Database.insertFile]
  cases db.syncs.contains f.syncId with
  | false => rfl
  | true => cases db.files.contains f.fileId <;> rfl

theorem run_tryCloseFile (now : Timestamp) (id : FileId) :
    (tryCloseFile now id).run db = ending db (.ok (db.tryCloseFile now id)) := by
  rw [tryCloseFile, run_look_bind, Database.tryCloseFile]
  cases db.files.find? id with
  | none => rfl
  | some f =>
    dsimp only [Option.filter]
    cases db.fileCloses id f <;> rfl

theorem run_checkEach (seen : List EntityKey) (es : List Entity) :
    (checkEach seen es).run db = (db.checkEntities seen es, db) := by
  induction es generalizing seen with
  | nil => rfl
  | cons e rest ih =>
    rw [checkEach, run_demand_bind, run_demandOf_bind, run_demand_bind, ih, Database.checkEntities]
    cases db.files.contains e.fileId with
    | false => rfl
    | true =>
      cases e.changesetId.filter fun c => !db.changesets.contains c with
      | some c => rfl
      | none => cases db.entities.contains e.key || seen.contains e.key <;> rfl

theorem run_storeEach (es : List Entity) :
    (storeEach es).run db =
      (.ok (), { db with entities := es.foldl (fun t e => t.insert e.key e) db.entities }) := by
  induction es generalizing db with
  | nil => rfl
  | cons e rest ih =>
    rw [storeEach, run_write_bind, ih]
    rfl

theorem run_insertEntities (es : List Entity) :
    (insertEntities es).run db = ending db ((db.insertEntities es).map fun db' => ((), db')) := by
  rw [insertEntities, run_bind, run_checkEach, Database.insertEntities]
  cases db.checkEntities [] es with
  | error f => rfl
  | ok u => exact run_storeEach db es

theorem run_patchEntity (id : EntityId) (file : FileId) (p : EntityPatch) :
    (patchEntity id file p).run db =
      ending db ((db.patchEntity id file p).map fun db' => ((), db')) := by
  rw [patchEntity, run_demandOf_bind, run_demand_bind, Database.patchEntity]
  cases p.changesetId.filter fun c => !db.changesets.contains c with
  | some c => rfl
  | none =>
    dsimp only
    cases db.entities.contains ⟨file, id⟩ <;> rfl

theorem run_insertChangeset (c : Changeset) :
    (insertChangeset c).run db =
      ending db ((db.insertChangeset c).map fun db' => ((), db')) := by
  rw [insertChangeset, run_demand_bind, Database.insertChangeset]
  cases db.changesets.contains c.changesetId <;> rfl

/-- Performed in place, a call gives what the database as a value gives, and where it fails it has not
written anything. -/
theorem run_perform (now : Timestamp) (c : StoreCall) :
    (perform now c).run db = ending db (db.apply now c) := by
  cases c with
  | insertSync s => exact run_insertSync db s
  | tryCloseSync id => exact run_tryCloseSync db now id
  | decrementTotalFiles id n => exact run_decrementTotalFiles db id n
  | insertFile f => exact run_insertFile db f
  | tryCloseFile id => exact run_tryCloseFile db now id
  | insertEntities es => exact run_insertEntities db es
  | patchEntity id file p => exact run_patchEntity db id file p
  | insertChangeset c => exact run_insertChangeset db c
  | _ => rfl

end Edit

end SyncCascade
