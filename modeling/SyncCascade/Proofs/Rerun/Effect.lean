import SyncCascade.Proofs.Rerun.Attempt

/-!
# What a rerun changes

`withRerun` is the database with a rerun in one piece: every change is told by the state before the
first step. The steps of an attempt come to the same in their order, since the files that are deleted
own nothing, the history is written before the entities are reset, and the files are reopened while
their entities are still not synced.
-/

namespace SyncCascade

namespace Database

attribute [ext] Database

variable {db view : Database} {base rerun : SyncId}

def unsyncedCount (db : Database) (file : FileId) : Nat :=
  db.entities.count fun k e => decide (k.file = file) && decide (e.status = .notSynced)

/-- The history has no row of the entity that is completed or belongs to the rerun. -/
def Unarchived (db : Database) (rerun : SyncId) (e : Entity) : Prop :=
  ∀ h ∈ db.history, h.entityId = e.entityId ∧ h.fileId = e.fileId →
    h.status ≠ .completed ∧ h.syncId ≠ rerun

instance (db : Database) (rerun : SyncId) (e : Entity) : Decidable (db.Unarchived rerun e) :=
  inferInstanceAs (Decidable (∀ h ∈ db.history, _))

/-- With the rerun of the base. Its files without entities are gone, and its total is lowered by their
number. Its other files that are closed and own an entity not synced are open again, and the entities of
its files that are not done are handed to the rerun, after those that are not archived were. -/
def withRerun (db : Database) (base : SyncId) (rerun : SyncRun) : Database where
  syncs := (db.syncs.modify base fun s =>
    { s with totalFiles := totalWithout (db.bareCount base) s.totalFiles }).insert rerun.id rerun
  files := (db.files.filter fun _ f => !db.bare base f).mapRows fun _ f =>
    if f.syncId = base ∧ f.status ≠ .inProgress ∧ 0 < db.unsyncedCount f.fileId then
      { f with status := .inProgress, endDate := none }
    else f
  entities := db.entities.mapRows fun _ e =>
    if db.ownsFile base e.fileId = true ∧
        (e.status = .inProgress ∨ e.status = .notSynced ∨ e.status = .failed) then
      { e with status := .inRerun, changesetId := none, failReason := none }
    else e
  changesets := db.changesets
  history := db.history ++ (db.entities.rows.filter fun e =>
    decide (db.ownsFile base e.fileId = true ∧ db.Unarchived rerun.id e)).map fun e =>
      { entityId := e.entityId
        fileId := e.fileId
        syncId := rerun.id
        baseSyncId := some base
        changesetId := e.changesetId
        status := e.status
        action := e.action
        failReason := e.failReason }

theorem find?_withRerun (db : Database) (base : SyncId) (rerun : SyncRun) (id : SyncId) :
    (db.withRerun base rerun).syncs.find? id =
      if id = rerun.id then some rerun
      else if id = base then (db.syncs.find? id).map fun s =>
        { s with totalFiles := totalWithout (db.bareCount base) s.totalFiles }
      else db.syncs.find? id := by
  unfold withRerun
  rw [Table.find?_insert, Table.find?_modify]

theorem withRerun_back {rerun : SyncRun} {id : SyncId} {s : SyncRun} (hne : id ≠ rerun.id)
    (hs : (db.withRerun base rerun).syncs.find? id = some s) :
    ∃ s₀, db.syncs.find? id = some s₀ ∧ s.id = s₀.id ∧ s.baseSyncId = s₀.baseSyncId ∧
      s.runNumber = s₀.runNumber := by
  rw [find?_withRerun, if_neg hne] at hs
  split at hs
  · obtain ⟨s₀, hs₀, rfl⟩ := Option.map_eq_some_iff.1 hs
    exact ⟨s₀, hs₀, rfl, rfl, rfl⟩
  · exact ⟨s, hs, rfl, rfl, rfl⟩

theorem find?_files_withRerun (db : Database) (base : SyncId) (rerun : SyncRun) (id : FileId) :
    (db.withRerun base rerun).files.find? id =
      ((db.files.find? id).filter fun f => !db.bare base f).map fun f =>
        if f.syncId = base ∧ f.status ≠ .inProgress ∧ 0 < db.unsyncedCount f.fileId then
          { f with status := .inProgress, endDate := none }
        else f := by
  unfold withRerun
  rw [Table.find?_mapRows, Table.find?_filter]

theorem find?_entities_withRerun (db : Database) (base : SyncId) (rerun : SyncRun) (k : EntityKey) :
    (db.withRerun base rerun).entities.find? k = (db.entities.find? k).map fun e =>
      if db.ownsFile base e.fileId = true ∧
          (e.status = .inProgress ∨ e.status = .notSynced ∨ e.status = .failed) then
        { e with status := .inRerun, changesetId := none, failReason := none }
      else e :=
  Table.find?_mapRows ..

/-- An entity belongs to the same sync before and after the trimming, for its file is not empty. -/
theorem ownsFile_trimmed (hdb : db.Keyed) {k : EntityKey} {e : Entity}
    (he : db.entities.find? k = some e) (base sync : SyncId) :
    (db.trimmed base).ownsFile sync e.fileId = db.ownsFile sync e.fileId := by
  unfold ownsFile trimmed
  rw [Table.find?_filter]
  cases hf : db.files.find? e.fileId with
  | none => rfl
  | some f =>
    have hfile : k.file = f.fileId :=
      (congrArg EntityKey.file (hdb.entities he)).symm.trans (hdb.files hf).symm
    have hcount : 0 < db.entityCount f.fileId := Table.count_pos he (decide_eq_true hfile)
    have hfilled : (!db.bare base f) = true := by simp [bare, Nat.ne_of_gt hcount]
    rw [Option.filter_some, if_pos hfilled]

theorem reopens_iff (hentities : view.entities = db.entities) (base : SyncId) (f : File) :
    view.reopens base f = true ↔
      f.syncId = base ∧ f.status ≠ .inProgress ∧ 0 < db.unsyncedCount f.fileId := by
  have hcount : db.unsyncedCount f.fileId =
      (view.entitiesOf f.fileId).countP fun e => decide (e.status = .notSynced) := by
    rw [countP_entitiesOf, hentities]
    rfl
  unfold reopens
  rw [hcount, List.countP_pos_iff, Bool.and_eq_true, Bool.and_eq_true, List.any_eq_true, and_assoc]
  simp

theorem isArchived_eq_false_iff (rerun : SyncId) (e : Entity) :
    db.isArchived rerun e = false ↔ db.Unarchived rerun e := by
  unfold isArchived Unarchived
  rw [List.any_eq_false]
  refine forall₂_congr fun h _ => ?_
  simp

theorem archiveRows_trimmed (hdb : db.Keyed) (base rerun : SyncId) :
    (db.trimmed base).archiveRows base rerun =
      (db.entities.rows.filter fun e =>
        decide (db.ownsFile base e.fileId = true ∧ db.Unarchived rerun e)).map fun e =>
          .archive e rerun base := by
  unfold archiveRows
  congr 1
  refine List.filter_congr fun e he => ?_
  obtain ⟨k, hk⟩ := Table.mem_rows.1 he
  have harchived : (db.trimmed base).isArchived rerun e = db.isArchived rerun e := rfl
  rw [ownsFile_trimmed hdb hk, harchived, Bool.eq_iff_iff, Bool.and_eq_true, Bool.not_eq_true',
    isArchived_eq_false_iff, decide_eq_true_eq]

theorem ownsFile_reopenFiles (db : Database) (base sync : SyncId) (file : FileId) :
    (db.reopenFiles base).2.ownsFile sync file = db.ownsFile sync file := by
  unfold ownsFile reopenFiles
  rw [Table.find?_mapRows]
  cases db.files.find? file with
  | none => rfl
  | some f =>
    rw [Option.map_some]
    dsimp only
    split <;> rfl

theorem resets_iff {db₁ db₂ : Database} {e : Entity}
    (howns : db₂.ownsFile base e.fileId = db₁.ownsFile base e.fileId) :
    db₂.resets base e = true ↔ db₁.ownsFile base e.fileId = true ∧
      (e.status = .inProgress ∨ e.status = .notSynced ∨ e.status = .failed) := by
  unfold resets EntityStatus.isRerunnable EntityStatus.rerunnable
  rw [howns, Bool.and_eq_true]
  simp

theorem files_prepared (db : Database) (base rerun : SyncId) :
    (db.prepared base rerun).files = db.files.mapRows fun _ f =>
      if (db.archiveEntities base rerun).2.reopens base f then reopenFile f else f := rfl

theorem entities_prepared (db : Database) (base rerun : SyncId) :
    (db.prepared base rerun).entities = db.entities.mapRows fun _ e =>
      if ((db.archiveEntities base rerun).2.reopenFiles base).2.resets base e then resetEntity e
      else e := rfl

theorem withRow_trimmed (hdb : db.Keyed) (base : SyncId) (rerun : SyncRun) :
    (db.trimmed base).withRow base rerun = db.withRerun base rerun := by
  have hfiles : ((db.trimmed base).prepared base rerun.id).files = (db.withRerun base rerun).files := by
    unfold withRerun
    rw [files_prepared]
    dsimp only
    refine Table.mapRows_congr fun _ f _ => ?_
    exact ite_congr (propext (reopens_iff rfl base f)) (fun _ => rfl) fun _ => rfl
  have hentities : ((db.trimmed base).prepared base rerun.id).entities =
      (db.withRerun base rerun).entities := by
    unfold withRerun
    rw [entities_prepared]
    dsimp only
    refine Table.mapRows_congr fun k e he => ?_
    have howns := (ownsFile_reopenFiles ((db.trimmed base).archiveEntities base rerun.id).2 base base
      e.fileId).trans (ownsFile_trimmed hdb he base base)
    exact ite_congr (propext (resets_iff howns)) (fun _ => rfl) fun _ => rfl
  have hhistory : ((db.trimmed base).prepared base rerun.id).history =
      (db.withRerun base rerun).history :=
    congrArg (db.history ++ ·) (archiveRows_trimmed hdb base rerun.id)
  exact Database.ext rfl hfiles hentities rfl hhistory

def highestNumber (db : Database) (base : SyncId) : Int :=
  ((db.rerunsOf base).map fun r => r.runNumber.toInt).max?.getD 0

theorem highestNumber_eq (db : Database) (base : SyncId) :
    db.highestNumber base = ((db.latestRerun base).map fun r => r.runNumber.toInt).getD 0 := by
  unfold highestNumber
  congr 1
  cases hlatest : db.latestRerun base with
  | none =>
    rw [latestRerun_eq_none hlatest]
    rfl
  | some r =>
    obtain ⟨hmem, hhighest⟩ := highestRerun_of_latestRerun hlatest
    rw [Option.map_some, List.max?_eq_some_iff]
    refine ⟨List.mem_map_of_mem hmem, fun number hnumber => ?_⟩
    obtain ⟨r', hr', rfl⟩ := List.mem_map.1 hnumber
    exact hhighest r' hr'

theorem le_highestNumber {r : SyncRun} (hr : r ∈ db.rerunsOf base) :
    r.runNumber.toInt ≤ db.highestNumber base := by
  rw [highestNumber_eq]
  cases hlatest : db.latestRerun base with
  | none =>
    rw [latestRerun_eq_none hlatest] at hr
    cases hr
  | some r' => exact (highestRerun_of_latestRerun hlatest).2 r hr

theorem toInt_nextNumber {number : Int32}
    (h : Rerun.nextNumber (db.latestRerun base) = .ok number) :
    number.toInt = db.highestNumber base + 1 := by
  rw [highestNumber_eq]
  exact Word.int32_eq_ok.1 h

end Database

namespace Rerun

open SyncCascade.Session

/-- Where files and entities stand under their keys, what is committed with a rerun is the database
before with it. -/
theorem committed_of_created {β : Type} (config : TransactionConfig) (base : SyncId)
    (request : RerunRequest) {w w' : World Session β} {sync : SyncRun}
    (hkeyed : w.store.committed.Keyed)
    (hrun : (create storage config base request).run w = (.ok (.created sync), w')) :
    w'.store.committed = w.store.committed.withRerun base sync := by
  have h : (create storage config base request).Ensures w _ _ :=
    create_ensures config ⟨⟨rfl, rfl⟩, rfl, rfl⟩
  unfold Action.Ensures at h
  rw [hrun] at h
  obtain ⟨db', hattempted, hhas, -, -⟩ := h
  cases hattempted with
  | created => exact hhas.trans (Database.withRow_trimmed hkeyed ..)

/-- When a rerun is created, of whatever database calls can make, the committed database is the one
before with the rerun. The new row is that of the base, but in progress, with the identifier, the start
and the metadata of the request, with the lowered total, and with the number after the highest. -/
theorem create_effect {β : Type} (config : TransactionConfig) (base : SyncId)
    (request : RerunRequest) {w w' : World Session β} {db : Database} {sync : SyncRun}
    (calls : List (Timestamp × StoreCall)) (hcalls : db = Database.empty.afterCalls calls)
    (hdb : w.store.committed = db)
    (hrun : (create storage config base request).run w = (.ok (.created sync), w')) :
    w'.store.committed = db.withRerun base sync ∧
      db.syncs.find? sync.id = none ∧
      sync.runNumber.toInt = db.highestNumber base + 1 ∧
      ∃ row, db.syncs.find? base = some row ∧
        sync =
          { id := request.id
            layerId := row.layerId
            geometryType := row.geometryType
            dumpDate := row.dumpDate
            startDate := request.startDate
            endDate := none
            status := .inProgress
            totalFiles := totalWithout (db.bareCount base) row.totalFiles
            isFull := row.isFull
            baseSyncId := some base
            runNumber := sync.runNumber
            metadata := request.metadata } := by
  have h : (create storage config base request).Ensures w _ _ :=
    create_ensures config ⟨⟨hdb, rfl⟩, rfl, rfl⟩
  unfold Action.Ensures at h
  rw [hrun] at h
  obtain ⟨db', hattempted, hhas, -, -⟩ := h
  have hkeyed : db.Keyed := hcalls ▸ Database.keyed_empty.afterCalls calls
  cases hattempted with
  | created hadmits hopen hnumber =>
    exact ⟨hhas.trans (Database.withRow_trimmed hkeyed ..), Table.contains_eq_false.1 hadmits.free,
      Database.toInt_nextNumber hnumber, _, hadmits.row_eq, rfl⟩

open Sample in
/-- The small sync declares three files, so two without the empty one, and gets its second rerun. -/
theorem create_effect_sample :
    let sync : SyncRun :=
      { baseRow 2 with
        id := request.id
        startDate := request.startDate
        status := .inProgress
        baseSyncId := some base
        runNumber := 2 }
    ∃ w', (create storage .default base request).run (world 3 1) = (.ok (.created sync), w') ∧
      w'.store.committed = (database 3).withRerun base sync := by
  intro sync
  have hanswer : ((create storage .default base request).run (world 3 1)).1 = .ok (.created sync) :=
    eq_ok_of_toOption (by decide +kernel)
  have hrun : (create storage .default base request).run (world 3 1) =
      (.ok (.created sync), ((create storage .default base request).run (world 3 1)).2) :=
    Prod.ext hanswer rfl
  exact ⟨_, hrun, (create_effect .default base request (calls 3) rfl rfl hrun).1⟩

end Rerun

end SyncCascade
