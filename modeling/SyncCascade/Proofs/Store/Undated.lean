import SyncCascade.Proofs.Store.Readiness

/-!
# Databases without end dates

When a file or a sync is closed at another time, only its end date differs. What may be closed does not
depend on end dates, so databases that agree in everything else stay so, whenever their files and syncs
are closed. A target that was tried once has nothing left to close: it is refused from then on, whatever
is closed in between.
-/

namespace SyncCascade

def SyncRun.undated (s : SyncRun) : SyncRun := { s with endDate := none }

def File.undated (f : File) : File := { f with endDate := none }

namespace Database

/-- Every row but for its end date. -/
def undated (db : Database) : Database :=
  { db with
    syncs := db.syncs.mapRows fun _ s => s.undated
    files := db.files.mapRows fun _ f => f.undated }

variable {db e : Database} {now now' : Timestamp}

theorem undated_entities (h : db.undated = e.undated) : db.entities = e.entities :=
  (congrArg (·.entities) h : db.undated.entities = e.undated.entities)

theorem undated_files (h : db.undated = e.undated) :
    (db.files.mapRows fun _ f => f.undated) = e.files.mapRows fun _ f => f.undated :=
  (congrArg (·.files) h : db.undated.files = e.undated.files)

theorem undated_syncs (h : db.undated = e.undated) :
    (db.syncs.mapRows fun _ s => s.undated) = e.syncs.mapRows fun _ s => s.undated :=
  (congrArg (·.syncs) h : db.undated.syncs = e.undated.syncs)

theorem find?_file_undated (h : db.undated = e.undated) (id : FileId) :
    (db.files.find? id).map File.undated = (e.files.find? id).map File.undated := by
  have hfind := congrArg (fun t => t.find? id) (undated_files h)
  simpa only [Table.find?_mapRows] using hfind

theorem find?_sync_undated (h : db.undated = e.undated) (id : SyncId) :
    (db.syncs.find? id).map SyncRun.undated = (e.syncs.find? id).map SyncRun.undated := by
  have hfind := congrArg (fun t => t.find? id) (undated_syncs h)
  simpa only [Table.find?_mapRows] using hfind

theorem fileCloses_undated (h : db.undated = e.undated) {f g : File} (hfg : f.undated = g.undated)
    (id : FileId) : db.fileCloses id f = e.fileCloses id g := by
  have hstatus : f.status = g.status :=
    (congrArg (·.status) hfg : f.undated.status = g.undated.status)
  have htotal : f.totalEntities = g.totalEntities :=
    (congrArg (·.totalEntities) hfg : f.undated.totalEntities = g.undated.totalEntities)
  have hresolved : db.resolvedEntities id = e.resolvedEntities id := by
    unfold resolvedEntities entitiesOf
    rw [undated_entities h]
  unfold fileCloses
  rw [hstatus, htotal, hresolved]

theorem undated_completeFile (h : db.undated = e.undated) (id : FileId) :
    ({ db with files := db.files.modify id (completeFile now) } : Database).undated =
      ({ e with files := e.files.modify id (completeFile now') } : Database).undated := by
  have hmodify : ∀ (d : Database) (now : Timestamp),
      ({ d with files := d.files.modify id (completeFile now) } : Database).undated =
        { d.undated with
          files := d.undated.files.modify id fun f => { f with status := .completed } } := by
    intro d now
    exact congrArg (fun files => ({ d.undated with files := files } : Database))
      (Table.mapRows_modify d.files id fun _ => rfl)
  rw [hmodify, hmodify, h]

theorem tryCloseFile_undated (now now' : Timestamp) (h : db.undated = e.undated) (id : FileId) :
    (db.tryCloseFile now id).1 = (e.tryCloseFile now' id).1 ∧
      (db.tryCloseFile now id).2.undated = (e.tryCloseFile now' id).2.undated := by
  have hrow := find?_file_undated h id
  unfold tryCloseFile
  cases hf : db.files.find? id with
  | none =>
    rw [hf, Option.map_none, eq_comm, Option.map_eq_none_iff] at hrow
    rw [hrow]
    exact ⟨rfl, h⟩
  | some f =>
    rw [hf, Option.map_some, eq_comm, Option.map_eq_some_iff] at hrow
    obtain ⟨g, hg, hgf⟩ := hrow
    rw [hg]
    dsimp only
    rw [fileCloses_undated h hgf.symm]
    split
    · have howner : g.syncId = f.syncId :=
        (congrArg (·.syncId) hgf : g.undated.syncId = f.undated.syncId)
      exact ⟨congrArg some howner.symm, undated_completeFile h id⟩
    · exact ⟨rfl, h⟩

def FileSettled (db : Database) (id : FileId) : Prop :=
  ∀ f, db.files.find? id = some f → db.fileCloses id f = false

theorem tryCloseFile_of_settled {id : FileId} (h : db.FileSettled id) (now : Timestamp) :
    db.tryCloseFile now id = (none, db) := by
  have hclosing := tryCloseFile_closing now db id
  generalize hout : db.tryCloseFile now id = out at hclosing
  obtain ⟨owner, db'⟩ := out
  cases hclosing with
  | refused => rfl
  | closed hf hcloses =>
    rw [h _ hf] at hcloses
    cases hcloses

theorem tryCloseFile_settled (now : Timestamp) (db : Database) (id : FileId) :
    (db.tryCloseFile now id).2.FileSettled id := by
  have hclosing := tryCloseFile_closing now db id
  generalize (db.tryCloseFile now id).1 = owner at hclosing
  generalize (db.tryCloseFile now id).2 = db' at hclosing ⊢
  cases hclosing with
  | refused hrefused => exact hrefused
  | closed hf hcloses =>
    intro f' hf'
    rw [Table.find?_modify, if_pos rfl, hf] at hf'
    cases hf'
    rfl

theorem FileSettled.tryCloseFile {id : FileId} (h : db.FileSettled id) (now : Timestamp)
    (id' : FileId) : (db.tryCloseFile now id').2.FileSettled id := by
  have hclosing := tryCloseFile_closing now db id'
  generalize (db.tryCloseFile now id').1 = owner at hclosing
  generalize (db.tryCloseFile now id').2 = db' at hclosing ⊢
  cases hclosing with
  | refused => exact h
  | closed =>
    intro f' hf'
    rw [Table.find?_modify] at hf'
    split at hf'
    · obtain ⟨f, -, rfl⟩ := Option.map_eq_some_iff.1 hf'
      rfl
    · exact h f' hf'

theorem completedFiles_undated (h : db.undated = e.undated) (id : SyncId) :
    db.completedFiles id = e.completedFiles id := by
  have hundated : ∀ d : Database, d.completedFiles id = d.undated.completedFiles id := by
    intro d
    rw [completedFiles_eq, completedFiles_eq]
    exact (Table.count_mapRows d.files (fun _ f => f.undated)
      fun _ f => decide (f.syncId = id) && decide (f.status = .completed)).symm
  rw [hundated, hundated e, h]

theorem syncCloses_undated (h : db.undated = e.undated) {s t : SyncRun}
    (hst : s.undated = t.undated) (id : SyncId) : db.syncCloses id s = e.syncCloses id t := by
  have hstatus : s.status = t.status :=
    (congrArg (·.status) hst : s.undated.status = t.undated.status)
  have htotal : s.totalFiles = t.totalFiles :=
    (congrArg (·.totalFiles) hst : s.undated.totalFiles = t.undated.totalFiles)
  unfold syncCloses
  rw [hstatus, htotal, completedFiles_undated h]

theorem withCompleted_undated (h : db.undated = e.undated) (id : SyncId) :
    (db.withCompleted now id).undated = (e.withCompleted now' id).undated := by
  have hmodify : ∀ (d : Database) (now : Timestamp), (d.withCompleted now id).undated =
      { d.undated with
        syncs := d.undated.syncs.modify id fun s => { s with status := .completed } } := by
    intro d now
    exact congrArg (fun syncs => ({ d.undated with syncs := syncs } : Database))
      (Table.mapRows_modify d.syncs id fun _ => rfl)
  rw [hmodify, hmodify, h]

theorem foldl_laterRun_undated (runs : List SyncRun) (best : Option SyncRun) :
    (runs.foldl laterRun best).map SyncRun.undated =
      (runs.map SyncRun.undated).foldl laterRun (best.map SyncRun.undated) := by
  induction runs generalizing best with
  | nil => rfl
  | cons s rest ih =>
    have hlater : (laterRun best s).map SyncRun.undated =
        laterRun (best.map SyncRun.undated) s.undated := by
      cases best with
      | none => rfl
      | some b => exact apply_ite (Option.map SyncRun.undated) _ _ _
    rw [List.foldl_cons, ih, hlater, List.map_cons, List.foldl_cons]

theorem latestRerun_undated (h : db.undated = e.undated) (base : SyncId) :
    (db.latestRerun base).map SyncRun.undated = (e.latestRerun base).map SyncRun.undated := by
  have hundated : ∀ d : Database,
      (d.latestRerun base).map SyncRun.undated = d.undated.latestRerun base := by
    intro d
    have hreruns : (d.rerunsOf base).map SyncRun.undated = d.undated.rerunsOf base := by
      unfold rerunsOf undated
      rw [Table.rows_mapRows, Table.rows, List.filter_map, List.filter_map, List.map_map]
      rfl
    unfold latestRerun
    rw [foldl_laterRun_undated, hreruns]
    rfl
  rw [hundated, hundated e, h]

theorem tryCloseSync_undated (now now' : Timestamp) (h : db.undated = e.undated) (id : SyncId) :
    (db.tryCloseSync now id).1 = (e.tryCloseSync now' id).1 ∧
      (db.tryCloseSync now id).2.undated = (e.tryCloseSync now' id).2.undated := by
  have hrow := find?_sync_undated h id
  have hclosed : (db.withCompleted now id).undated = (e.withCompleted now' id).undated :=
    withCompleted_undated h id
  have hlatest := latestRerun_undated hclosed id
  unfold withCompleted at hclosed hlatest
  unfold tryCloseSync
  cases hs : db.syncs.find? id with
  | none =>
    rw [hs, Option.map_none, eq_comm, Option.map_eq_none_iff] at hrow
    rw [hrow]
    exact ⟨rfl, h⟩
  | some s =>
    rw [hs, Option.map_some, eq_comm, Option.map_eq_some_iff] at hrow
    obtain ⟨t, ht, hts⟩ := hrow
    rw [ht]
    dsimp only
    rw [syncCloses_undated h hts.symm]
    split
    next =>
      -- Both databases have the sync completed now; what is left is their latest reruns.
      generalize latestRerun _ id = r at hlatest ⊢
      generalize latestRerun _ id = r' at hlatest ⊢
      cases r with
      | none =>
        rw [Option.map_none, eq_comm, Option.map_eq_none_iff] at hlatest
        rw [hlatest]
        exact ⟨rfl, hclosed⟩
      | some r =>
        rw [Option.map_some, eq_comm, Option.map_eq_some_iff] at hlatest
        obtain ⟨r', rfl, hr⟩ := hlatest
        have hid : r'.id = r.id := (congrArg (·.id) hr : r'.undated.id = r.undated.id)
        have hstatus : r'.status = r.status :=
          (congrArg (·.status) hr : r'.undated.status = r.undated.status)
        dsimp only
        rw [hstatus, hid]
        split
        · exact ⟨rfl, withCompleted_undated hclosed r.id⟩
        · exact ⟨rfl, hclosed⟩
    next => exact ⟨rfl, h⟩

def SyncSettled (db : Database) (id : SyncId) : Prop :=
  ∀ s, db.syncs.find? id = some s → db.syncCloses id s = false

theorem tryCloseSync_of_settled {id : SyncId} (h : db.SyncSettled id) (now : Timestamp) :
    db.tryCloseSync now id = ([], db) := by
  have hclosing := tryCloseSync_closing now db id
  generalize hout : db.tryCloseSync now id = out at hclosing
  obtain ⟨closed, db'⟩ := out
  cases hclosing with
  | refused => rfl
  | alone hs hcloses => exact absurd hcloses (Bool.eq_false_iff.1 (h _ hs))
  | withRerun hs hcloses => exact absurd hcloses (Bool.eq_false_iff.1 (h _ hs))

theorem SyncSettled.withCompleted {id : SyncId} (h : db.SyncSettled id) (now : Timestamp)
    (id' : SyncId) : (db.withCompleted now id').SyncSettled id := by
  intro s' hs'
  rw [find?_withCompleted] at hs'
  split at hs'
  · obtain ⟨s, -, rfl⟩ := Option.map_eq_some_iff.1 hs'
    rfl
  · exact h s' hs'

theorem withCompleted_settled (now : Timestamp) (db : Database) (id : SyncId) :
    (db.withCompleted now id).SyncSettled id := by
  intro s' hs'
  rw [find?_withCompleted, if_pos rfl] at hs'
  obtain ⟨s, -, rfl⟩ := Option.map_eq_some_iff.1 hs'
  rfl

theorem tryCloseSync_settled (now : Timestamp) (db : Database) (id : SyncId) :
    (db.tryCloseSync now id).2.SyncSettled id := by
  have hclosing := tryCloseSync_closing now db id
  generalize (db.tryCloseSync now id).1 = closed at hclosing
  generalize (db.tryCloseSync now id).2 = db' at hclosing ⊢
  cases hclosing with
  | refused hrefused => exact hrefused
  | alone => exact withCompleted_settled now db id
  | withRerun => exact (withCompleted_settled now db id).withCompleted now _

/-- A sync that cannot be closed, cannot be closed either after another one was, though that one may
have closed it. -/
theorem SyncSettled.tryCloseSync {id : SyncId} (h : db.SyncSettled id) (now : Timestamp)
    (id' : SyncId) : (db.tryCloseSync now id').2.SyncSettled id := by
  have hclosing := tryCloseSync_closing now db id'
  generalize (db.tryCloseSync now id').1 = closed at hclosing
  generalize (db.tryCloseSync now id').2 = db' at hclosing ⊢
  cases hclosing with
  | refused => exact h
  | alone => exact h.withCompleted now id'
  | withRerun => exact (h.withCompleted now id').withCompleted now _

theorem markCompleted_again (db : Database) (ids : List ChangesetId) :
    ((db.markCompleted ids).2.markCompleted ids).2 = (db.markCompleted ids).2 := by
  unfold markCompleted
  dsimp only
  rw [Table.mapRows_mapRows]
  congr 2
  funext k e
  by_cases hmarks : marks ids e = true
  · have hagain : marks ids { e with status := .completed } = false := by
      unfold marks
      simp
    rw [if_pos hmarks, hagain, if_neg Bool.false_ne_true]
  · rw [if_neg hmarks, if_neg hmarks]

end Database

end SyncCascade
