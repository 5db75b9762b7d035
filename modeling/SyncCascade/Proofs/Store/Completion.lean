import SyncCascade.Proofs.Rerun.Effect
import SyncCascade.Proofs.Store.Outcome

/-!
# No premature completion by a call

What a step may complete, by the counts of the state before it. A sync completes if it is the ready
target of the step, or the highest rerun of such a target, while it is in progress; a file completes if
it is ready. A completed file is opened again only while it owns an entity that is not synced, and
deleted only while it owns none. Every call of the database is such a step, as long as its tables have
fewer rows than the words that declare totals can count.
-/

namespace SyncCascade

def StoreCall.tried : StoreCall → Option SyncId
  | tryCloseSync id => some id
  | _ => none

namespace Database

/-- The sync was there and open, and is completed now. -/
def SyncCompletes (db db' : Database) (id : SyncId) : Prop :=
  ∃ s s', db.syncs.find? id = some s ∧ s.status ≠ .completed ∧
    db'.syncs.find? id = some s' ∧ s'.status = .completed

/-- The file was there and open, and is completed now. -/
def FileCompletes (db db' : Database) (id : FileId) : Prop :=
  ∃ f f', db.files.find? id = some f ∧ f.status ≠ .completed ∧
    db'.files.find? id = some f' ∧ f'.status = .completed

/-- What becomes of the syncs in a step from `db` to `db'` that tries to close a target as it stands in
`m`. -/
structure CompletesSyncs (tried : Option SyncId) (m db db' : Database) : Prop where
  /-- Only a ready target completes, and in the same step its highest rerun. -/
  ready : ∀ {id s}, db.syncs.find? id = some s → db.SyncCompletes db' id →
    ∃ target, tried = some target ∧ m.ReadySync target ∧
      (id = target ∨
        db.SyncCompletes db' target ∧ s.status = .inProgress ∧ db.HighestRerun target s)
  /-- Without a declared total a sync completes only with its base. -/
  undeclared : ∀ {id s}, db.syncs.find? id = some s → s.totalFiles = none →
    db.SyncCompletes db' id → ∃ base, s.baseSyncId = some base ∧ db.SyncCompletes db' base

/-- What becomes of the files in a step from `db` to `db'`. -/
structure CompletesFiles (db db' : Database) : Prop where
  ready : ∀ {id}, db.FileCompletes db' id → db.ReadyFile id
  undeclared : ∀ {id f}, db.files.find? id = some f → f.totalEntities = none →
    ¬ db.FileCompletes db' id
  /-- A completed file stays so, or is opened again or deleted for a reason. -/
  completed : ∀ {id f}, db.files.find? id = some f → f.status = .completed →
    (∃ f', db'.files.find? id = some f' ∧ (f'.status = .completed ∨
      f'.status = .inProgress ∧ 0 < db.unsyncedCount id)) ∨
    db'.files.find? id = none ∧ db.entityCount id = 0

structure Completes (tried : Option SyncId) (m db db' : Database) : Prop where
  syncs : CompletesSyncs tried m db db'
  files : CompletesFiles db db'

variable {tried : Option SyncId} {m db db' : Database} {now : Timestamp}

theorem map_toInt_ofNat {total : Option Int32} {n : Nat} (hn : n < Word.limit 31)
    (h : total = some (Int32.ofNat n)) : total.map Int32.toInt = some (n : Int) := by
  have hlt : n < 2 ^ 31 := hn
  rw [h, Option.map_some, Int32.toInt_ofNat_of_lt hlt]

theorem completedCount_le_size (db : Database) (sync : SyncId) :
    db.completedCount sync ≤ db.files.size := List.countP_le_length

theorem resolvedCount_le_size (db : Database) (file : FileId) :
    db.resolvedCount file ≤ db.entities.size := List.countP_le_length

theorem readySync_of_syncCloses (hsize : db.files.size < Word.limit 31) {id : SyncId} {s : SyncRun}
    (hs : db.syncs.find? id = some s) (h : db.syncCloses id s = true) : db.ReadySync id := by
  have hcount : db.completedFiles id = db.completedCount id := completedFiles_eq db id
  have hlt := Nat.lt_of_le_of_lt (completedCount_le_size db id) hsize
  unfold syncCloses at h
  rw [Bool.and_eq_true, beq_iff_eq, hcount] at h
  refine ⟨s, hs, ?_⟩
  unfold syncReady
  rw [Bool.and_eq_true, decide_eq_true_eq]
  exact ⟨h.1, map_toInt_ofNat hlt h.2⟩

theorem readyFile_of_fileCloses (hsize : db.entities.size < Word.limit 31) {id : FileId} {f : File}
    (hf : db.files.find? id = some f) (h : db.fileCloses id f = true) : db.ReadyFile id := by
  have hlt := Nat.lt_of_le_of_lt (resolvedCount_le_size db id) hsize
  unfold fileCloses at h
  rw [Bool.and_eq_true, beq_iff_eq, beq_iff_eq, resolvedEntities_eq] at h
  refine ⟨f, hf, ?_⟩
  unfold fileReady
  rw [Bool.and_eq_true, decide_eq_true_eq, decide_eq_true_eq]
  exact ⟨h.1, map_toInt_ofNat hlt h.2⟩

theorem not_readySync_of_undeclared {id : SyncId} {s : SyncRun}
    (hs : db.syncs.find? id = some s) (htotal : s.totalFiles = none) : ¬ db.ReadySync id := by
  rintro ⟨s', hs', hready⟩
  rw [hs] at hs'
  cases hs'
  unfold syncReady at hready
  rw [htotal] at hready
  simp at hready

theorem not_readyFile_of_undeclared {id : FileId} {f : File}
    (hf : db.files.find? id = some f) (htotal : f.totalEntities = none) : ¬ db.ReadyFile id := by
  rintro ⟨f', hf', hready⟩
  rw [hf] at hf'
  cases hf'
  unfold fileReady at hready
  rw [htotal] at hready
  simp at hready

namespace CompletesSyncs

theorem of_status (h : ∀ {id s s'}, db.syncs.find? id = some s → db'.syncs.find? id = some s' →
    s'.status = s.status) : CompletesSyncs tried m db db' := by
  have hnone : ∀ id, ¬ db.SyncCompletes db' id := by
    rintro id ⟨s, s', hs, hopen, hs', hdone⟩
    exact hopen ((h hs hs').symm.trans hdone)
  exact ⟨fun _ h => absurd h (hnone _), fun _ _ h => absurd h (hnone _)⟩

theorem of_syncs_eq (h : db'.syncs = db.syncs) : CompletesSyncs tried m db db' :=
  of_status fun hs hs' => by
    rw [h, hs] at hs'
    cases hs'
    rfl

theorem of_ready
    (hm : ∀ {id s}, db.syncs.find? id = some s → s.totalFiles = none → ¬ m.ReadySync id)
    (h : ∀ {id s}, db.syncs.find? id = some s → db.SyncCompletes db' id →
      ∃ target, tried = some target ∧ m.ReadySync target ∧ (id = target ∨
        db.SyncCompletes db' target ∧ s.status = .inProgress ∧ db.HighestRerun target s)) :
    CompletesSyncs tried m db db' where
  ready := h
  undeclared hs htotal hcompletes := by
    obtain ⟨target, -, hready, rfl | ⟨hbase, -, hhighest⟩⟩ := h hs hcompletes
    · exact absurd hready (hm hs htotal)
    · exact ⟨target, by simpa using (List.mem_filter.1 hhighest.1).2, hbase⟩

end CompletesSyncs

/-- What may become of a file that is there. -/
inductive FileStep (db db' : Database) (id : FileId) (f : File) : Prop
  | kept {f' : File} (hf' : db'.files.find? id = some f') (hstatus : f'.status = f.status)
  | completed {f' : File} (hf' : db'.files.find? id = some f') (hdone : f'.status = .completed)
      (hready : db.ReadyFile id)
  | reopened {f' : File} (hf' : db'.files.find? id = some f') (hopen : f'.status = .inProgress)
      (hunsynced : 0 < db.unsyncedCount id)
  | deleted (hf' : db'.files.find? id = none) (hempty : db.entityCount id = 0)

namespace CompletesFiles

theorem of_step (h : ∀ {id f}, db.files.find? id = some f → db.FileStep db' id f) :
    CompletesFiles db db' := by
  have hready : ∀ {id}, db.FileCompletes db' id → db.ReadyFile id := by
    rintro id ⟨f, f', hf, hopen, hf', hdone⟩
    cases h hf with
    | kept hf₁ hstatus =>
      cases hf'.symm.trans hf₁
      exact absurd (hstatus.symm.trans hdone) hopen
    | completed _ _ hready => exact hready
    | reopened hf₁ hopen' =>
      cases hf'.symm.trans hf₁
      cases hdone.symm.trans hopen'
    | deleted hnone => cases hf'.symm.trans hnone
  constructor
  case ready => exact hready
  case undeclared =>
    exact fun hf htotal hcompletes => not_readyFile_of_undeclared hf htotal (hready hcompletes)
  case completed =>
    intro id f hf hdone
    cases h hf with
    | kept hf' hstatus => exact .inl ⟨_, hf', .inl (hstatus.trans hdone)⟩
    | completed hf' hdone' => exact .inl ⟨_, hf', .inl hdone'⟩
    | reopened hf' hopen hunsynced => exact .inl ⟨_, hf', .inr ⟨hopen, hunsynced⟩⟩
    | deleted hf' hempty => exact .inr ⟨hf', hempty⟩

theorem of_files_eq (h : db'.files = db.files) : CompletesFiles db db' :=
  of_step fun hf => .kept (h ▸ hf) rfl

end CompletesFiles

theorem Completes.refl (tried : Option SyncId) (m db : Database) : Completes tried m db db :=
  ⟨.of_syncs_eq rfl, .of_files_eq rfl⟩

theorem highestRerun_of_withCompleted {id b : SyncId} {r : SyncRun}
    (hr : db.syncs.find? r.id = some r)
    (hlatest : (db.withCompleted now id).latestRerun b = some r) : db.HighestRerun b r := by
  have hbase := latestRerun_base hlatest
  refine ⟨List.mem_filter.2 ⟨Table.mem_rows.2 ⟨r.id, hr⟩, by simpa using hbase⟩, ?_⟩
  intro r' hr'
  obtain ⟨hrow, hbase'⟩ := List.mem_filter.1 hr'
  obtain ⟨k, hk⟩ := Table.mem_rows.1 hrow
  obtain ⟨r₁, hr₁, hcontinues⟩ := (withCompleted_continues db now id).find? hk
  have hnumber : r₁.runNumber = r'.runNumber := by rw [hcontinues]
  have hmem : r₁ ∈ (db.withCompleted now id).rerunsOf b := by
    refine List.mem_filter.2 ⟨Table.mem_rows.2 ⟨k, hr₁⟩, ?_⟩
    rw [hcontinues]
    exact hbase'
  rw [← hnumber]
  exact (highestRerun_of_latestRerun hlatest).2 r₁ hmem

theorem eq_of_syncCompletes_withCompleted {id id' : SyncId}
    (h : db.SyncCompletes (db.withCompleted now id) id') : id' = id := by
  obtain ⟨s, s', hs, hopen, hs', hdone⟩ := h
  by_cases hne : id' = id
  · exact hne
  · rw [find?_withCompleted, if_neg hne, hs] at hs'
    cases hs'
    exact absurd hdone hopen

theorem tryCloseSync_completesSyncs (hkeyed : db.SyncsKeyed) (hsize : db.files.size < Word.limit 31)
    {id : SyncId} {closed : List SyncId} (h : Closing now db id closed db') :
    CompletesSyncs (some id) db db db' := by
  cases h with
  | refused => exact .of_syncs_eq rfl
  | alone hs hcloses =>
    refine .of_ready not_readySync_of_undeclared fun _ hcompletes => ?_
    exact ⟨id, rfl, readySync_of_syncCloses hsize hs hcloses,
      .inl (eq_of_syncCompletes_withCompleted hcompletes)⟩
  | @withRerun s r hs hcloses hlatest hopen =>
    have hmid := find?_latestRerun (withCompleted_syncsKeyed hkeyed now id) hlatest
    have hne : r.id ≠ id := by
      intro heq
      rw [heq, find?_withCompleted, if_pos rfl, hs, Option.map_some] at hmid
      cases hmid
      cases hopen
    have hr : db.syncs.find? r.id = some r := by rwa [find?_withCompleted, if_neg hne] at hmid
    have htarget : db.SyncCompletes ((db.withCompleted now id).withCompleted now r.id) id := by
      refine ⟨s, completeSync now s, hs, open_of_syncCloses hcloses, ?_, rfl⟩
      rw [find?_withCompleted, if_neg (Ne.symm hne), find?_withCompleted, if_pos rfl, hs,
        Option.map_some]
    refine .of_ready not_readySync_of_undeclared fun {id' s'} hs' hcompletes => ?_
    refine ⟨id, rfl, readySync_of_syncCloses hsize hs hcloses, ?_⟩
    by_cases hid : id' = r.id
    · subst hid
      rw [hr] at hs'
      cases hs'
      exact .inr ⟨htarget, hopen, highestRerun_of_withCompleted hr hlatest⟩
    · have hfirst : db.SyncCompletes (db.withCompleted now id) id' := by
        obtain ⟨s₀, s₁, hs₀, hopen₀, hs₁, hdone⟩ := hcompletes
        rw [find?_withCompleted, if_neg hid] at hs₁
        exact ⟨s₀, s₁, hs₀, hopen₀, hs₁, hdone⟩
      exact .inl (eq_of_syncCompletes_withCompleted hfirst)

theorem insertSync_completesSyncs {s : SyncRun} (h : db.insertSync s = .ok db') :
    CompletesSyncs tried m db db' := by
  obtain ⟨hfree, rfl⟩ := insertSync_eq_ok h
  refine .of_status fun {id s₀ s₁} hs₀ hs₁ => ?_
  rw [Table.find?_insert, if_neg (Table.ne_of_free hfree hs₀), hs₀] at hs₁
  cases hs₁
  rfl

theorem decrementTotalFiles_completesSyncs {id : SyncId} {n : Nat}
    (h : db.decrementTotalFiles id n = .ok db') : CompletesSyncs tried m db db' := by
  cases decrementTotalFiles_eq_ok h
  refine .of_status fun {id' s₀ s₁} hs₀ hs₁ => ?_
  rw [Table.find?_modify, hs₀] at hs₁
  split at hs₁ <;> cases hs₁ <;> rfl

theorem insertFile_completesFiles {f : File} (h : db.insertFile f = .ok db') :
    CompletesFiles db db' := by
  obtain ⟨-, hfree, rfl⟩ := insertFile_eq_ok h
  refine .of_step fun {id f₀} hf₀ => ?_
  exact .kept ((Table.find?_insert ..).trans
    ((if_neg (Table.ne_of_free hfree hf₀)).trans hf₀)) rfl

theorem tryCloseFile_completesFiles (hsize : db.entities.size < Word.limit 31) {id : FileId}
    {owner : Option SyncId} (h : FileClosing now db id owner db') : CompletesFiles db db' := by
  cases h with
  | refused => exact .of_files_eq rfl
  | @closed f hf hcloses =>
    refine .of_step fun {id' f'} hf' => ?_
    by_cases hid : id' = id
    · subst hid
      rw [hf] at hf'
      cases hf'
      have hdone : (db.files.modify id' (completeFile now)).find? id' = some (completeFile now f) := by
        rw [Table.find?_modify, if_pos rfl, hf, Option.map_some]
      exact .completed hdone rfl (readyFile_of_fileCloses hsize hf hcloses)
    · exact .kept ((Table.find?_modify ..).trans ((if_neg hid).trans hf')) rfl

theorem entityCount_of_bare (hkeyed : db.Keyed) {sync : SyncId} {id : FileId} {f : File}
    (hf : db.files.find? id = some f) (hbare : db.bare sync f = true) : db.entityCount id = 0 := by
  unfold bare at hbare
  rw [Bool.and_eq_true, decide_eq_true_eq, decide_eq_true_eq, hkeyed.files hf] at hbare
  exact hbare.2

/-- Empty files of the sync are deleted, with no other change of the files. -/
theorem deleteEmpty_completesFiles (hkeyed : db.Keyed) (sync : SyncId)
    (h : db'.files = db.files.filter fun _ f => !db.bare sync f) : CompletesFiles db db' := by
  refine .of_step fun {id f} hf => ?_
  have hf' : db'.files.find? id = (some f).filter fun f => !db.bare sync f := by
    rw [h, Table.find?_filter, hf]
  by_cases hbare : db.bare sync f = true
  · rw [Option.filter_some, if_neg (by simp [hbare])] at hf'
    exact .deleted hf' (entityCount_of_bare hkeyed hf hbare)
  · rw [Option.filter_some, if_pos (by simpa using hbare)] at hf'
    exact .kept hf' rfl

theorem reopenFiles_completesFiles (hkeyed : db.Keyed) (sync : SyncId) :
    CompletesFiles db (db.reopenFiles sync).2 := by
  refine .of_step fun {id f} hf => ?_
  have hf' : (db.reopenFiles sync).2.files.find? id =
      some (if db.reopens sync f then reopenFile f else f) := by
    unfold reopenFiles
    rw [Table.find?_mapRows, hf, Option.map_some]
  split at hf'
  next hreopens =>
    obtain ⟨-, -, hunsynced⟩ := (reopens_iff rfl sync f).1 hreopens
    rw [hkeyed.files hf] at hunsynced
    exact .reopened hf' rfl hunsynced
  next => exact .kept hf' rfl

theorem apply_completes (hsyncs : db.SyncsKeyed) (hkeyed : db.Keyed)
    (hfiles : db.files.size < Word.limit 31) (hentities : db.entities.size < Word.limit 31)
    {c : StoreCall} {reply : c.Reply} (h : db.apply now c = .ok (reply, db')) :
    Completes c.tried db db db' := by
  cases c with
  | insertSync s =>
    have hok := eq_ok_of_map h
    obtain ⟨-, rfl⟩ := insertSync_eq_ok hok
    exact ⟨insertSync_completesSyncs hok, .of_files_eq rfl⟩
  | decrementTotalFiles id n =>
    have hok := eq_ok_of_map h
    cases decrementTotalFiles_eq_ok hok
    exact ⟨decrementTotalFiles_completesSyncs hok, .of_files_eq rfl⟩
  | tryCloseSync id =>
    have heq : db.tryCloseSync now id = (reply, db') := Except.ok.inj h
    have hclosing := tryCloseSync_closing now db id
    rw [heq] at hclosing
    exact ⟨tryCloseSync_completesSyncs hsyncs hfiles hclosing,
      .of_files_eq (tryCloseSync_frame hclosing).1⟩
  | insertFile f =>
    have hok := eq_ok_of_map h
    obtain ⟨-, -, rfl⟩ := insertFile_eq_ok hok
    exact ⟨.of_syncs_eq rfl, insertFile_completesFiles hok⟩
  | tryCloseFile id =>
    have heq : db.tryCloseFile now id = (reply, db') := Except.ok.inj h
    have hclosing := tryCloseFile_closing now db id
    have hsame := tryCloseFile_syncs_eq now db id
    rw [heq] at hclosing hsame
    exact ⟨.of_syncs_eq hsame, tryCloseFile_completesFiles hentities hclosing⟩
  | deleteEmptyFiles sync =>
    cases h
    refine ⟨.of_syncs_eq rfl, deleteEmpty_completesFiles hkeyed sync ?_⟩
    rw [← isEmptyFileOf_eq_bare]
  | reopenFiles sync =>
    cases h
    exact ⟨.of_syncs_eq rfl, reopenFiles_completesFiles hkeyed sync⟩
  | insertEntities es =>
    obtain ⟨-, rfl⟩ := insertEntities_eq_ok (eq_ok_of_map h)
    exact ⟨.of_syncs_eq rfl, .of_files_eq rfl⟩
  | patchEntity id file p =>
    obtain ⟨-, -, rfl⟩ := patchEntity_eq_ok (eq_ok_of_map h)
    exact ⟨.of_syncs_eq rfl, .of_files_eq rfl⟩
  | insertChangeset c =>
    obtain ⟨-, rfl⟩ := insertChangeset_eq_ok (eq_ok_of_map h)
    exact ⟨.of_syncs_eq rfl, .of_files_eq rfl⟩
  | findSync | latestRerun | findFile | findEntity | markCompleted | findFiles | resetEntities |
    findChangeset | archiveEntities | history =>
    cases h
    exact ⟨.of_syncs_eq rfl, .of_files_eq rfl⟩

end Database

end SyncCascade
