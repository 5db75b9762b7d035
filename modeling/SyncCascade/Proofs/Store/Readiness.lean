import SyncCascade.Proofs.Neighbours
import SyncCascade.Proofs.Store.Syncs

/-!
# What is ready to be closed

A file is ready when it is in progress and as many of its entities are resolved as it declares, a
sync when it may close and as many of its files are completed as it declares. Closing a target ends
that it is ready; what becomes ready by it, is the owner of a closed file or a file of the completed
changesets.
-/

namespace SyncCascade.Database

/-- How many entities of the file are resolved, wherever they stand in the table. -/
def resolvedCount (db : Database) (file : FileId) : Nat :=
  db.entities.count fun k e => decide (k.file = file) && e.status.isResolved

theorem takeWhile_file_eq_filter {es : List (EntityKey × Entity)}
    (hs : es.Pairwise fun a b => a.1 < b.1) {file : FileId}
    (hfile : ∀ e ∈ es, ¬ e.1.file < file) :
    (es.takeWhile fun e => decide (e.1.file = file)) =
      es.filter fun e => decide (e.1.file = file) := by
  induction es with
  | nil => rfl
  | cons e rest ih =>
    obtain ⟨hhead, htail⟩ := List.pairwise_cons.1 hs
    have hrest := ih htail fun e' he' => hfile e' (List.mem_cons_of_mem _ he')
    by_cases he : e.1.file = file
    · rw [List.takeWhile_cons_of_pos (by simpa using he), List.filter_cons_of_pos (by simpa using he),
        hrest]
    · have hlater : ∀ e' ∈ rest, ¬ e'.1.file = file := by
        intro e' he' heq
        have hlt : file < e.1.file := Key.lt_of_not (hfile e List.mem_cons_self) he
        rcases EntityKey.lt_iff.1 (hhead e' he') with h | ⟨h, -⟩
        · rw [heq] at h
          exact Key.irrefl _ (Key.trans hlt h)
        · exact he (h.trans heq)
      have hnone : (rest.filter fun e => decide (e.1.file = file)) = [] := by
        rw [List.filter_eq_nil_iff]
        intro e' he'
        simpa using hlater e' he'
      rw [List.takeWhile_cons_of_neg (by simpa using he),
        List.filter_cons_of_neg (by simpa using he), hnone]

theorem lt_firstKey_iff (k : EntityKey) (file : FileId) : k < firstKey file ↔ k.file < file := by
  rw [EntityKey.lt_iff]
  constructor
  · rintro (h | ⟨-, h⟩)
    · exact h
    · exact absurd h (List.not_lt_nil _)
  · exact .inl

theorem takeWhile_dropWhile_eq_filter {es : List (EntityKey × Entity)}
    (hs : es.Pairwise fun a b => a.1 < b.1) (file : FileId) :
    ((es.dropWhile fun e => decide (e.1 < firstKey file)).takeWhile
        fun e => decide (e.1.file = file)) =
      es.filter fun e => decide (e.1.file = file) := by
  induction es with
  | nil => rfl
  | cons e rest ih =>
    obtain ⟨hhead, htail⟩ := List.pairwise_cons.1 hs
    by_cases hlt : e.1 < firstKey file
    · have hne : ¬ e.1.file = file := Key.ne_of_lt ((lt_firstKey_iff _ _).1 hlt)
      rw [List.dropWhile_cons_of_pos (by simpa using hlt),
        List.filter_cons_of_neg (by simpa using hne), ih htail]
    · rw [List.dropWhile_cons_of_neg (by simpa using hlt)]
      refine takeWhile_file_eq_filter hs fun e' he' hbefore => ?_
      have he : ¬ e.1.file < file := fun h => hlt ((lt_firstKey_iff _ _).2 h)
      rcases List.mem_cons.1 he' with rfl | he'
      · exact he hbefore
      · rcases EntityKey.lt_iff.1 (hhead e' he') with h | ⟨h, -⟩
        · exact he (Key.trans h hbefore)
        · exact he (h ▸ hbefore)

theorem entitiesOf_eq_map (db : Database) (file : FileId) :
    db.entitiesOf file =
      (db.entities.entries.filter fun e => decide (e.1.file = file)).map Prod.snd :=
  congrArg (List.map Prod.snd) (takeWhile_dropWhile_eq_filter db.entities.sorted file)

theorem countP_entitiesOf (db : Database) (file : FileId) (p : Entity → Bool) :
    (db.entitiesOf file).countP p =
      db.entities.count fun k e => decide (k.file = file) && p e := by
  rw [entitiesOf_eq_map, List.countP_map, List.countP_filter]
  unfold Table.count
  congr 1
  funext e
  exact Bool.and_comm _ _

theorem resolvedEntities_eq (db : Database) (file : FileId) :
    db.resolvedEntities file = db.resolvedCount file :=
  countP_entitiesOf db file _

theorem completedFiles_eq (db : Database) (sync : SyncId) :
    db.completedFiles sync =
      db.files.count fun _ f => decide (f.syncId = sync) && decide (f.status = .completed) := by
  unfold completedFiles filesOf
  rw [List.countP_filter, Table.countP_rows]
  apply Table.count_congr
  intro k f _
  exact Bool.and_comm _ _

/-- The row `f` of the file `id` is in progress and declares as many entities as are resolved. -/
def fileReady (db : Database) (id : FileId) (f : File) : Bool :=
  decide (f.status = .inProgress) &&
    decide (f.totalEntities.map Int32.toInt = some (db.resolvedCount id : Int))

def completedCount (db : Database) (sync : SyncId) : Nat :=
  db.files.count fun _ f => decide (f.syncId = sync) && decide (f.status = .completed)

/-- The row `s` of the sync `id` may close and declares as many files as are completed. -/
def syncReady (db : Database) (id : SyncId) (s : SyncRun) : Bool :=
  s.status.isClosable && decide (s.totalFiles.map Int32.toInt = some (db.completedCount id : Int))

def ReadyFile (db : Database) (id : FileId) : Prop :=
  ∃ f, db.files.find? id = some f ∧ db.fileReady id f = true

def ReadySync (db : Database) (id : SyncId) : Prop :=
  ∃ s, db.syncs.find? id = some s ∧ db.syncReady id s = true

theorem not_readyFile {db : Database}
    (h : ∀ e ∈ db.files.entries, db.fileReady e.1 e.2 = false) (id : FileId) :
    ¬ db.ReadyFile id := by
  rintro ⟨f, hf, hready⟩
  rw [h _ ((Table.find?_eq_some_iff _ _ _).1 hf)] at hready
  cases hready

theorem not_readySync {db : Database}
    (h : ∀ e ∈ db.syncs.entries, db.syncReady e.1 e.2 = false) (id : SyncId) :
    ¬ db.ReadySync id := by
  rintro ⟨s, hs, hready⟩
  rw [h _ ((Table.find?_eq_some_iff _ _ _).1 hs)] at hready
  cases hready

theorem eq_ofNat_of_toInt {total : Option Int32} {n : Nat}
    (h : total.map Int32.toInt = some (n : Int)) : total = some (Int32.ofNat n) := by
  obtain ⟨t, rfl, ht⟩ := Option.map_eq_some_iff.1 h
  rw [← Int32.ofInt_toInt t, ht, Int32.ofInt_eq_ofNat]

theorem fileCloses_of_fileReady {db : Database} {id : FileId} {f : File}
    (h : db.fileReady id f = true) : db.fileCloses id f = true := by
  unfold fileReady at h
  unfold fileCloses
  rw [Bool.and_eq_true, decide_eq_true_eq, decide_eq_true_eq] at h
  rw [h.1, eq_ofNat_of_toInt h.2, resolvedEntities_eq]
  simp

theorem syncCloses_of_syncReady {db : Database} {id : SyncId} {s : SyncRun}
    (h : db.syncReady id s = true) : db.syncCloses id s = true := by
  unfold syncReady at h
  unfold syncCloses
  rw [Bool.and_eq_true, decide_eq_true_eq] at h
  have hcount : db.completedFiles id = db.completedCount id := completedFiles_eq db id
  rw [h.1, eq_ofNat_of_toInt h.2, hcount]
  simp

/-- What `tryCloseFile` comes to. -/
inductive FileClosing (now : Timestamp) (db : Database) (id : FileId) :
    Option SyncId → Database → Prop
  | refused (h : ∀ f, db.files.find? id = some f → db.fileCloses id f = false) :
      FileClosing now db id none db
  | closed {f : File} (hf : db.files.find? id = some f) (hcloses : db.fileCloses id f = true) :
      FileClosing now db id (some f.syncId)
        { db with files := db.files.modify id (completeFile now) }

theorem tryCloseFile_closing (now : Timestamp) (db : Database) (id : FileId) :
    FileClosing now db id (db.tryCloseFile now id).1 (db.tryCloseFile now id).2 := by
  cases hf : db.files.find? id with
  | none =>
    have hstep : db.tryCloseFile now id = (none, db) := by
      unfold tryCloseFile
      rw [hf]
    rw [hstep]
    exact .refused fun f hf' => by simp [hf] at hf'
  | some f =>
    by_cases hcloses : db.fileCloses id f = true
    · have hstep : db.tryCloseFile now id =
          (some f.syncId, { db with files := db.files.modify id (completeFile now) }) := by
        unfold tryCloseFile
        rw [hf]
        exact if_pos hcloses
      rw [hstep]
      exact .closed hf hcloses
    · have hstep : db.tryCloseFile now id = (none, db) := by
        unfold tryCloseFile
        rw [hf]
        exact if_neg hcloses
      rw [hstep]
      refine .refused fun f' hf' => ?_
      rw [hf] at hf'
      cases hf'
      exact Bool.eq_false_iff.2 hcloses

theorem tryCloseFile_frame {now : Timestamp} {db db' : Database} {id : FileId}
    {owner : Option SyncId} (h : FileClosing now db id owner db') : db'.entities = db.entities := by
  cases h <;> rfl

theorem resolvedCount_of_entities_eq {db db' : Database} (h : db'.entities = db.entities)
    (file : FileId) : db'.resolvedCount file = db.resolvedCount file := by
  unfold resolvedCount
  rw [h]

theorem fileReady_of_entities_eq {db db' : Database} (h : db'.entities = db.entities)
    (file : FileId) (f : File) : db'.fileReady file f = db.fileReady file f := by
  unfold fileReady
  rw [resolvedCount_of_entities_eq h]

theorem readyFile_of_eq {db db' : Database} {file : FileId} (h : db'.ReadyFile file)
    (hentities : db'.entities = db.entities) (hfiles : db'.files = db.files) :
    db.ReadyFile file := by
  obtain ⟨f, hf, hready⟩ := h
  exact ⟨f, hfiles ▸ hf, fileReady_of_entities_eq hentities file f ▸ hready⟩

theorem readySync_of_eq {db db' : Database} {sync : SyncId} (h : db'.ReadySync sync)
    (hsyncs : db'.syncs = db.syncs) (hcount : db'.completedCount sync = db.completedCount sync) :
    db.ReadySync sync := by
  obtain ⟨s, hs, hready⟩ := h
  refine ⟨s, hsyncs ▸ hs, ?_⟩
  unfold syncReady at hready ⊢
  rwa [← hcount]

theorem tryCloseFile_readyFile {now : Timestamp} {db db' : Database} {id : FileId}
    {owner : Option SyncId} (h : FileClosing now db id owner db') {file : FileId}
    (hready : db'.ReadyFile file) : file ≠ id ∧ db.ReadyFile file := by
  obtain ⟨f', hf', hf'ready⟩ := hready
  cases h with
  | refused hrefused =>
    refine ⟨?_, f', hf', hf'ready⟩
    rintro rfl
    have hcloses := fileCloses_of_fileReady hf'ready
    rw [hrefused f' hf'] at hcloses
    cases hcloses
  | closed hf hcloses =>
    rw [Table.find?_modify] at hf'
    split at hf'
    next =>
      obtain ⟨f, -, rfl⟩ := Option.map_eq_some_iff.1 hf'
      cases hf'ready
    next hne => exact ⟨hne, f', hf', hf'ready⟩

theorem tryCloseFile_readySync {now : Timestamp} {db db' : Database} {id : FileId}
    {owner : Option SyncId} (h : FileClosing now db id owner db') {sync : SyncId}
    (hready : db'.ReadySync sync) : db.ReadySync sync ∨ owner = some sync := by
  cases h with
  | refused => exact .inl hready
  | @closed f hf hcloses =>
    by_cases howner : f.syncId = sync
    · exact .inr (congrArg some howner)
    · have hcount : completedCount { db with files := db.files.modify id (completeFile now) } sync =
          db.completedCount sync := ?_
      · exact .inl (readySync_of_eq hready rfl hcount)
      unfold completedCount
      rw [Table.modify, Table.count_mapRows]
      apply Table.count_congr
      intro k f' hf'
      by_cases hk : k = id
      · subst hk
        rw [hf] at hf'
        cases hf'
        simp [completeFile, howner]
      · simp [hk]

theorem readySync_of_withCompleted {now : Timestamp} {db : Database} {id sync : SyncId}
    (h : (db.withCompleted now id).ReadySync sync) : sync ≠ id ∧ db.ReadySync sync := by
  obtain ⟨s', hs', hready⟩ := h
  rw [find?_withCompleted] at hs'
  split at hs'
  next =>
    obtain ⟨s, -, rfl⟩ := Option.map_eq_some_iff.1 hs'
    cases hready
  next hne => exact ⟨hne, s', hs', hready⟩

theorem tryCloseSync_readySync {now : Timestamp} {db db' : Database} {id : SyncId}
    {closed : List SyncId} (h : Closing now db id closed db') {sync : SyncId}
    (hready : db'.ReadySync sync) : sync ≠ id ∧ db.ReadySync sync := by
  cases h with
  | refused hrefused =>
    obtain ⟨s, hs, hsready⟩ := hready
    refine ⟨?_, s, hs, hsready⟩
    rintro rfl
    have hcloses := syncCloses_of_syncReady hsready
    rw [hrefused s hs] at hcloses
    cases hcloses
  | alone => exact readySync_of_withCompleted hready
  | withRerun => exact readySync_of_withCompleted (readySync_of_withCompleted hready).2

theorem tryCloseSync_frame {now : Timestamp} {db db' : Database} {id : SyncId}
    {closed : List SyncId} (h : Closing now db id closed db') :
    db'.files = db.files ∧ db'.entities = db.entities := by
  cases h <;> exact ⟨rfl, rfl⟩

theorem resolvedCount_markCompleted {db : Database} {ids : List ChangesetId} {file : FileId}
    (h : ∀ k e, db.entities.find? k = some e → k.file = file → inChangesets ids e = false) :
    (db.markCompleted ids).2.resolvedCount file = db.resolvedCount file := by
  unfold resolvedCount markCompleted
  rw [Table.count_mapRows]
  apply Table.count_congr
  intro k e he
  by_cases hk : k.file = file
  · have hmarks : marks ids e = false := by
      unfold marks
      rw [h k e he hk]
      rfl
    simp [hmarks]
  · simp [hk]

theorem mem_findFiles {db : Database} {ids : List ChangesetId} {statuses : List FileStatus}
    {file : FileId} :
    file ∈ db.findFiles ids statuses ↔
      db.hasStatus statuses file = true ∧
        ∃ k e, db.entities.find? k = some e ∧ k.file = file ∧ inChangesets ids e = true := by
  unfold findFiles
  rw [mem_dropRepeats, List.mem_map]
  constructor
  · rintro ⟨⟨k, e⟩, he, rfl⟩
    obtain ⟨hmem, hp⟩ := List.mem_filter.1 he
    rw [Bool.and_eq_true] at hp
    exact ⟨hp.2, k, e, (Table.find?_eq_some_iff _ _ _).2 hmem, rfl, hp.1⟩
  · rintro ⟨hstatus, k, e, he, rfl, hin⟩
    refine ⟨(k, e), List.mem_filter.2 ⟨(Table.find?_eq_some_iff _ _ _).1 he, ?_⟩, rfl⟩
    rw [Bool.and_eq_true]
    exact ⟨hin, hstatus⟩

theorem inChangesets_marked (ids ids' : List ChangesetId) (e : Entity) :
    inChangesets ids (if marks ids' e then { e with status := .completed } else e) =
      inChangesets ids e := by
  split <;> rfl

theorem markCompleted_readyFile {db : Database} {ids : List ChangesetId} {file : FileId}
    (hready : (db.markCompleted ids).2.ReadyFile file) :
    db.ReadyFile file ∨ file ∈ (db.markCompleted ids).2.findFiles ids [.inProgress] := by
  obtain ⟨f, hf, hfready⟩ := hready
  by_cases hin : ∃ k e, db.entities.find? k = some e ∧ k.file = file ∧ inChangesets ids e = true
  · refine .inr (mem_findFiles.2 ⟨?_, ?_⟩)
    · unfold fileReady at hfready
      rw [Bool.and_eq_true, decide_eq_true_eq] at hfready
      unfold hasStatus
      rw [hf]
      dsimp only
      rw [hfready.1]
      rfl
    · obtain ⟨k, e, he, hk, hin⟩ := hin
      refine ⟨k, if marks ids e then { e with status := .completed } else e, ?_, hk, ?_⟩
      · unfold markCompleted
        rw [Table.find?_mapRows, he, Option.map_some]
      · rw [inChangesets_marked, hin]
  · refine .inl ⟨f, hf, ?_⟩
    have hcount : (db.markCompleted ids).2.resolvedCount file = db.resolvedCount file := by
      apply resolvedCount_markCompleted
      intro k e he hk
      exact Bool.eq_false_iff.2 fun htrue => hin ⟨k, e, he, hk, htrue⟩
    unfold fileReady at hfready ⊢
    rwa [← hcount]

end SyncCascade.Database
