import Mathlib.Data.List.Perm.Subperm
import SyncCascade.Broker.Rehearsal
import SyncCascade.Proofs.Reachable
import SyncCascade.Proofs.Rerun.Counting
import SyncCascade.Proofs.Store.Rows

/-!
# Files that a rerun takes up

A rerun is handed every unfinished entity of its base, but the files that are opened for it are those
that are closed and own an entity not synced. A file that ends up underway, in progress and without an
end, stays so over any further calls until all its entities are resolved, and closes then, as long as it
declares as many as it owns.
-/

namespace SyncCascade

def File.Underway (f : File) : Prop := f.status = .inProgress ∧ f.endDate = none

def File.Declares (f : File) (count : Nat) : Prop :=
  f.totalEntities.map Int32.toInt = some (count : Int)

instance (f : File) (count : Nat) : Decidable (f.Declares count) :=
  inferInstanceAs (Decidable (_ = _))

namespace Table

variable {κ ρ : Type} [Key κ]

/-- A count of keys alone is no greater than in a table that has all the keys. -/
theorem count_le_of_contains {t t' : Table κ ρ} (p : κ → Bool)
    (h : ∀ k, t.contains k = true → t'.contains k = true) :
    t.count (fun k _ => p k) ≤ t'.count fun k _ => p k := by
  have hkeys : ∀ s : Table κ ρ, s.count (fun k _ => p k) = (s.entries.map Prod.fst).countP p :=
    fun s => List.countP_map.symm
  have hnodup : (t.entries.map Prod.fst).Nodup := by
    rw [List.nodup_iff_pairwise_ne, List.pairwise_map]
    exact t.sorted.imp Key.ne_of_lt
  have hsubset : t.entries.map Prod.fst ⊆ t'.entries.map Prod.fst := by
    intro k hk
    obtain ⟨e, he, rfl⟩ := List.mem_map.1 hk
    obtain ⟨r, hr⟩ := contains_eq_true.1
      (h e.1 (contains_eq_true.2 ⟨e.2, (find?_eq_some_iff t e.1 e.2).2 he⟩))
    exact List.mem_map.2 ⟨(e.1, r), (find?_eq_some_iff t' e.1 r).1 hr, rfl⟩
  rw [hkeys, hkeys]
  exact (List.subperm_of_subset hnodup hsubset).countP_le p

end Table

namespace Database

def Owns (db : Database) (file : FileId) (s : EntityStatus) : Prop :=
  ∃ k e, db.entities.find? k = some e ∧ k.file = file ∧ e.status = s

/-- What becomes of a file of the base when a rerun of it is made. -/
structure TakesUp (db db' : Database) (base : SyncId) (file : FileId) (f f' : File) : Prop where
  /-- Exactly what is not completed is handed to the rerun. -/
  handed : db'.Owns file .inRerun ↔ ∃ s, s ≠ .completed ∧ db.Owns file s
  underway : f'.Underway ↔ f.status ≠ .inProgress ∧ db.Owns file .notSynced ∨ f.Underway
  kept : ¬ f'.Underway → f' = f
  /-- Until all its entities are resolved it waits, and its base lacks it. -/
  waits : f'.Underway → ∀ calls : List (Timestamp × StoreCall),
    f'.Declares ((db'.afterCalls calls).entityCount file) →
    (∀ before after, calls = before ++ after → after ≠ [] →
      ¬ (db'.afterCalls before).AllResolved file) →
    (db'.afterCalls calls).files.find? file = some f' ∧
      (db'.afterCalls calls).completedFiles base < (db'.afterCalls calls).fileCount base ∧
      ∀ now, ((db'.afterCalls calls).tryCloseFile now file).1 = some base ↔
        (db'.afterCalls calls).AllResolved file

variable {db db' : Database} {base : SyncId} {file : FileId} {f : File}

theorem Evolves.entityCount_le (h : db.Evolves db') (file : FileId) :
    db.entityCount file ≤ db'.entityCount file := by
  refine Table.count_le_of_contains (fun k : EntityKey => decide (k.file = file)) fun k hk => ?_
  obtain ⟨e, he⟩ := Table.contains_eq_true.1 hk
  obtain ⟨e', he', -⟩ := h.entities.kept he
  exact Table.contains_eq_true.2 ⟨e', he'⟩

theorem entityCount_le_afterCalls (h : db.Keyed) (file : FileId)
    (calls : List (Timestamp × StoreCall)) :
    db.entityCount file ≤ (db.afterCalls calls).entityCount file := by
  induction calls generalizing db with
  | nil => exact Nat.le_refl _
  | cons call rest ih =>
    unfold afterCalls
    split
    next hok =>
      exact Nat.le_trans ((apply_evolves h hok).entityCount_le file) (ih (apply_keyed h hok))
    next => exact ih h

theorem fileCloses_iff (htotal : f.Declares (db.entityCount file)) (hopen : f.status = .inProgress) :
    db.fileCloses file f = true ↔ db.AllResolved file := by
  unfold fileCloses
  rw [Bool.and_eq_true, beq_iff_eq, beq_iff_eq, resolvedEntities_eq, allResolved_iff]
  constructor
  · rintro ⟨-, hcount⟩
    exact count_eq_total htotal (resolvedCount_le_entityCount db file) hcount
  · intro hall
    refine ⟨hopen, eq_ofNat_of_toInt ?_⟩
    rw [hall]
    exact htotal

theorem fileCloses_eq_false {count : Nat} (htotal : f.Declares count)
    (hfew : db.resolvedCount file < count) : db.fileCloses file f = false := by
  rw [Bool.eq_false_iff]
  intro hcloses
  unfold fileCloses at hcloses
  rw [Bool.and_eq_true, beq_iff_eq, beq_iff_eq, resolvedEntities_eq] at hcloses
  exact Nat.ne_of_lt hfew (count_eq_total htotal (Nat.le_of_lt hfew) hcloses.2)

theorem resolvedCount_lt (h : ¬ db.AllResolved file) : db.resolvedCount file < db.entityCount file :=
  Nat.lt_of_le_of_ne (resolvedCount_le_entityCount db file) (mt allResolved_iff.2 h)

/-- A file in progress that owns entities and does not close is left alone by every call. -/
theorem apply_find?_file {now : Timestamp} {c : StoreCall} {reply : c.Reply} (hkeyed : db.Keyed)
    (hf : db.files.find? file = some f) (hopen : f.status = .inProgress)
    (hfilled : 0 < db.entityCount file) (hwaits : db.fileCloses file f = false)
    (h : db.apply now c = .ok (reply, db')) : db'.files.find? file = some f := by
  cases c with
  | insertFile f' =>
    obtain ⟨-, hfree, rfl⟩ := insertFile_eq_ok (eq_ok_of_map h)
    exact Table.find?_insert_of_free hfree hf
  | tryCloseFile id =>
    have heq : db.tryCloseFile now id = (reply, db') := Except.ok.inj h
    have hclosing := tryCloseFile_closing now db id
    rw [heq] at hclosing
    cases hclosing with
    | refused => exact hf
    | @closed f' hf' hcloses =>
      have hne : file ≠ id := by
        rintro rfl
        rw [hf] at hf'
        cases hf'
        rw [hwaits] at hcloses
        cases hcloses
      exact (Table.find?_modify ..).trans ((if_neg hne).trans hf)
  | deleteEmptyFiles sync =>
    cases h
    have hkept : (!db.isEmptyFileOf sync f) = true := by
      rw [isEmptyFileOf_eq_bare, Bool.not_eq_true', Bool.eq_false_iff]
      exact fun hbare => Nat.ne_of_gt hfilled (entityCount_of_bare hkeyed hf hbare)
    have hfind : (db.deleteEmptyFiles sync).2.files.find? file =
        (db.files.find? file).filter fun f => !db.isEmptyFileOf sync f := Table.find?_filter ..
    refine hfind.trans ?_
    rw [hf, Option.filter_some, if_pos hkept]
  | reopenFiles sync =>
    cases h
    have hkept : db.reopens sync f = false := by simp [reopens, hopen]
    have hfind : (db.reopenFiles sync).2.files.find? file =
        (db.files.find? file).map fun f => if db.reopens sync f then reopenFile f else f :=
      Table.find?_mapRows ..
    refine hfind.trans ?_
    rw [hf, Option.map_some, hkept, if_neg Bool.false_ne_true]
  | insertSync s =>
    obtain ⟨-, rfl⟩ := insertSync_eq_ok (eq_ok_of_map h)
    exact hf
  | decrementTotalFiles id n =>
    cases decrementTotalFiles_eq_ok (eq_ok_of_map h)
    exact hf
  | tryCloseSync id =>
    have heq : db.tryCloseSync now id = (reply, db') := Except.ok.inj h
    have hclosing := tryCloseSync_closing now db id
    rw [heq] at hclosing
    rw [(tryCloseSync_frame hclosing).1]
    exact hf
  | insertEntities es =>
    obtain ⟨-, rfl⟩ := insertEntities_eq_ok (eq_ok_of_map h)
    exact hf
  | patchEntity id file p =>
    obtain ⟨-, -, rfl⟩ := patchEntity_eq_ok (eq_ok_of_map h)
    exact hf
  | insertChangeset c =>
    obtain ⟨-, rfl⟩ := insertChangeset_eq_ok (eq_ok_of_map h)
    exact hf
  | findSync | latestRerun | findFile | findEntity | markCompleted | findFiles | resetEntities |
    findChangeset | archiveEntities | history =>
    cases h
    exact hf

/-- Over calls before the last of which the file always has an unresolved entity, it is left alone, if
in the end it declares as many entities as it owns. -/
theorem afterCalls_find?_file (hkeyed : db.Keyed) (hf : db.files.find? file = some f)
    (hopen : f.status = .inProgress) (hfilled : 0 < db.entityCount file)
    (calls : List (Timestamp × StoreCall))
    (htotal : f.Declares ((db.afterCalls calls).entityCount file))
    (hwaits : ∀ before after, calls = before ++ after → after ≠ [] →
      ¬ (db.afterCalls before).AllResolved file) :
    (db.afterCalls calls).files.find? file = some f := by
  -- no call takes an entity away, so the total suffices on the way if it does in the end
  induction calls generalizing db with
  | nil => exact hf
  | cons call rest ih =>
    obtain ⟨now, c⟩ := call
    have hnow : ¬ db.AllResolved file := hwaits [] ((now, c) :: rest) rfl nofun
    have hlater : ∀ before after, rest = before ++ after → after ≠ [] →
        ¬ (db.afterCalls ((now, c) :: before)).AllResolved file :=
      fun before after hsplit => hwaits ((now, c) :: before) after (hsplit ▸ rfl)
    have hfew : db.fileCloses file f = false :=
      fileCloses_eq_false htotal
        (Nat.lt_of_lt_of_le (resolvedCount_lt hnow) (entityCount_le_afterCalls hkeyed file _))
    unfold afterCalls at htotal hlater ⊢
    cases happly : db.apply now c with
    | error e =>
      simp only [happly] at htotal hlater ⊢
      exact ih hkeyed hf hfilled htotal hlater
    | ok out =>
      obtain ⟨reply, db'⟩ := out
      simp only [happly] at htotal hlater ⊢
      refine ih (apply_keyed hkeyed happly)
        (apply_find?_file hkeyed hf hopen hfilled hfew happly) ?_ htotal hlater
      exact Nat.lt_of_lt_of_le hfilled ((apply_evolves hkeyed happly).entityCount_le file)

variable {rerun : SyncRun} {f' : File}

theorem completedFiles_lt_fileCount (hf : db.files.find? file = some f) (hsync : f.syncId = base)
    (hopen : f.status = .inProgress) : db.completedFiles base < db.fileCount base := by
  rw [completedFiles_eq]
  refine Nat.lt_of_le_of_ne (completedCount_le_fileCount db base) fun hall => ?_
  have hdone := allCompleted_iff.2 hall file f hf hsync
  rw [hopen] at hdone
  cases hdone

theorem tryCloseFile_fst_iff (hf : db.files.find? file = some f) (hsync : f.syncId = base)
    (hopen : f.status = .inProgress) (htotal : f.Declares (db.entityCount file)) (now : Timestamp) :
    (db.tryCloseFile now file).1 = some base ↔ db.AllResolved file := by
  rw [← fileCloses_iff htotal hopen]
  unfold tryCloseFile
  rw [hf]
  dsimp only
  cases db.fileCloses file f with
  | true => simp [hsync]
  | false => simp

theorem owns_inRerun_withRerun_iff (hkeyed : db.Keyed) (howns : db.ownsFile base file = true) :
    (db.withRerun base rerun).Owns file .inRerun ↔ ∃ s, s ≠ .completed ∧ db.Owns file s := by
  constructor
  · rintro ⟨k, e', he', hfile, hstatus⟩
    rw [find?_entities_withRerun] at he'
    obtain ⟨e, he, rfl⟩ := Option.map_eq_some_iff.1 he'
    refine ⟨e.status, fun hdone => ?_, k, e, he, hfile, rfl⟩
    rw [hdone] at hstatus
    simp [hdone] at hstatus
  · rintro ⟨s, hopen, k, e, he, hfile, rfl⟩
    have hkey : e.fileId = file := (congrArg EntityKey.file (hkeyed.entities he)).trans hfile
    refine ⟨k, _, (find?_entities_withRerun ..).trans (congrArg (Option.map _) he), hfile, ?_⟩
    dsimp only
    rw [hkey, howns]
    cases hs : e.status with
    | completed => exact absurd hs hopen
    | inProgress | notSynced | failed | inRerun => simp [hs]

theorem owns_notSynced_iff : db.Owns file .notSynced ↔ 0 < db.unsyncedCount file := by
  constructor
  · rintro ⟨k, e, he, hfile, hstatus⟩
    exact Table.count_pos he (by simp [hfile, hstatus])
  · intro hpos
    obtain ⟨⟨k, e⟩, hmem, hunsynced⟩ := List.countP_pos_iff.1 hpos
    rw [Bool.and_eq_true, decide_eq_true_eq, decide_eq_true_eq] at hunsynced
    exact ⟨k, e, (Table.find?_eq_some_iff _ _ _).2 hmem, hunsynced⟩

theorem withRerun_keyed (h : db.Keyed) (base : SyncId) (rerun : SyncRun) :
    (db.withRerun base rerun).Keyed where
  files := (h.files.filter _).mapRows fun _ f => by split <;> rfl
  entities := h.entities.mapRows fun _ e => by split <;> rfl

theorem entityCount_withRerun (db : Database) (base : SyncId) (rerun : SyncRun) (file : FileId) :
    (db.withRerun base rerun).entityCount file = db.entityCount file := by
  unfold entityCount withRerun
  rw [Table.count_mapRows]

theorem withRerun_takesUp (hkeyed : db.Keyed)
    (hf' : (db.withRerun base rerun).files.find? file = some f') (hsync : f'.syncId = base) :
    ∃ f, db.files.find? file = some f ∧ db.TakesUp (db.withRerun base rerun) base file f f' := by
  obtain ⟨f, hfound, hstep⟩ := Option.map_eq_some_iff.1 ((find?_files_withRerun ..).symm.trans hf')
  obtain ⟨hf, hkept⟩ := Option.filter_eq_some_iff.1 hfound
  have hbase : f.syncId = base := by
    rw [← hsync, ← hstep]
    split <;> rfl
  have hfilled : 0 < db.entityCount file := by
    refine Nat.pos_of_ne_zero fun hnone => ?_
    simp [bare, hbase, hkeyed.files hf, hnone] at hkept
  rw [hkeyed.files hf] at hstep
  refine ⟨f, hf, ?_⟩
  constructor
  case handed => exact owns_inRerun_withRerun_iff hkeyed (ownsFile_iff.2 ⟨f, hf, hbase⟩)
  case underway =>
    rw [owns_notSynced_iff]
    split at hstep
    next hreopens =>
      subst hstep
      exact ⟨fun _ => .inl hreopens.2, fun _ => ⟨rfl, rfl⟩⟩
    next hcloses =>
      subst hstep
      refine ⟨.inr, ?_⟩
      rintro (hreopens | hunderway)
      · exact absurd ⟨hbase, hreopens⟩ hcloses
      · exact hunderway
  case kept =>
    intro hnot
    split at hstep
    · subst hstep
      exact absurd ⟨rfl, rfl⟩ hnot
    · exact hstep.symm
  case waits =>
    intro hunderway calls htotal hwaits
    have hstays := afterCalls_find?_file (withRerun_keyed hkeyed base rerun) hf' hunderway.1
      (by rwa [entityCount_withRerun]) calls htotal hwaits
    exact ⟨hstays, completedFiles_lt_fileCount hstays hsync hunderway.1,
      tryCloseFile_fst_iff hstays hsync hunderway.1 htotal⟩

end Database

namespace Rerun

open SyncCascade.Session

/-- When a rerun is made in a state that a run from the empty database reaches, this becomes of every
file that its base still has. -/
theorem create_takes_up {β : Type} (broker : Broker β) (transaction : TransactionConfig)
    (queue : QueueConfig) (w : World Session β) (activities : List Activity)
    (config : TransactionConfig) (base : SyncId) (request : RerunRequest) {sync : SyncRun}
    {w₂ : World Session β} :
    let w₁ := (plainRun broker transaction queue (w.withStore (.ofDatabase .empty)) activities).2
    (create storage config base request).run w₁ = (.ok (.created sync), w₂) →
      ∀ file f', w₂.store.committed.files.find? file = some f' → f'.syncId = base →
        ∃ f, w₁.store.committed.files.find? file = some f ∧
          w₁.store.committed.TakesUp w₂.store.committed base file f f' := by
  intro w₁ hrun file f' hf' hsync
  have hkeyed := (plainRun_keeps broker transaction queue Database.keyed_empty
    Database.preserved_keyed w activities).committed
  rw [committed_of_created config base request hkeyed hrun] at hf' ⊢
  exact Database.withRerun_takesUp hkeyed hf' hsync

open Sample (base filled request baseRow)

namespace Sample

def fresh : World Session BrokerRehearsal := .initial (.ofDatabase .empty) ⟨[], [], []⟩

def making (calls : List (Timestamp × StoreCall)) : List Activity :=
  calls.map (fun c => .call c.2) ++ [.commit]

def made (calls : List (Timestamp × StoreCall)) : World Session BrokerRehearsal :=
  (plainRun BrokerRehearsal.broker .default .default (fresh.withStore (.ofDatabase .empty))
    (making calls)).2

def secondRow : SyncRun :=
  { baseRow 2 with
    id := request.id
    startDate := request.startDate
    status := .inProgress
    baseSyncId := some base
    runNumber := 2 }

theorem create_made :
    (create storage .default base request).run (made (calls 3)) =
      (.ok (.created secondRow), ((create storage .default base request).run (made (calls 3))).2) :=
  Prod.ext (eq_ok_of_toOption (by decide +kernel)) rfl

end Sample

open Sample in
/-- The completed file of which one entity was not synced is underway with the rerun, and closes once
that entity is completed. -/
theorem create_takes_up_sample :
    let created := (create storage .default base request).run (made (calls 3))
    let db' := created.2.store.committed
    let f : File := ⟨filled, base, .completed, some 2, ⟨0, 0⟩, some ⟨9, 0⟩⟩
    let f' : File := ⟨filled, base, .inProgress, some 2, ⟨0, 0⟩, none⟩
    let patch := (⟨70, 0⟩, .patchEntity ⟨"b"⟩ filled (.ofStatus .completed))
    f'.Underway ∧ (made (calls 3)).store.committed.TakesUp db' base filled f f' ∧
      ((db'.afterCalls [patch]).tryCloseFile ⟨80, 0⟩ filled).1 = some base := by
  intro created db' f f' patch
  have hfile : db'.files.find? filled = some f' := by decide +kernel
  obtain ⟨f₀, hf₀, htakes⟩ := create_takes_up BrokerRehearsal.broker .default .default fresh
    (making (calls 3)) .default base request create_made filled f' hfile rfl
  have hf : (made (calls 3)).store.committed.files.find? filled = some f := by decide +kernel
  cases hf.symm.trans hf₀
  have hopen : ¬ db'.AllResolved filled := mt Database.allResolved_iff.1 (by decide +kernel)
  have hpatched : (db'.afterCalls [patch]).AllResolved filled :=
    Database.allResolved_iff.2 (by decide +kernel)
  refine ⟨⟨rfl, rfl⟩, htakes, ?_⟩
  refine ((htakes.waits ⟨rfl, rfl⟩ [patch] (by decide +kernel) ?_).2.2 ⟨80, 0⟩).2 hpatched
  intro before after hsplit hafter
  cases before with
  | nil => exact hopen
  | cons call rest =>
    have hrest : rest ++ after = [] := (List.cons.inj hsplit).2.symm
    exact absurd (List.append_eq_nil_iff.1 hrest).2 hafter

namespace Sample

def lost : FileId := ⟨⟨7⟩⟩

def undeclared : FileId := ⟨⟨8⟩⟩

def overfull : FileId := ⟨⟨9⟩⟩

/-- A failed file with a failed entity; a completed file without a declared total of which the entity
was not synced; and a file that owns two entities and declares one. -/
def oddCalls : List (Timestamp × StoreCall) :=
  [.insertSync (baseRow 3),
    .insertFile ⟨lost, base, .failed, some 1, ⟨0, 0⟩, some ⟨9, 0⟩⟩,
    .insertFile ⟨undeclared, base, .completed, none, ⟨0, 0⟩, some ⟨9, 0⟩⟩,
    .insertFile ⟨overfull, base, .inProgress, some 1, ⟨0, 0⟩, none⟩,
    .insertEntities [⟨⟨"a"⟩, lost, none, .failed, .create, some "lost"⟩,
      ⟨⟨"b"⟩, undeclared, none, .notSynced, .create, none⟩,
      ⟨⟨"c"⟩, overfull, none, .completed, .create, none⟩,
      ⟨⟨"d"⟩, overfull, none, .failed, .create, none⟩]].map fun c => (⟨0, 0⟩, c)

def statusIn (db : Database) (id : EntityId) (file : FileId) : Option EntityStatus :=
  (db.entities.find? ⟨file, id⟩).map Entity.status

end Sample

open Sample in
/-- With the rerun, the failed file stays failed although its entity is in rerun, and does not close
when that is completed. Nor does the one that declares no total, while the one that declares too few
entities closes before the entity in rerun is done. -/
theorem unfinished_files_left_out :
    let created := (create storage .default base request).run (made oddCalls)
    let db := created.2.store.committed
    let patched := db.afterCalls [(⟨70, 0⟩, .patchEntity ⟨"a"⟩ lost (.ofStatus .completed)),
      (⟨70, 0⟩, .patchEntity ⟨"b"⟩ undeclared (.ofStatus .completed))]
    created.1 = .ok (.created { baseRow 3 with
      id := request.id
      startDate := request.startDate
      status := .inProgress
      baseSyncId := some base
      runNumber := 1 }) ∧
      statusIn db ⟨"a"⟩ lost = some .inRerun ∧
      db.files.find? lost = some ⟨lost, base, .failed, some 1, ⟨0, 0⟩, some ⟨9, 0⟩⟩ ∧
      (patched.tryCloseFile ⟨80, 0⟩ lost).1 = none ∧
      statusIn db ⟨"b"⟩ undeclared = some .inRerun ∧
      (patched.tryCloseFile ⟨80, 0⟩ undeclared).1 = none ∧
      statusIn db ⟨"d"⟩ overfull = some .inRerun ∧
      (db.tryCloseFile ⟨80, 0⟩ overfull).1 = some base := by
  decide +kernel

end Rerun

end SyncCascade
