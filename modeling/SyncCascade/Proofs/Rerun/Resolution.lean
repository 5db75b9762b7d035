import SyncCascade.Broker.Rehearsal
import SyncCascade.Proofs.Rerun.Effect
import SyncCascade.Proofs.Rerun.Pairing
import SyncCascade.Proofs.Store.References

/-!
# A rerun resolves its base

If the base of a rerun is counted, so it is with the rerun, and the rerun owns no file, declares as
many as the base does then and is the latest one. So the two wait while some entity of the base's files
is unresolved, and close together after all its files were closed. That the rerun was made says that it
has a number beyond those before.
-/

namespace SyncCascade

namespace Database

variable {db : Database} {base : SyncId} {rerun row : SyncRun}

theorem totalWithout_eq_count {n m : Nat} {total : Option Int32}
    (h : total.map Int32.toInt = some ((n + m : Nat) : Int)) :
    (totalWithout n total).map Int32.toInt = some (m : Int) := by
  obtain ⟨t, rfl, ht⟩ := Option.map_eq_some_iff.1 h
  have hlt := Int32.toInt_lt t
  by_cases hn : n = 0
  · subst hn
    simp only [totalWithout, if_true, Option.map_some, ht, Nat.zero_add]
  · have hlowered : max 0 (t.toInt - n) = (m : Int) := by omega
    rw [totalWithout, if_neg hn, Option.map_some, Option.map_some, hlowered,
      Int32.toInt_ofInt_of_le (by omega) (by omega)]

theorem fileCount_withRerun (db : Database) (base : SyncId) (rerun : SyncRun) (sync : SyncId) :
    (db.withRerun base rerun).fileCount sync =
      (db.files.filter fun _ f => !db.bare base f).count fun _ f => decide (f.syncId = sync) := by
  unfold fileCount withRerun
  rw [Table.count_mapRows]
  refine Table.count_congr fun _ f _ => ?_
  split <;> rfl

theorem fileCount_eq_add (db : Database) (base : SyncId) (rerun : SyncRun) :
    db.fileCount base = db.bareCount base + (db.withRerun base rerun).fileCount base := by
  have hbare : (db.files.filter fun _ f => db.bare base f).count (fun _ f => decide (f.syncId = base)) =
      db.bareCount base := by
    rw [Table.count_filter]
    refine Table.count_congr fun _ f _ => ?_
    unfold bare
    cases decide (f.syncId = base) <;> simp
  rw [fileCount_withRerun, ← hbare]
  exact Table.count_split ..

theorem filledCompletedCount_le (db : Database) (base : SyncId) (rerun : SyncRun) :
    db.filledCompletedCount base ≤ (db.withRerun base rerun).fileCount base := by
  rw [fileCount_withRerun, Table.count_filter]
  exact Table.count_mono fun _ f _ hp => (Bool.and_eq_true_iff.1 hp).1

theorem exhausted_of_no_file (hcounted : db.Counted base) (hrow : db.syncs.find? base = some row)
    (hnone : (db.withRerun base rerun).fileCount base = 0) :
    0 < db.bareCount base ∧ db.Exhausted base row := by
  have hadd := db.fileCount_eq_add base rerun
  have hle := db.filledCompletedCount_le base rerun
  have hpos : 0 < db.bareCount base := by
    have := hcounted.nonempty
    omega
  have hfilled : db.filledCompletedCount base = 0 := by omega
  refine ⟨hpos, ?_⟩
  unfold Exhausted
  rw [hfilled]
  refine (totalWithout_eq_ofNat_iff hpos (Word.limit_pos 32) _).2 ?_
  obtain ⟨t, htotal, ht⟩ := Option.map_eq_some_iff.1 (hcounted.totalFiles hrow)
  exact ⟨t, htotal, by omega⟩

theorem find?_withRerun_base (hrow : db.syncs.find? base = some row)
    (hfree : db.syncs.contains rerun.id = false) :
    (db.withRerun base rerun).syncs.find? base =
      some { row with totalFiles := totalWithout (db.bareCount base) row.totalFiles } := by
  rw [find?_withRerun, if_neg (Table.ne_of_free hfree hrow), if_pos rfl, hrow, Option.map_some]

theorem withRerun_syncsKeyed (h : db.SyncsKeyed) (base : SyncId) (rerun : SyncRun) :
    (db.withRerun base rerun).SyncsKeyed := by
  intro id s hs
  by_cases hid : id = rerun.id
  · rw [find?_withRerun, if_pos hid] at hs
    cases hs
    exact hid.symm
  · obtain ⟨s₀, hs₀, hsame, -⟩ := withRerun_back hid hs
    rw [hsame]
    exact h hs₀

theorem latestRerun_withRerun (hkeyed : db.SyncsKeyed) (hbase : rerun.baseSyncId = some base)
    (hnumber : ∀ r ∈ db.rerunsOf base, r.runNumber.toInt < rerun.runNumber.toInt) :
    ((db.withRerun base rerun).latestRerun base).map SyncRun.id = some rerun.id := by
  have hkeyed' := withRerun_syncsKeyed hkeyed base rerun
  have hmem : rerun ∈ (db.withRerun base rerun).rerunsOf base := by
    refine List.mem_filter.2 ⟨Table.mem_rows.2 ⟨rerun.id, ?_⟩, by simpa using hbase⟩
    rw [find?_withRerun, if_pos rfl]
  cases hlatest : (db.withRerun base rerun).latestRerun base with
  | none =>
    rw [latestRerun_eq_none hlatest] at hmem
    cases hmem
  | some r =>
    obtain ⟨hr, hhighest⟩ := highestRerun_of_latestRerun hlatest
    rw [Option.map_some]
    by_cases hid : r.id = rerun.id
    · rw [hid]
    · obtain ⟨r₀, hr₀, -, hsame, hsame'⟩ := withRerun_back hid (find?_of_mem_rerunsOf hkeyed' hr)
      have hmem₀ : r₀ ∈ db.rerunsOf base := by
        refine List.mem_filter.2 ⟨Table.mem_rows.2 ⟨r.id, hr₀⟩, ?_⟩
        rw [← hsame]
        exact (List.mem_filter.1 hr).2
      have hlt := hnumber r₀ hmem₀
      have hle := hhighest rerun hmem
      rw [hsame'] at hle
      omega

theorem file_withRerun_back {id : FileId} {f' : File}
    (hf' : (db.withRerun base rerun).files.find? id = some f') :
    ∃ f, db.files.find? id = some f ∧ f'.syncId = f.syncId ∧ f'.totalEntities = f.totalEntities ∧
      (f'.status = .inProgress ∨ f' = f ∧
        ¬ (f.syncId = base ∧ f.status ≠ .inProgress ∧ 0 < db.unsyncedCount f.fileId)) := by
  rw [find?_files_withRerun] at hf'
  obtain ⟨f, hf, rfl⟩ := Option.map_eq_some_iff.1 hf'
  refine ⟨f, (Option.filter_eq_some_iff.1 hf).1, ?_⟩
  split
  next => exact ⟨rfl, rfl, .inl rfl⟩
  next hkept => exact ⟨rfl, rfl, .inr ⟨rfl, hkept⟩⟩

theorem allResolved_withRerun {file : FileId} (hresolved : db.AllResolved file)
    (hsynced : db.unsyncedCount file = 0) : (db.withRerun base rerun).AllResolved file := by
  intro k e' he' hk
  unfold withRerun at he'
  rw [Table.find?_mapRows] at he'
  obtain ⟨e, he, rfl⟩ := Option.map_eq_some_iff.1 he'
  have hstatus := hresolved k e he hk
  have hnot : e.status ≠ .notSynced := by
    intro hunsynced
    have hpos : 0 < db.unsyncedCount file := Table.count_pos he (by simp [hk, hunsynced])
    omega
  have hkept : ¬ (db.ownsFile base e.fileId = true ∧
      (e.status = .inProgress ∨ e.status = .notSynced ∨ e.status = .failed)) := by
    rintro ⟨-, h | h | h⟩
    · rw [h] at hstatus
      cases hstatus
    · exact hnot h
    · rw [h] at hstatus
      cases hstatus
  rw [if_neg hkept]
  exact hstatus

theorem Counted.withRerun (hcounted : db.Counted base) (hkeyed : db.Keyed)
    (hrow : db.syncs.find? base = some row) (hfree : db.syncs.contains rerun.id = false)
    (hopen : 0 < db.bareCount base → ¬ db.Exhausted base row) :
    (db.withRerun base rerun).Counted base := by
  have hadd := db.fileCount_eq_add base rerun
  constructor
  case nonempty =>
    refine Nat.pos_of_ne_zero fun hnone => ?_
    obtain ⟨hbare, hexhausted⟩ := exhausted_of_no_file hcounted hrow hnone
    exact hopen hbare hexhausted
  case totalFiles =>
    intro row' hrow'
    rw [find?_withRerun_base hrow hfree] at hrow'
    cases hrow'
    exact totalWithout_eq_count (hadd ▸ hcounted.totalFiles hrow)
  case totalEntities =>
    intro id f' hf' hsync
    obtain ⟨f, hf, hsync', htotal, -⟩ := file_withRerun_back hf'
    have hcount : (db.withRerun base rerun).entityCount id = db.entityCount id := by
      unfold entityCount Database.withRerun
      rw [Table.count_mapRows]
    rw [htotal, hcount]
    exact hcounted.totalEntities hf (hsync'.symm.trans hsync)
  case status =>
    intro id f' hf' hsync
    obtain ⟨f, hf, hsync', -, hreopened | ⟨rfl, hkept⟩⟩ := file_withRerun_back hf'
    · exact .inl hreopened
    · rcases hcounted.status hf hsync with hopen | ⟨hdone, hresolved⟩
      · exact .inl hopen
      · refine .inr ⟨hdone, allResolved_withRerun hresolved (Nat.eq_zero_of_not_pos fun hpos => ?_)⟩
        rw [← hkeyed.files hf] at hpos
        exact hkept ⟨hsync, by simp [hdone], hpos⟩

theorem no_file_of_free (howned : db.FilesOwned) (base : SyncId)
    (hfree : db.syncs.contains rerun.id = false) :
    (db.withRerun base rerun).fileCount rerun.id = 0 := by
  rw [fileCount_withRerun, Table.count_filter]
  refine Nat.eq_zero_of_not_pos fun hpos => ?_
  obtain ⟨e, he, hp⟩ := List.countP_pos_iff.1 hpos
  have hf := (Table.find?_eq_some_iff db.files e.1 e.2).2 he
  have hsync := of_decide_eq_true (Bool.and_eq_true_iff.1 hp).1
  have hthere := howned hf
  rw [hsync, hfree] at hthere
  cases hthere

/-- A rerun that is created is linked to its base, which waits for it. -/
theorem attempted_linked {now : Timestamp} {request : RerunRequest} {db' : Database}
    (hkeyed : db.Keyed) (hsyncs : db.SyncsKeyed) (howned : db.FilesOwned)
    (hcounted : db.Counted base)
    (h : Attempted now db base request (.created rerun) db') :
    db'.Linked base rerun.id ∧ db'.Waits base rerun.id := by
  cases h with
  | @created row number hadmits hopen hnext =>
    obtain ⟨hroot, hfailed, -⟩ := Rerun.obstacle_eq_none_iff.1 hadmits.clear
    have hrow := hadmits.row_eq
    have hfree : db.syncs.contains (db.rerunRow base row number request).id = false := hadmits.free
    have hnumber : ∀ r ∈ db.rerunsOf base,
        r.runNumber.toInt < (db.rerunRow base row number request).runNumber.toInt := by
      intro r hr
      have hle := le_highestNumber hr
      have hnext' : (db.rerunRow base row number request).runNumber.toInt = _ := toInt_nextNumber hnext
      omega
    rw [withRow_trimmed hkeyed]
    generalize hrerun : db.rerunRow base row number request = rerun at hfree hnumber
    have hbaserow := find?_withRerun_base hrow hfree
    have hrerunrow : (db.withRerun base rerun).syncs.find? rerun.id = some rerun := by
      rw [find?_withRerun, if_pos rfl]
    have hbase : rerun.baseSyncId = some base := by
      rw [← hrerun]
      rfl
    refine ⟨⟨?_, ?_, ⟨_, hbaserow, hroot⟩, ⟨rerun, hrerunrow, hbase, ?_⟩, ?_, ?_⟩, ⟨?_, ?_⟩⟩
    · exact withRerun_syncsKeyed hsyncs base rerun
    · exact hcounted.withRerun hkeyed hrow hfree hopen
    · have htotal : rerun.totalFiles = totalWithout (db.bareCount base) row.totalFiles := by
        rw [← hrerun]
        rfl
      rw [htotal]
      exact totalWithout_eq_count (db.fileCount_eq_add base rerun ▸ hcounted.totalFiles hrow)
    · exact no_file_of_free howned base hfree
    · exact latestRerun_withRerun hsyncs hbase hnumber
    · unfold syncStatus
      rw [hbaserow]
      exact congrArg some hfailed
    · unfold syncStatus
      rw [hrerunrow, ← hrerun]
      rfl

end Database

namespace Rerun

open SyncCascade.Action SyncCascade.Session

variable {β : Type}

theorem create_reliable (config : TransactionConfig) (base : SyncId) (request : RerunRequest)
    (w : World Session β) :
    (create storage config base request).Ensures w
      (fun _ w' => w'.store.Reliable ∧ 0 < config.retry.attempts) fun _ _ => True := by
  unfold create
  refine Ensures.announcing ?_ fun _ _ _ _ h => h
  rw [ensures_bind]
  refine ((run_reliable config _ _ w).and (Transaction.run_allowed storage config _ _ w)).mono
    (fun outcome w' h => ?_) fun _ _ _ => trivial
  cases outcome with
  | created sync => exact h
  | notCreated closed =>
    exact ensures_note_bind (P := fun w => w.store.Reliable ∧ _) (fun _ _ _ h => h) h fun _ h => h

variable (broker : Broker β) (transaction : TransactionConfig) (queue : QueueConfig)

/-- Let a rerun be created of a counted base, in whatever database calls can make. After any steps that
spare the base, it is failed and the rerun in progress as long as some entity of its files is unresolved.
Once none is, and each file was closed after that, closing the base leaves both completed, and of all
steps exactly one told any of the two to be closed, namely both. -/
theorem create_resolves (base : SyncId) (request : RerunRequest) {w w' : World Session β}
    {db : Database} {rerun : SyncRun} (calls : List (Timestamp × StoreCall))
    (hcalls : db = Database.empty.afterCalls calls) (hdb : w.store.committed = db)
    (hcounted : db.Counted base)
    (hrun : (create storage transaction base request).run w = (.ok (.created rerun), w')) :
    let run := (plainEngine broker transaction queue).pursueAll w'
    let state := fun steps => (run steps).2.store.committed
    (∀ steps, (∀ step ∈ steps, w'.store.committed.Spares base step.2) →
      (state steps).Unresolved base →
        (state steps).syncStatus base = some .failed ∧
          (state steps).syncStatus rerun.id = some .inProgress) ∧
    ∀ before after clock correlationId,
      (∀ step ∈ before ++ after, w'.store.committed.Spares base step.2) →
      ¬ (state before).Unresolved base →
      (∀ file, w'.store.committed.ownsFile base file = true →
        ∃ clock correlationId, (clock, .closeFile file correlationId) ∈ after) →
      let steps := before ++ after ++ [(clock, .closeSync base correlationId)]
      (state steps).syncStatus base = some .completed ∧
        (state steps).syncStatus rerun.id = some .completed ∧
        Database.mentioning base rerun.id (run steps).1 = [[base, rerun.id]] := by
  intro run state
  have hcreated : (create storage transaction base request).Ensures w _ _ :=
    (create_ensures transaction ⟨⟨hdb, rfl⟩, rfl, rfl⟩).and
      (create_reliable transaction base request w)
  unfold Action.Ensures at hcreated
  rw [hrun] at hcreated
  obtain ⟨⟨db', hattempted, hhas, -⟩, hreliable, hallowed⟩ := hcreated
  obtain ⟨hlinked, hwaits⟩ := Database.attempted_linked (hcalls ▸ Database.keyed_empty.afterCalls calls)
    (hcalls ▸ Database.preserved_syncsKeyed.afterCalls Database.syncsKeyed_empty calls)
    (hcalls ▸ Database.preserved_filesOwned.afterCalls Database.filesOwned_empty calls)
    hcounted hattempted
  have hdb' : w'.store.committed = db' := hhas
  have hpursued : ∀ steps, (run steps).1 = (db'.pursueAll steps).1 ∧
      state steps = (db'.pursueAll steps).2 :=
    Engine.pursueAll_eq broker transaction queue hallowed hdb' hreliable
  rw [hdb']
  constructor
  · intro steps hspares hunresolved
    rw [(hpursued steps).2] at hunresolved ⊢
    rcases hlinked.pursueAll_waits hwaits hspares with ⟨-, hstill⟩ | ⟨-, hdone⟩
    · exact ⟨hstill.base_failed, hstill.rerun_open⟩
    · exact absurd hunresolved
        ((hlinked.pursueAll hspares).counted.not_unresolved hdone.files_completed)
  · intro before after clock correlationId hspares hresolved hclosed steps
    rw [(hpursued before).2] at hresolved
    rw [(hpursued steps).1, (hpursued steps).2]
    obtain ⟨htold, hdone⟩ := hlinked.resolves hwaits hspares hresolved hclosed clock correlationId
    exact ⟨hdone.base_completed, hdone.rerun_completed, htold⟩

section Sample

open Sample (base filled request baseRow earlierRow)

namespace Resolvable

/-- A failed root with a failed rerun, and one file with one entity, which failed. -/
def calls : List (Timestamp × StoreCall) :=
  [.insertSync (baseRow 1), .insertSync (earlierRow 1),
    .insertFile ⟨filled, base, .inProgress, some 1, ⟨0, 0⟩, none⟩,
    .insertEntities [⟨⟨"a"⟩, filled, none, .failed, .create, some "lost"⟩]].map fun c => (⟨0, 0⟩, c)

def database : Database := .afterCalls .empty calls

def world : World Session BrokerRehearsal := .initial (.ofDatabase database) ⟨[], [], []⟩

def row : SyncRun :=
  { baseRow 1 with
    id := request.id
    startDate := request.startDate
    status := .inProgress
    baseSyncId := some base
    runNumber := 2 }

def engine : Engine Session BrokerRehearsal := plainEngine BrokerRehearsal.broker .default .default

def patch : Clock × FollowUp := (⟨⟨70, 0⟩, 0⟩, .patchEntity ⟨"a"⟩ filled (.ofStatus .completed))

def closeFile : Clock × FollowUp := (⟨⟨80, 0⟩, 0⟩, .closeFile filled "file")

def closeSync : Clock × FollowUp := (⟨⟨90, 0⟩, 0⟩, .closeSync base "sync")

end Resolvable

open Resolvable in
/-- After the one rerun another one is made. With it the base is closed when its entity and its file
are. -/
theorem create_resolves_sample :
    ∃ w', (create storage .default base request).run world = (.ok (.created row), w') ∧
      w'.store.committed.Unresolved base ∧ w'.store.committed.syncStatus base = some .failed ∧
      let run := engine.pursueAll w' [patch, closeFile, closeSync]
      run.2.store.committed.syncStatus request.id = some .completed ∧
        Database.mentioning base request.id run.1 = [[base, request.id]] := by
  have hanswer : ((create storage .default base request).run world).1 = .ok (.created row) := by
    decide +kernel
  have hresolves := create_resolves BrokerRehearsal.broker .default .default base request calls
    rfl rfl (by decide +kernel) (Prod.ext hanswer rfl)
  have hunresolved :
      ((create storage .default base request).run world).2.store.committed.Unresolved base := by
    decide +kernel
  refine ⟨_, Prod.ext hanswer rfl, hunresolved, (hresolves.1 [] nofun hunresolved).1, ?_⟩
  refine (hresolves.2 [patch] [closeFile] _ "sync" ?_ (by decide +kernel) ?_).2
  · intro step hstep
    rcases List.mem_cons.1 hstep with rfl | hstep
    · rintro - - s ⟨⟩
      rfl
    · rw [List.mem_singleton.1 hstep]
      trivial
  · intro file howns
    obtain ⟨f, hf, -⟩ := Database.ownsFile_iff.1 howns
    have hfiles : ∀ e ∈ ((create storage .default base request).run
        world).2.store.committed.files.entries, e.1 = filled := by
      decide +kernel
    have hfile : file = filled := hfiles _ ((Table.find?_eq_some_iff _ _ _).1 hf)
    subst hfile
    exact ⟨_, _, List.mem_cons_self⟩

end Sample

end Rerun

end SyncCascade
