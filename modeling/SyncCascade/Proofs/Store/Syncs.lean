import SyncCascade.Proofs.Table
import SyncCascade.Store.Database

/-!
# Syncs close once

What the calls do to the rows of syncs. `tryCloseSync` is the only one that completes a sync, and no
call changes the status or the end of a completed one. `Closes db closed db'` says so of a step from
`db` to `db'` that told the syncs `closed`; such steps compose.
-/

namespace SyncCascade

/-- The syncs a reply tells to be closed. -/
def StoreCall.closed : (c : StoreCall) → c.Reply → List SyncId
  | tryCloseSync _, closed => closed
  | _, _ => []

namespace Database

def SyncDone (db : Database) (id : SyncId) (endDate : Option Timestamp) : Prop :=
  ∃ s, db.syncs.find? id = some s ∧ s.status = .completed ∧ s.endDate = endDate

/-- What is completed in `db` is so in `db'`, since the same moment. -/
def KeepsDone (db db' : Database) : Prop :=
  ∀ ⦃id endDate⦄, db.SyncDone id endDate → db'.SyncDone id endDate

def SyncsKeyed (db : Database) : Prop := ∀ ⦃id s⦄, db.syncs.find? id = some s → s.id = id

structure Closes (db : Database) (closed : List SyncId) (db' : Database) : Prop where
  keeps : db.KeepsDone db'
  open_before : ∀ id ∈ closed, ∀ endDate, ¬ db.SyncDone id endDate
  done_after : ∀ id ∈ closed, ∃ endDate, db'.SyncDone id endDate
  nodup : closed.Nodup

theorem syncsKeyed_empty : empty.SyncsKeyed := by
  intro id s h
  cases h

theorem Closes.refl (db : Database) : db.Closes [] db where
  keeps _ _ h := h
  open_before _ h := by cases h
  done_after _ h := by cases h
  nodup := .nil

theorem Closes.trans {db db' db'' : Database} {closed closed' : List SyncId}
    (h : db.Closes closed db') (h' : db'.Closes closed' db'') :
    db.Closes (closed ++ closed') db'' where
  keeps _ _ hdone := h'.keeps (h.keeps hdone)
  open_before id hid endDate hdone := by
    rcases List.mem_append.1 hid with hid | hid
    · exact h.open_before id hid endDate hdone
    · exact h'.open_before id hid endDate (h.keeps hdone)
  done_after id hid := by
    rcases List.mem_append.1 hid with hid | hid
    · obtain ⟨endDate, hdone⟩ := h.done_after id hid
      exact ⟨endDate, h'.keeps hdone⟩
    · exact h'.done_after id hid
  nodup := by
    rw [List.nodup_append]
    refine ⟨h.nodup, h'.nodup, ?_⟩
    rintro id hid _ hid' rfl
    obtain ⟨endDate, hdone⟩ := h.done_after id hid
    exact h'.open_before id hid' endDate hdone

theorem closes_of_syncs_eq {db db' : Database} (h : db'.syncs = db.syncs) : db.Closes [] db' where
  keeps id endDate hdone := by
    unfold SyncDone at hdone ⊢
    rw [h]
    exact hdone
  open_before _ h := by cases h
  done_after _ h := by cases h
  nodup := .nil

theorem foldl_laterRun_mem {runs : List SyncRun} {best : Option SyncRun} {r : SyncRun}
    (h : runs.foldl laterRun best = some r) : best = some r ∨ r ∈ runs := by
  induction runs generalizing best with
  | nil => exact .inl h
  | cons s rest ih =>
    rcases ih h with hlater | hrest
    · cases best with
      | none =>
        cases hlater
        exact .inr List.mem_cons_self
      | some b =>
        simp only [laterRun] at hlater
        split at hlater
        · cases hlater
          exact .inr List.mem_cons_self
        · exact .inl hlater
    · exact .inr (List.mem_cons_of_mem _ hrest)

theorem latestRerun_mem {db : Database} {base : SyncId} {r : SyncRun}
    (h : db.latestRerun base = some r) : r ∈ db.rerunsOf base := by
  rcases foldl_laterRun_mem h with h | h
  · cases h
  · exact h

/-- The rerun has the highest run number among those of its base. -/
def HighestRerun (db : Database) (base : SyncId) (r : SyncRun) : Prop :=
  r ∈ db.rerunsOf base ∧ ∀ r' ∈ db.rerunsOf base, r'.runNumber.toInt ≤ r.runNumber.toInt

theorem laterRun_highest (best : Option SyncRun) (s : SyncRun) :
    ∃ r, laterRun best s = some r ∧ s.runNumber.toInt ≤ r.runNumber.toInt ∧
      ∀ b, best = some b → b.runNumber.toInt ≤ r.runNumber.toInt := by
  cases best with
  | none =>
    refine ⟨s, rfl, Int.le_refl _, fun b hb => ?_⟩
    cases hb
  | some b =>
    unfold laterRun
    by_cases hle : b.runNumber.toInt ≤ s.runNumber.toInt
    · refine ⟨s, if_pos hle, Int.le_refl _, ?_⟩
      rintro _ ⟨⟩
      exact hle
    · refine ⟨b, if_neg hle, by omega, ?_⟩
      rintro _ ⟨⟩
      exact Int.le_refl _

theorem foldl_laterRun_highest {runs : List SyncRun} {best : Option SyncRun} {r : SyncRun}
    (h : runs.foldl laterRun best = some r) :
    (∀ b, best = some b → b.runNumber.toInt ≤ r.runNumber.toInt) ∧
      ∀ s ∈ runs, s.runNumber.toInt ≤ r.runNumber.toInt := by
  induction runs generalizing best with
  | nil =>
    refine ⟨fun b hb => ?_, fun s hs => nomatch hs⟩
    cases hb.symm.trans h
    exact Int.le_refl _
  | cons s rest ih =>
    obtain ⟨hlater, hrest⟩ := ih h
    obtain ⟨m, hm, hs, hbest⟩ := laterRun_highest best s
    have hr := hlater m hm
    refine ⟨fun b hb => Int.le_trans (hbest b hb) hr, fun s' hs' => ?_⟩
    rcases List.mem_cons.1 hs' with rfl | hs'
    · exact Int.le_trans hs hr
    · exact hrest s' hs'

theorem highestRerun_of_latestRerun {db : Database} {base : SyncId} {r : SyncRun}
    (h : db.latestRerun base = some r) : db.HighestRerun base r :=
  ⟨latestRerun_mem h, (foldl_laterRun_highest h).2⟩

theorem foldl_laterRun_eq_none {runs : List SyncRun} {best : Option SyncRun}
    (h : runs.foldl laterRun best = none) : best = none ∧ runs = [] := by
  induction runs generalizing best with
  | nil => exact ⟨h, rfl⟩
  | cons s rest ih =>
    obtain ⟨m, hm, -⟩ := laterRun_highest best s
    have hnone := (ih h).1
    rw [hm] at hnone
    cases hnone

theorem latestRerun_eq_none {db : Database} {base : SyncId} (h : db.latestRerun base = none) :
    db.rerunsOf base = [] :=
  (foldl_laterRun_eq_none h).2

theorem find?_of_mem_rerunsOf {db : Database} (hdb : db.SyncsKeyed) {base : SyncId} {r : SyncRun}
    (h : r ∈ db.rerunsOf base) : db.syncs.find? r.id = some r := by
  obtain ⟨id, hid⟩ := Table.mem_rows.1 (List.mem_filter.1 h).1
  rw [hdb hid]
  exact hid

def withCompleted (db : Database) (now : Timestamp) (id : SyncId) : Database :=
  { db with syncs := db.syncs.modify id (completeSync now) }

/-- What `tryCloseSync` comes to: nothing, the sync alone, or the sync and its latest rerun. -/
inductive Closing (now : Timestamp) (db : Database) (id : SyncId) :
    List SyncId → Database → Prop
  | refused (h : ∀ s, db.syncs.find? id = some s → db.syncCloses id s = false) :
      Closing now db id [] db
  | alone {s : SyncRun} (hs : db.syncs.find? id = some s) (hcloses : db.syncCloses id s = true)
      (hlatest : ∀ r, (db.withCompleted now id).latestRerun id = some r → r.status ≠ .inProgress) :
      Closing now db id [id] (db.withCompleted now id)
  | withRerun {s r : SyncRun} (hs : db.syncs.find? id = some s)
      (hcloses : db.syncCloses id s = true)
      (hlatest : (db.withCompleted now id).latestRerun id = some r)
      (hopen : r.status = .inProgress) :
      Closing now db id [id, r.id] ((db.withCompleted now id).withCompleted now r.id)

theorem tryCloseSync_closing (now : Timestamp) (db : Database) (id : SyncId) :
    Closing now db id (db.tryCloseSync now id).1 (db.tryCloseSync now id).2 := by
  cases hs : db.syncs.find? id with
  | none =>
    have hstep : db.tryCloseSync now id = ([], db) := by
      unfold tryCloseSync
      rw [hs]
    rw [hstep]
    exact .refused fun s hs' => by simp [hs] at hs'
  | some s =>
    by_cases hcloses : db.syncCloses id s = true
    · cases hlatest : (db.withCompleted now id).latestRerun id with
      | none =>
        have hstep : db.tryCloseSync now id = ([id], db.withCompleted now id) := by
          unfold tryCloseSync
          rw [hs]
          dsimp only
          rw [if_pos hcloses]
          unfold withCompleted at hlatest ⊢
          rw [hlatest]
        rw [hstep]
        exact .alone hs hcloses fun r hr => by simp [hlatest] at hr
      | some r =>
        have hstep : db.tryCloseSync now id = if r.status = .inProgress then
            ([id, r.id], (db.withCompleted now id).withCompleted now r.id)
          else ([id], db.withCompleted now id) := by
          unfold tryCloseSync
          rw [hs]
          dsimp only
          rw [if_pos hcloses]
          unfold withCompleted at hlatest ⊢
          rw [hlatest]
        rw [hstep]
        by_cases hopen : r.status = .inProgress
        · simp only [if_pos hopen]
          exact .withRerun hs hcloses hlatest hopen
        · simp only [if_neg hopen]
          refine .alone hs hcloses fun r' hr' => ?_
          rw [hlatest] at hr'
          cases hr'
          exact hopen
    · have hstep : db.tryCloseSync now id = ([], db) := by
        unfold tryCloseSync
        rw [hs]
        exact if_neg hcloses
      rw [hstep]
      refine .refused fun s' hs' => ?_
      rw [hs] at hs'
      cases hs'
      exact Bool.eq_false_iff.2 hcloses

theorem find?_withCompleted (db : Database) (now : Timestamp) (id id' : SyncId) :
    (db.withCompleted now id).syncs.find? id' =
      if id' = id then (db.syncs.find? id').map (completeSync now) else db.syncs.find? id' :=
  Table.find?_modify ..

theorem withCompleted_syncsKeyed {db : Database} (h : db.SyncsKeyed) (now : Timestamp)
    (id : SyncId) : (db.withCompleted now id).SyncsKeyed := by
  intro id' s' hs'
  rw [find?_withCompleted] at hs'
  split at hs'
  · obtain ⟨s, hs, rfl⟩ := Option.map_eq_some_iff.1 hs'
    exact h (s := s) hs
  · exact h hs'

theorem withCompleted_closes {db : Database} (now : Timestamp) {id : SyncId} {s : SyncRun}
    (hs : db.syncs.find? id = some s) (hopen : s.status ≠ .completed) :
    db.Closes [id] (db.withCompleted now id) := by
  have hnot : ∀ endDate, ¬ db.SyncDone id endDate := by
    rintro endDate ⟨s', hs', hstatus, -⟩
    rw [hs] at hs'
    cases hs'
    exact hopen hstatus
  constructor
  case keeps =>
    intro id' endDate hdone
    obtain ⟨s', hs', hstatus⟩ := hdone
    have hne : id' ≠ id := by
      rintro rfl
      exact hnot endDate ⟨s', hs', hstatus⟩
    refine ⟨s', ?_, hstatus⟩
    rw [find?_withCompleted, if_neg hne]
    exact hs'
  case open_before =>
    intro id' hid'
    rw [List.mem_singleton.1 hid']
    exact hnot
  case done_after =>
    intro id' hid'
    rw [List.mem_singleton.1 hid']
    refine ⟨some now, completeSync now s, ?_, rfl, rfl⟩
    rw [find?_withCompleted, if_pos rfl, hs, Option.map_some]
  case nodup => simp

theorem ne_completed_of_isClosable {s : SyncStatus} (h : s.isClosable = true) : s ≠ .completed := by
  rintro rfl
  cases h

theorem open_of_syncCloses {db : Database} {id : SyncId} {s : SyncRun}
    (h : db.syncCloses id s = true) : s.status ≠ .completed := by
  unfold syncCloses at h
  rw [Bool.and_eq_true] at h
  exact ne_completed_of_isClosable h.1

theorem tryCloseSync_closes {db : Database} (hdb : db.SyncsKeyed) (now : Timestamp) (id : SyncId) :
    db.Closes (db.tryCloseSync now id).1 (db.tryCloseSync now id).2 := by
  have h := tryCloseSync_closing now db id
  generalize (db.tryCloseSync now id).1 = closed at h ⊢
  generalize (db.tryCloseSync now id).2 = db' at h ⊢
  cases h with
  | refused => exact .refl db
  | alone hs hcloses => exact withCompleted_closes now hs (open_of_syncCloses hcloses)
  | withRerun hs hcloses hlatest hopen =>
    have hkeyed := withCompleted_syncsKeyed hdb now id
    have hr := find?_of_mem_rerunsOf hkeyed (latestRerun_mem hlatest)
    have hne : SyncStatus.inProgress ≠ .completed := by decide
    exact (withCompleted_closes now hs (open_of_syncCloses hcloses)).trans
      (withCompleted_closes now hr (by rw [hopen]; exact hne))

theorem tryCloseSync_syncsKeyed {db : Database} (hdb : db.SyncsKeyed) (now : Timestamp)
    (id : SyncId) : (db.tryCloseSync now id).2.SyncsKeyed := by
  have h := tryCloseSync_closing now db id
  generalize (db.tryCloseSync now id).1 = closed at h
  generalize (db.tryCloseSync now id).2 = db' at h ⊢
  cases h with
  | refused => exact hdb
  | alone => exact withCompleted_syncsKeyed hdb now id
  | withRerun => exact withCompleted_syncsKeyed (withCompleted_syncsKeyed hdb now id) now _

theorem insertSync_eq_ok {db db' : Database} {s : SyncRun} (h : db.insertSync s = .ok db') :
    db.syncs.contains s.id = false ∧ db' = { db with syncs := db.syncs.insert s.id s } := by
  have hnew : insertSync.insertNew db s = .ok db' := by
    unfold insertSync at h
    split at h
    · split at h
      · exact h
      · cases h
    · exact h
  unfold insertSync.insertNew at hnew
  split at hnew
  · cases hnew
  · rename_i hfree
    cases hnew
    exact ⟨Bool.eq_false_iff.2 hfree, rfl⟩

theorem insertSync_closes {db db' : Database} {s : SyncRun} (h : db.insertSync s = .ok db') :
    db.Closes [] db' := by
  obtain ⟨hfree, rfl⟩ := insertSync_eq_ok h
  refine ⟨?_, by simp, by simp, .nil⟩
  rintro id endDate ⟨s', hs', hstatus⟩
  refine ⟨s', ?_, hstatus⟩
  rw [Table.find?_insert, if_neg (Table.ne_of_free hfree hs')]
  exact hs'

theorem insertSync_syncsKeyed {db db' : Database} {s : SyncRun} (hdb : db.SyncsKeyed)
    (h : db.insertSync s = .ok db') : db'.SyncsKeyed := by
  obtain ⟨-, rfl⟩ := insertSync_eq_ok h
  intro id s' hs'
  rw [Table.find?_insert] at hs'
  split at hs'
  · next hid =>
    cases hs'
    exact hid.symm
  · exact hdb hs'

theorem decrementTotalFiles_eq_ok {db db' : Database} {id : SyncId} {n : Nat}
    (h : db.decrementTotalFiles id n = .ok db') :
    db' = { db with syncs := db.syncs.modify id fun s =>
      { s with totalFiles := s.totalFiles.map fun total => loweredTotal total n } } := by
  unfold decrementTotalFiles at h
  split at h
  · cases h
    rfl
  · cases h

theorem decrementTotalFiles_closes {db db' : Database} {id : SyncId} {n : Nat}
    (h : db.decrementTotalFiles id n = .ok db') : db.Closes [] db' := by
  cases decrementTotalFiles_eq_ok h
  refine ⟨?_, by simp, by simp, .nil⟩
  rintro id' endDate ⟨s', hs', hstatus⟩
  unfold SyncDone
  rw [Table.find?_modify, hs']
  split
  · exact ⟨_, rfl, hstatus⟩
  · exact ⟨s', rfl, hstatus⟩

theorem decrementTotalFiles_syncsKeyed {db db' : Database} {id : SyncId} {n : Nat}
    (hdb : db.SyncsKeyed) (h : db.decrementTotalFiles id n = .ok db') : db'.SyncsKeyed := by
  cases decrementTotalFiles_eq_ok h
  intro id' s' hs'
  rw [Table.find?_modify] at hs'
  split at hs'
  · obtain ⟨s, hs, rfl⟩ := Option.map_eq_some_iff.1 hs'
    exact hdb (s := s) hs
  · exact hdb hs'

theorem eq_ok_of_map {r : Except Failure Database} {u : Unit} {db : Database}
    (h : (r.map fun db' => ((), db')) = .ok (u, db)) : r = .ok db := by
  cases r with
  | error f => cases h
  | ok db' =>
    cases h
    rfl

theorem insertFile_eq_ok {db db' : Database} {f : File} (h : db.insertFile f = .ok db') :
    db.syncs.contains f.syncId = true ∧ db.files.contains f.fileId = false ∧
      db' = { db with files := db.files.insert f.fileId f } := by
  unfold insertFile at h
  split at h
  · cases h
  next howner =>
    split at h
    · cases h
    next hfree =>
      cases h
      exact ⟨by simpa using howner, Bool.eq_false_iff.2 hfree, rfl⟩

theorem insertEntities_eq_ok {db db' : Database} {es : List Entity}
    (h : db.insertEntities es = .ok db') :
    db.checkEntities [] es = .ok () ∧
      db' = { db with entities := es.foldl (fun t e => t.insert e.key e) db.entities } := by
  unfold insertEntities at h
  split at h
  · cases h
  next hcheck =>
    cases h
    exact ⟨hcheck, rfl⟩

theorem patchEntity_eq_ok {db db' : Database} {id : EntityId} {file : FileId} {p : EntityPatch}
    (h : db.patchEntity id file p = .ok db') :
    (∀ c, p.changesetId = some c → db.changesets.contains c = true) ∧
      db.entities.contains ⟨file, id⟩ = true ∧
      db' = { db with entities := db.entities.modify ⟨file, id⟩ p.apply } := by
  unfold patchEntity at h
  split at h
  · cases h
  next hnone =>
    split at h
    next hthere =>
      cases h
      refine ⟨fun c hc => ?_, hthere, rfl⟩
      have hnot := Option.filter_eq_none_iff.1 hnone c hc
      simpa using hnot
    · cases h

theorem insertChangeset_eq_ok {db db' : Database} {c : Changeset}
    (h : db.insertChangeset c = .ok db') :
    db.changesets.contains c.changesetId = false ∧
      db' = { db with changesets := db.changesets.insert c.changesetId c } := by
  unfold insertChangeset at h
  split at h
  · cases h
  next hfree =>
    cases h
    exact ⟨Bool.eq_false_iff.2 hfree, rfl⟩

theorem tryCloseFile_syncs_eq (now : Timestamp) (db : Database) (id : FileId) :
    (db.tryCloseFile now id).2.syncs = db.syncs := by
  unfold tryCloseFile
  split
  · rfl
  split <;> rfl

/-- Whatever a call tells to be closed was open before and is completed after it. -/
theorem apply_closes {now : Timestamp} {db db' : Database} (hdb : db.SyncsKeyed) {c : StoreCall}
    {reply : c.Reply} (h : db.apply now c = .ok (reply, db')) :
    db.Closes (c.closed reply) db' ∧ db'.SyncsKeyed := by
  have hframe : db'.syncs = db.syncs → db.Closes [] db' ∧ db'.SyncsKeyed := by
    intro heq
    refine ⟨closes_of_syncs_eq heq, ?_⟩
    unfold SyncsKeyed
    rw [heq]
    exact hdb
  cases c with
  | insertSync s =>
    have hok := eq_ok_of_map h
    exact ⟨insertSync_closes hok, insertSync_syncsKeyed hdb hok⟩
  | tryCloseSync id =>
    have heq : db.tryCloseSync now id = (reply, db') := Except.ok.inj h
    have hcloses := tryCloseSync_closes hdb now id
    have hkeyed := tryCloseSync_syncsKeyed hdb now id
    rw [heq] at hcloses hkeyed
    exact ⟨hcloses, hkeyed⟩
  | decrementTotalFiles id n =>
    have hok := eq_ok_of_map h
    exact ⟨decrementTotalFiles_closes hok, decrementTotalFiles_syncsKeyed hdb hok⟩
  | insertFile f =>
    obtain ⟨-, -, rfl⟩ := insertFile_eq_ok (eq_ok_of_map h)
    exact hframe rfl
  | insertEntities es =>
    obtain ⟨-, rfl⟩ := insertEntities_eq_ok (eq_ok_of_map h)
    exact hframe rfl
  | patchEntity id file p =>
    obtain ⟨-, -, rfl⟩ := patchEntity_eq_ok (eq_ok_of_map h)
    exact hframe rfl
  | insertChangeset c =>
    obtain ⟨-, rfl⟩ := insertChangeset_eq_ok (eq_ok_of_map h)
    exact hframe rfl
  | tryCloseFile id =>
    have heq : db.tryCloseFile now id = (reply, db') := Except.ok.inj h
    have hsyncs := tryCloseFile_syncs_eq now db id
    rw [heq] at hsyncs
    exact hframe hsyncs
  | findSync | latestRerun | findFile | deleteEmptyFiles | reopenFiles | findEntity |
    markCompleted | findFiles | resetEntities | findChangeset | archiveEntities | history =>
    cases h
    exact hframe rfl

end Database

end SyncCascade
