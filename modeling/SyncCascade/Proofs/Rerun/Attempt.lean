import SyncCascade.Proofs.Rerun.Trimming
import SyncCascade.Proofs.Store.Keys
import SyncCascade.Proofs.Store.Session

/-!
# Attempts at a rerun

What an attempt in memory comes to is a matter of the database that it sees: it is refused, or the
trimmed base closes, or the rerun is built on the trimmed base, unless no number is left for it. No call
of an attempt fails once it is not refused, so a rerun fails for its own reasons or because its commits
do.
-/

namespace SyncCascade

namespace Database

/-- Why no rerun of the base with this identifier can be made. -/
inductive Refuses (db : Database) (base id : SyncId) : Failure → Prop
  | missing (h : db.syncs.find? base = none) : Refuses db base id (.syncMissing base)
  | barred {row : SyncRun} {f : Failure} (hrow : db.syncs.find? base = some row)
      (h : Rerun.obstacle base row (db.latestRerun base) = some f) : Refuses db base id f
  | taken {row : SyncRun} (hrow : db.syncs.find? base = some row)
      (hclear : Rerun.obstacle base row (db.latestRerun base) = none)
      (h : db.syncs.contains id = true) : Refuses db base id (.syncExists id)

/-- A rerun with this identifier may be made of the base with the row `row`. -/
structure Admits (db : Database) (base id : SyncId) (row : SyncRun) : Prop where
  row_eq : db.syncs.find? base = some row
  clear : Rerun.obstacle base row (db.latestRerun base) = none
  free : db.syncs.contains id = false

def prepared (db : Database) (base rerun : SyncId) : Database :=
  (((db.archiveEntities base rerun).2.reopenFiles base).2.resetEntities base).2

def withRow (db : Database) (base : SyncId) (rerun : SyncRun) : Database :=
  { db.prepared base rerun.id with syncs := db.syncs.insert rerun.id rerun }

/-- The row of the rerun that a request makes of the base. -/
def rerunRow (db : Database) (base : SyncId) (row : SyncRun) (number : Int32)
    (request : RerunRequest) : SyncRun :=
  Rerun.newRow base row number (totalWithout (db.bareCount base) row.totalFiles) request

/-- Why no rerun is made of the base: it is refused, or it would be, but no number is left for it. -/
inductive Denies (db : Database) (base id : SyncId) : Failure → Prop
  | refused {e : Failure} (h : db.Refuses base id e) : Denies db base id e
  | unnumbered {row : SyncRun} {e : Failure} (h : db.Admits base id row)
      (hopen : 0 < db.bareCount base → ¬ db.Exhausted base row)
      (hnumber : Rerun.nextNumber (db.latestRerun base) = .error e) : Denies db base id e

/-- What an attempt comes to that is not refused. -/
inductive Attempted (now : Timestamp) (db : Database) (base : SyncId) (request : RerunRequest) :
    RerunOutcome → Database → Prop
  | notCreated {row : SyncRun} (h : db.Admits base request.id row) (hbare : 0 < db.bareCount base)
      (hexhausted : db.Exhausted base row) :
      Attempted now db base request (.notCreated [base]) ((db.trimmed base).withCompleted now base)
  | created {row : SyncRun} {number : Int32} (h : db.Admits base request.id row)
      (hopen : 0 < db.bareCount base → ¬ db.Exhausted base row)
      (hnumber : Rerun.nextNumber (db.latestRerun base) = .ok number) :
      Attempted now db base request (.created (db.rerunRow base row number request))
        ((db.trimmed base).withRow base (db.rerunRow base row number request))

end Database

namespace Rerun

open SyncCascade.Action SyncCascade.Session

section Attempts

variable {β : Type} {db view : Database} {n : Nat} {b : β} {clock : Clock} {w : World Session β}
  {base : SyncId} {row : SyncRun} {latest : Option SyncRun} {request : RerunRequest}

theorem obstacle_eq_none_iff :
    obstacle base row latest = none ↔
      row.baseSyncId = none ∧ row.status = .failed ∧
        ∀ r, latest = some r → r.status ≠ .inProgress := by
  unfold obstacle SyncRun.isRerun
  cases row.baseSyncId with
  | some b => simp
  | none =>
    by_cases hfailed : row.status = .failed
    · simp [hfailed, Option.filter_eq_none_iff]
    · simp [hfailed]

theorem obstacle_of_none {f : Failure} (h : obstacle base row none = some f)
    (latest : Option SyncRun) : obstacle base row latest = some f := by
  unfold obstacle at h ⊢
  split at h
  next hrerun => rw [if_pos hrerun, h]
  next hrerun =>
    split at h
    next hstatus => rw [if_neg hrerun, if_pos hstatus, h]
    next => cases h

theorem obstacle_kind {f : Failure} (h : obstacle base row latest = some f) :
    f.kind = .conflict := by
  unfold obstacle at h
  split at h
  · cases h
    rfl
  split at h
  · cases h
    rfl
  · obtain ⟨r, -, rfl⟩ := Option.map_eq_some_iff.1 h
    rfl

theorem nextNumber_eq_error {e : Failure} (h : nextNumber latest = .error e) : e = .overflow :=
  (Word.checked_eq_error.1 h).2.symm

theorem denies_not_transaction {f : Failure} (h : db.Denies base request.id f) :
    f.isTransaction = false := by
  cases h with
  | refused h =>
    cases h with
    | missing => rfl
    | barred _ h =>
      unfold Failure.isTransaction
      rw [obstacle_kind h]
      rfl
    | taken => rfl
  | unnumbered _ _ hnumber =>
    rw [nextNumber_eq_error hnumber]
    rfl

theorem checkLatest_ensures (base : SyncId) (row : SyncRun) (latest : Option SyncRun)
    (w : World Session β) :
    (checkLatest base row latest : Action Session β Unit).Ensures w
      (fun _ w' => w' = w ∧ obstacle base row latest = none)
      fun e w' => w' = w ∧ obstacle base row latest = some e := by
  unfold checkLatest
  cases obstacle base row latest with
  | none => exact ⟨rfl, rfl⟩
  | some f => exact ⟨rfl, rfl⟩

theorem insertSync_rerun {rerun : SyncRun} (hbase : rerun.baseSyncId = some base)
    (hthere : db.syncs.contains base = true) (hfree : db.syncs.contains rerun.id = false) :
    db.insertSync rerun = .ok { db with syncs := db.syncs.insert rerun.id rerun } := by
  unfold Database.insertSync Database.insertSync.insertNew
  rw [hbase]
  dsimp only
  rw [if_pos hthere, if_neg (by simp [hfree])]

theorem insertNext_ensures (h : World.Standing (Views db view n) b clock w) (total : Option Int32)
    (hthere : view.syncs.contains base = true) (hfree : view.syncs.contains request.id = false)
    (report : SyncRun → Notice) :
    (insertNext storage base row latest total request report).Ensures w
      (fun outcome w' => ∃ number, nextNumber latest = .ok number ∧
        outcome = .created (newRow base row number total request) ∧
        World.Standing (Views db { view with
          syncs := view.syncs.insert request.id (newRow base row number total request) } n) b clock w')
      fun e w' => nextNumber latest = .error e ∧ World.Standing (Views db view n) b clock w' := by
  unfold insertNext
  rw [ensures_bind, ensures_ofExcept]
  cases nextNumber latest with
  | error e => exact ⟨rfl, h⟩
  | ok number =>
    have hinsert : view.insertSync (newRow base row number total request) = .ok { view with
        syncs := view.syncs.insert request.id (newRow base row number total request) } :=
      insertSync_rerun rfl hthere hfree
    have happly : view.apply clock.wall (.insertSync (newRow base row number total request)) =
        .ok ((), { view with
          syncs := view.syncs.insert request.id (newRow base row number total request) }) := by
      simp only [Database.apply, hinsert, Except.map]
    refine query_bind h happly fun w₁ h₁ => ?_
    exact ensures_note_bind World.standing_blind h₁ fun w₂ h₂ => ⟨number, rfl, rfl, h₂⟩

theorem build_ensures (h : World.Standing (Views db view n) b clock w) {deleted : Nat}
    {row' : SyncRun} (hrow' : view.syncs.find? base = some row')
    (htotal : deleted = 0 → row'.totalFiles = row.totalFiles)
    (hfree : view.syncs.contains request.id = false) :
    (build storage base row latest deleted request).Ensures w
      (fun outcome w' => ∃ number, nextNumber latest = .ok number ∧
        outcome = .created (newRow base row number row'.totalFiles request) ∧
        World.Standing
          (Views db (view.withRow base (newRow base row number row'.totalFiles request)) n) b clock w')
      fun e w' => nextNumber latest = .error e ∧ World.Standing (Awaits db n) b clock w' := by
  have hthere : view.syncs.contains base = true := Table.contains_eq_true.2 ⟨row', hrow'⟩
  unfold build
  refine query_bind h rfl fun w₁ h₁ => ?_
  refine query_bind h₁ rfl fun w₂ h₂ => ?_
  refine query_bind h₂ rfl fun w₃ h₃ => ?_
  have hprepared : World.Standing (Views db (view.prepared base request.id) n) b clock w₃ := h₃
  dsimp only
  split
  next hzero =>
    rw [ensures_bind, ensures_pure, ← htotal hzero]
    exact (insertNext_ensures hprepared _ hthere hfree _).mono (fun _ _ h => h)
      fun _ _ h => ⟨h.1, standing_awaits h.2⟩
  next =>
    refine query_bind hprepared rfl fun w₄ h₄ => ?_
    have hreread : ((view.prepared base request.id).syncs.find? base).bind SyncRun.totalFiles =
        row'.totalFiles := congrArg (Option.bind · SyncRun.totalFiles) hrow'
    rw [ensures_bind, ensures_pure, hreread]
    exact (insertNext_ensures h₄ _ hthere hfree _).mono (fun _ _ h => h)
      fun _ _ h => ⟨h.1, standing_awaits h.2⟩

theorem build_trimmed_ensures (hadmits : db.Admits base request.id row) {deleted : Nat}
    (hdeleted : deleted = db.bareCount base) (hopen : 0 < deleted → ¬ db.Exhausted base row)
    (h : World.Standing (Views db (db.trimmed base) n) b clock w) :
    (build storage base row (db.latestRerun base) deleted request).Ensures w
      (fun outcome w' => ∃ view, Database.Attempted clock.wall db base request outcome view ∧
        World.Standing (Views db view n) b clock w')
      fun e w' => db.Denies base request.id e ∧ World.Standing (Awaits db n) b clock w' := by
  subst hdeleted
  refine (build_ensures h (Database.find?_trimmed hadmits.row_eq) (fun hzero => ?_)
    ((db.contains_trimmed base request.id).trans hadmits.free)).mono ?_ ?_
  · rw [hzero]
    rfl
  · rintro outcome w' ⟨number, hnumber, rfl, h'⟩
    exact ⟨_, .created hadmits hopen hnumber, h'⟩
  · exact fun e w' h' => ⟨.unnumbered hadmits hopen h'.1, h'.2⟩

/-- An attempt that is admitted: it trims the base, then closes it or builds the rerun. -/
theorem trim_ensures (hadmits : db.Admits base request.id row)
    (h : World.Standing (Views db db n) b clock w) :
    (do
      let deleted ← Transaction.query storage (.deleteEmptyFiles base)
      if deleted = 0 then build storage base row (db.latestRerun base) deleted request
      else
        Transaction.query storage (.decrementTotalFiles base deleted)
        let closed ← Transaction.query storage (.tryCloseSync base)
        if closed.isEmpty then build storage base row (db.latestRerun base) deleted request
        else pure (.notCreated closed) : Action Session β RerunOutcome).Ensures w
      (fun outcome w' => ∃ view, Database.Attempted clock.wall db base request outcome view ∧
        World.Standing (Views db view n) b clock w')
      fun e w' => db.Denies base request.id e ∧ World.Standing (Awaits db n) b clock w' := by
  obtain ⟨hroot, hfailed, hlatest⟩ := obstacle_eq_none_iff.1 hadmits.clear
  have hdelete : db.apply clock.wall (.deleteEmptyFiles base) = .ok (db.bareCount base,
      { db with files := db.files.filter fun _ f => !db.bare base f }) :=
    congrArg Except.ok (db.deleteEmptyFiles_eq base)
  refine query_bind h hdelete fun w₁ h₁ => ?_
  dsimp only at h₁ ⊢
  split
  next hzero =>
    rw [Database.trimmed_of_bareCount_eq_zero hzero] at h₁
    exact build_trimmed_ensures hadmits rfl (fun hpos => absurd hzero (Nat.ne_of_gt hpos)) h₁
  next hsome =>
    have hpos : 0 < db.bareCount base := Nat.pos_of_ne_zero hsome
    have hdecrement : Database.apply clock.wall
        { db with files := db.files.filter fun _ f => !db.bare base f }
        (.decrementTotalFiles base (db.bareCount base)) = .ok ((), db.trimmed base) := by
      simp only [Database.apply, Database.decrementTotalFiles_eq_trimmed hadmits.row_eq hpos,
        Except.map]
    refine query_bind h₁ hdecrement fun w₂ h₂ => ?_
    have hclose : (db.trimmed base).apply clock.wall (.tryCloseSync base) =
        .ok (if db.Exhausted base row
          then ([base], (db.trimmed base).withCompleted clock.wall base)
          else ([], db.trimmed base)) :=
      congrArg Except.ok (Database.tryCloseSync_trimmed _ hadmits.row_eq hroot hfailed hlatest)
    refine query_bind h₂ hclose fun w₃ h₃ => ?_
    by_cases hexhausted : db.Exhausted base row
    · rw [if_pos hexhausted] at h₃ ⊢
      exact ⟨_, .notCreated hadmits hpos hexhausted, h₃⟩
    · rw [if_neg hexhausted] at h₃ ⊢
      exact build_trimmed_ensures hadmits rfl (fun _ => hexhausted) h₃

theorem attempt_ensures (h : World.Standing (Views db db n) b clock w) :
    (attempt storage base request).Ensures w
      (fun outcome w' => ∃ view, Database.Attempted clock.wall db base request outcome view ∧
        World.Standing (Views db view n) b clock w')
      fun e w' => db.Denies base request.id e ∧ World.Standing (Awaits db n) b clock w' := by
  unfold attempt
  refine query_bind h rfl fun w₁ h₁ => ?_
  cases hrow : db.syncs.find? base with
  | none => exact ⟨.refused (.missing hrow), standing_awaits h₁⟩
  | some row =>
    dsimp only
    rw [ensures_bind]
    refine (checkLatest_ensures base row none w₁).mono ?_ ?_
    case refine_2 =>
      rintro f w₂ ⟨rfl, hbarred⟩
      exact ⟨.refused (.barred hrow (obstacle_of_none hbarred _)), standing_awaits h₁⟩
    rintro - w₂ ⟨rfl, -⟩
    refine query_bind h₁ rfl fun w₃ h₃ => ?_
    rw [ensures_bind]
    refine (checkLatest_ensures base row (db.latestRerun base) w₃).mono ?_ ?_
    case refine_2 =>
      rintro f w₄ ⟨rfl, hbarred⟩
      exact ⟨.refused (.barred hrow hbarred), standing_awaits h₃⟩
    rintro - w₄ ⟨rfl, hclear⟩
    refine query_bind h₃ rfl fun w₅ h₅ => ?_
    split
    next htaken => exact ⟨.refused (.taken hrow hclear htaken), standing_awaits h₅⟩
    next hfree => exact trim_ensures ⟨hrow, hclear, Bool.eq_false_iff.2 hfree⟩ h₅

/-- A rerun is made of the database that was committed, as a whole or not at all. -/
theorem create_ensures (config : TransactionConfig)
    (h : World.Standing (Awaits db n) b clock w) :
    (create storage config base request).Ensures w
      (fun outcome w' => ∃ db', Database.Attempted clock.wall db base request outcome db' ∧
        World.Standing (Has db') b clock w')
      fun e w' => (db.Denies base request.id e ∨ config.retry.attempts ≤ n) ∧
        World.Standing (Has db) b clock w' := by
  unfold create
  refine Ensures.announcing ?_ fun _ _ _ _ h => h
  rw [ensures_bind]
  refine (run_counted (fun _ => denies_not_transaction) (fun _ _ hw => attempt_ensures hw) _
    h).mono ?_ fun _ _ h => h
  rintro outcome w' ⟨db', hattempted, h'⟩
  cases outcome with
  | created sync => exact ⟨db', hattempted, h'⟩
  | notCreated closed =>
    exact ensures_note_bind World.standing_blind h' fun w'' h'' => ⟨db', hattempted, h''⟩

end Attempts

theorem create_stops {σ β : Type} {S : Storage σ} {P : World σ β → Prop} {w : World σ β}
    (hP : World.Blind P) {config : TransactionConfig} (hnone : config.retry.attempts = 0)
    (base : SyncId) (request : RerunRequest) (hw : P w) :
    (create S config base request).Ensures w (fun _ _ => False)
      fun e w' => e = .overflow ∧ P w' := by
  unfold create Transaction.run
  refine Ensures.announcing ?_ fun _ _ _ _ h => ⟨h.1, hP _ _ h.2⟩
  rw [ensures_bind, Transaction.withRetries_eq, if_pos hnone]
  exact ⟨rfl, hw⟩

namespace Sample

theorem eq_ok_of_toOption {ε α : Type} {r : Except ε α} {a : α} (h : r.toOption = some a) :
    r = .ok a := by
  cases r with
  | error e => cases h
  | ok a' =>
    cases h
    rfl

def base : SyncId := ⟨⟨1⟩⟩

def earlier : SyncId := ⟨⟨2⟩⟩

def empty : FileId := ⟨⟨3⟩⟩

def filled : FileId := ⟨⟨4⟩⟩

def baseRow (total : Int32) : SyncRun where
  id := base
  layerId := 7
  geometryType := .point
  dumpDate := ⟨0, 0⟩
  startDate := ⟨0, 0⟩
  endDate := none
  status := .failed
  totalFiles := some total
  isFull := true
  baseSyncId := none
  runNumber := 0
  metadata := none

def earlierRow (total : Int32) : SyncRun :=
  { baseRow total with id := earlier, baseSyncId := some base, runNumber := 1 }

/-- One file without entities, and a completed one of which one entity was not synced. -/
def calls (total : Int32) : List (Timestamp × StoreCall) :=
  [.insertSync (baseRow total), .insertSync (earlierRow total),
    .insertFile ⟨empty, base, .inProgress, none, ⟨0, 0⟩, none⟩,
    .insertFile ⟨filled, base, .completed, some 2, ⟨0, 0⟩, some ⟨9, 0⟩⟩,
    .insertEntities [⟨⟨"a"⟩, filled, none, .completed, .create, none⟩,
      ⟨⟨"b"⟩, filled, none, .notSynced, .create, some "gone"⟩]].map fun c => (⟨0, 0⟩, c)

def database (total : Int32) : Database := .afterCalls .empty (calls total)

def world (total : Int32) (failing : Nat) : World Session Unit :=
  .initial ⟨database total, none, failing⟩ ()

def request : RerunRequest := ⟨⟨⟨5⟩⟩, ⟨60, 0⟩, none⟩

end Sample

end Rerun

end SyncCascade
