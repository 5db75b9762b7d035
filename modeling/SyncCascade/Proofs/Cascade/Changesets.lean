import SyncCascade.Proofs.Broker.Pending
import SyncCascade.Proofs.Cascade.Jobs
import SyncCascade.Proofs.Store.Outcome
import SyncCascade.Proofs.Store.Readiness

/-!
# Closing changesets

Closing changesets completes their entities and touches nothing else. The files it tells are those in
progress that own such an entity, and no file that becomes ready is missing among them: the entities
that decide about another file stand as they stood.
-/

namespace SyncCascade

namespace Database

variable {db : Database} {ids : List ChangesetId}

theorem findFiles_ascending (db : Database) (ids : List ChangesetId) (statuses : List FileStatus) :
    (db.findFiles ids statuses).Pairwise (· < ·) := by
  refine pairwise_dropRepeats (List.pairwise_map.2 ((db.entities.sorted.filter _).imp ?_))
  intro a b hab
  exact (EntityKey.lt_iff.1 hab).imp_right And.left

theorem find?_markCompleted (db : Database) (ids : List ChangesetId) (k : EntityKey) :
    (db.markCompleted ids).2.entities.find? k =
      (db.entities.find? k).map fun e =>
        if inChangesets ids e then { e with status := .completed } else e := by
  unfold markCompleted
  rw [Table.find?_mapRows]
  congr 1
  funext e
  unfold marks
  by_cases hin : inChangesets ids e = true
  · by_cases hdone : e.status = .completed
    · obtain ⟨entityId, fileId, changesetId, status, action, failReason⟩ := e
      cases hdone
      simp
    · simp [hin, hdone]
  · simp [hin]

def FileOpen (db : Database) (file : FileId) : Prop :=
  ∃ f, db.files.find? file = some f ∧ f.status = .inProgress

/-- An entity of the file belongs to one of the changesets. -/
def Touches (db : Database) (ids : List ChangesetId) (file : FileId) : Prop :=
  ∃ k e, db.entities.find? k = some e ∧ k.file = file ∧ ∃ c ∈ ids, e.changesetId = some c

/-- What closing the changesets makes of the database, and the files it tells. -/
structure ChangesetsClosed (ids : List ChangesetId) (db db' : Database) (files : List FileId) :
    Prop where
  completed : ∀ k e, db.entities.find? k = some e → (∃ c ∈ ids, e.changesetId = some c) →
    db'.entities.find? k = some { e with status := .completed }
  untouched : ∀ k e, db.entities.find? k = some e → (∀ c ∈ ids, e.changesetId ≠ some c) →
    db'.entities.find? k = some e
  absent : ∀ k, db.entities.find? k = none → db'.entities.find? k = none
  rest : db' = { db with entities := db'.entities }
  ascending : files.Pairwise (· < ·)
  candidates : ∀ file, file ∈ files ↔ db.FileOpen file ∧ db.Touches ids file
  /-- A file that was not ready and is now, is told. -/
  complete : ∀ file, ¬ db.ReadyFile file → db'.ReadyFile file → file ∈ files

theorem hasStatus_inProgress {file : FileId} :
    db.hasStatus [.inProgress] file = true ↔ db.FileOpen file := by
  unfold hasStatus FileOpen
  cases db.files.find? file with
  | none => simp
  | some f => simp

theorem touches_markCompleted {file : FileId} :
    (∃ k e, (db.markCompleted ids).2.entities.find? k = some e ∧ k.file = file ∧
      inChangesets ids e = true) ↔ db.Touches ids file := by
  constructor
  · rintro ⟨k, e', he', hk, hin⟩
    rw [find?_markCompleted] at he'
    obtain ⟨e, he, rfl⟩ := Option.map_eq_some_iff.1 he'
    refine ⟨k, e, he, hk, inChangesets_iff.1 ?_⟩
    split at hin
    next h => exact h
    next => exact hin
  · rintro ⟨k, e, he, hk, hc⟩
    have hin : inChangesets ids e = true := inChangesets_iff.2 hc
    refine ⟨k, { e with status := .completed }, ?_, hk, hin⟩
    rw [find?_markCompleted, he, Option.map_some, if_pos hin]

theorem changesetsClosed (db : Database) (ids : List ChangesetId) :
    ChangesetsClosed ids db (db.markCompleted ids).2
      ((db.markCompleted ids).2.findFiles ids [.inProgress]) where
  completed k e he hc := by
    rw [find?_markCompleted, he, Option.map_some, if_pos (inChangesets_iff.2 hc)]
  untouched k e he hc := by
    have hin : ¬ inChangesets ids e = true := by
      intro hin
      obtain ⟨c, hmem, heq⟩ := inChangesets_iff.1 hin
      exact hc c hmem heq
    rw [find?_markCompleted, he, Option.map_some, if_neg hin]
  absent k hk := by rw [find?_markCompleted, hk, Option.map_none]
  rest := rfl
  ascending := findFiles_ascending ..
  candidates file := mem_findFiles.trans (and_congr hasStatus_inProgress touches_markCompleted)
  complete file hbefore hready := (markCompleted_readyFile hready).resolve_left hbefore

end Database

namespace Cascade

open SyncCascade.Action

theorem invoked_files (r : ChangesetClosure) :
    r.toJson.member? "invoked_files" = some (.int r.fileIds.length) := by
  simp [ChangesetClosure.toJson, Json.member?, Json.ofNat]

/-- When the transaction commits, the entities of the changesets are completed, and the files told are
those in progress that own one. Each of them is pending afterwards, if its lane has no batches, and
where there is none nothing is published. The transaction fails only if as many commits are to fail as
it has attempts; then nothing happens. -/
theorem closeChangesets_exact (transaction : TransactionConfig) (queue : QueueConfig)
    (ids : List ChangesetId) (correlationId : String) (w : World Session Lanes) :
    ((cascade transaction queue).closeChangesets ids correlationId).Ensures w
      (fun r w' => Database.ChangesetsClosed ids w.store.committed w'.store.committed r.fileIds ∧
        r.toJson.member? "invoked_files" = some (.int r.fileIds.length) ∧
        (queue.files.batchSize = none →
          ∀ file ∈ r.fileIds, w'.broker.Pends .files (Identifier.text file)) ∧
        (r.fileIds = [] → w'.broker = w.broker))
      fun _ w' => transaction.retry.attempts ≤ w.store.failingCommits ∧
        w'.store.committed = w.store.committed ∧ w'.broker = w.broker := by
  have hstands : World.Standing (Session.Awaits w.store.committed w.store.failingCommits) w.broker
      w.clock w := ⟨⟨rfl, rfl⟩, rfl, rfl⟩
  refine (closeChangesets_counted ids correlationId hstands).mono (fun r w' h => ?_) fun e w' h => ?_
  · obtain ⟨hfiles, hdb, hlanes, -⟩ := h
    have hclosed := Database.changesetsClosed w.store.committed ids
    rw [← hfiles] at hclosed hlanes
    refine ⟨hdb ▸ hclosed, invoked_files r, fun hunbatched file hfile => ?_, fun hnone => ?_⟩
    · have hjob : JobPayload.single .fileClosure (Identifier.text file) ∈
          Queue.formJobs queue.files .fileClosure (r.fileIds.map Identifier.text) := by
        rw [formJobs_unbatched hunbatched]
        exact List.mem_map_of_mem (List.mem_map_of_mem hfile)
      rw [hlanes]
      exact Lanes.pends_pushed.2 (.inr ⟨rfl, _, hjob, rfl⟩)
    · rw [hlanes, hnone, List.map_nil, pushed_nil]
  · exact ⟨h.1, h.2.1, h.2.2.1⟩

end Cascade

end SyncCascade
