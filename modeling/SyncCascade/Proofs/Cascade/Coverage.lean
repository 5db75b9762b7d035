import SyncCascade.Proofs.Cascade.Jobs
import SyncCascade.Proofs.Identifier
import SyncCascade.Proofs.Store.Readiness

/-!
# No completion is missed

As long as no job has failed for good, a job of the lane of files stands for every ready file, and one
of the lane of syncs for every ready sync. What becomes ready is pushed by the step that made it
ready, and a job leaves its lane only after its target was tried, which then is not ready any more.
-/

namespace SyncCascade

namespace LaneState

/-- A pending or claimed job names the target. -/
def Names (s : LaneState) (target : String) : Prop :=
  (∃ id j, s.pending.find? id = some j ∧ target ∈ j.payload.memberIds) ∨
    ∃ id a, s.active.find? id = some a ∧ target ∈ a.job.payload.memberIds

end LaneState

namespace Cascade

/-- A job stands for every ready target. -/
structure Covers (l : Lanes) (db : Database) : Prop where
  files : ∀ {file}, db.ReadyFile file → (l.get .files).Holds (Identifier.text file)
  syncs : ∀ {sync}, db.ReadySync sync → (l.get .syncs).Holds (Identifier.text sync)

theorem Covers.mono {l l' : Lanes} {db : Database} (h : Covers l db)
    (hkeeps : ∀ lane id, (l.get lane).Holds id → (l'.get lane).Holds id) : Covers l' db where
  files hready := hkeeps _ _ (h.files hready)
  syncs hready := hkeeps _ _ (h.syncs hready)

section Handler

variable {clock : Clock} {queue : QueueConfig} {db db' : Database} {l l' : Lanes} {p : JobPayload}

/-- What the handler makes ready, it pushes. -/
theorem handled_covers (hqueue : queue.Unbatched) (hcovers : Covers l db)
    (h : Handled clock queue db l p db' l') : Covers l' db' := by
  cases h with
  | @changesets ids =>
    constructor
    case files =>
      intro file hready
      rcases Database.markCompleted_readyFile hready with hready | hfile
      · exact pushed_keeps (hcovers.files hready)
      · exact pushed_holds_target .fileClosure hqueue (by decide)
          (List.mem_map_of_mem hfile)
    case syncs =>
      intro sync hready
      exact pushed_keeps (hcovers.syncs (Database.readySync_of_eq hready rfl rfl))
  | @file id =>
    have hclosing := Database.tryCloseFile_closing clock.wall db id
    constructor
    case files =>
      intro file hready
      exact notified_keeps (hcovers.files (Database.tryCloseFile_readyFile hclosing hready).2)
    case syncs =>
      intro sync hready
      rcases Database.tryCloseFile_readySync hclosing hready with hready | howner
      · exact notified_keeps (hcovers.syncs hready)
      · rw [howner]
        exact pushed_holds_target .syncClosure hqueue (by decide) List.mem_cons_self
  | @sync id =>
    have hclosing := Database.tryCloseSync_closing clock.wall db id
    have hframe := Database.tryCloseSync_frame hclosing
    constructor
    case files =>
      intro file hready
      exact hcovers.files (Database.readyFile_of_eq hready hframe.2 hframe.1)
    case syncs =>
      intro sync hready
      exact hcovers.syncs (Database.tryCloseSync_readySync hclosing hready).2

/-- The target of a job is not ready after it was handled. -/
theorem handled_done (h : Handled clock queue db l p db' l') :
    (p.kind = .fileClosure → ∀ file, db'.ReadyFile file → Identifier.text file ≠ p.id) ∧
      (p.kind = .syncClosure → ∀ sync, db'.ReadySync sync → Identifier.text sync ≠ p.id) := by
  cases h with
  | changesets hkind =>
    rw [hkind]
    exact ⟨nofun, nofun⟩
  | @file id hkind hid =>
    refine ⟨fun _ file hready htext => ?_, fun h => ?_⟩
    · rw [← htext, Identifier.parse_text rfl] at hid
      have hclosing := Database.tryCloseFile_closing clock.wall db id
      exact (Database.tryCloseFile_readyFile hclosing hready).1 (Except.ok.inj hid)
    · rw [hkind] at h
      cases h
  | @sync id hkind hid =>
    refine ⟨fun h => ?_, fun _ sync hready htext => ?_⟩
    · rw [hkind] at h
      cases h
    · rw [← htext, Identifier.parse_text rfl] at hid
      have hclosing := Database.tryCloseSync_closing clock.wall db id
      exact (Database.tryCloseSync_readySync hclosing hready).1 (Except.ok.inj hid)

end Handler

section Steps

variable {queue : QueueConfig} {db db' : Database} {l l' l₁ : Lanes} {clock : Clock} {lane : Lane}
  {job : ClaimedJob} {pushes : List (List String)}

/-- A completed job leaves no ready target without a job, as its own target was just tried. -/
theorem kept_covers (hqueue : queue.Unbatched) : Kept queue Fits Covers where
  mono h hkeeps := h.mono hkeeps
  handled _ h hcovers := handled_covers hqueue hcovers h
  completed hjob h hcovers hkeeps := by
    have hdone := handled_done h
    constructor
    case files =>
      intro file hready
      refine hkeeps _ _ ?_ (hcovers.files hready)
      rintro rfl hid
      exact hdone.1 hjob.1 file hready hid
    case syncs =>
      intro sync hready
      refine hkeeps _ _ ?_ (hcovers.syncs hready)
      rintro rfl hid
      exact hdone.2 hjob.1 sync hready hid

theorem step_covers (hqueue : queue.Unbatched) (hl : l.Carries Fits)
    (hcovers : NoneFailed l → Covers l db) (h : Step queue db l pushes db' l')
    (hnone : NoneFailed l') : Covers l' db' :=
  step_kept fits_aboutWork (fun _ _ _ h => h) hqueue (kept_covers hqueue) hl hcovers h hnone

end Steps

theorem names_of_holds {s : LaneState} {lane : Lane} (hs : s.Carries (Fits lane))
    (hlane : lane ≠ .changesets) {id : String} (h : s.Holds id) : s.Names id := by
  have hmember : ∀ p : JobPayload, p.id = id → Fits lane p → id ∈ p.memberIds := by
    intro p hid hp
    unfold JobPayload.memberIds
    rw [hp.2 hlane, hid]
    exact List.mem_singleton_self id
  rcases h with hp | ha
  · obtain ⟨j, hj⟩ := Table.contains_eq_true.1 hp
    obtain ⟨hid, hfits⟩ := hs.pending hj
    exact .inl ⟨id, j, hj, hmember _ hid hfits⟩
  · obtain ⟨a, ha⟩ := Table.contains_eq_true.1 ha
    obtain ⟨hid, hfits⟩ := hs.active ha
    exact .inr ⟨id, a, ha, hmember _ hid hfits⟩

/-- From a database without ready targets and empty lanes, whatever moves follow in whatever order:
unless a job has failed for good, every ready file is named by a pending or claimed job of the lane of
files and every ready sync by one of the lane of syncs; so when these lanes are idle, nothing is
ready. -/
theorem no_missed_completion (transaction : TransactionConfig) {queue : QueueConfig}
    (hqueue : queue.Unbatched) {w : World Session Lanes} (hlanes : w.broker = .empty)
    (hfiles : ∀ file, ¬ w.store.committed.ReadyFile file)
    (hsyncs : ∀ sync, ¬ w.store.committed.ReadySync sync) (moves : List Move) :
    let w' := run transaction queue w moves
    NoneFailed w'.broker →
      (∀ file, w'.store.committed.ReadyFile file →
        (w'.broker.get .files).Names (Identifier.text file)) ∧
      (∀ sync, w'.store.committed.ReadySync sync →
        (w'.broker.get .syncs).Names (Identifier.text sync)) ∧
      ((w'.broker.get .files).Idle → (w'.broker.get .syncs).Idle →
        (∀ file, ¬ w'.store.committed.ReadyFile file) ∧
          ∀ sync, ¬ w'.store.committed.ReadySync sync) := by
  intro w' hnone
  have hstart : Has w.store.committed .empty w.clock w := ⟨rfl, hlanes, rfl⟩
  have hinit : Covers .empty w.store.committed :=
    ⟨fun h => absurd h (hfiles _), fun h => absurd h (hsyncs _)⟩
  obtain ⟨db', l', clock', ⟨hdb', hl', -⟩, hcarries, hcovers⟩ := run_preserves transaction queue
    (I := fun _ db l => l.Carries Fits ∧ (NoneFailed l → Covers l db))
    (fun _ _ _ hI lane => (hI.1 lane).mono fun _ => Fits.single)
    (fun _ pushes db l db' l' hI hstep =>
      ⟨step_carries fits_aboutWork (fun _ _ _ h => h) hqueue hI.1 hstep fun _ => formed_fits hqueue,
        step_covers hqueue hI.1 hI.2 hstep⟩)
    [] ⟨Lanes.carries_empty, fun _ => hinit⟩ moves hstart
  have hdb : w'.store.committed = db' := hdb'
  have hl : w'.broker = l' := hl'
  rw [hdb, hl]
  rw [hl] at hnone
  have hcovers := hcovers hnone
  refine ⟨fun file hready => ?_, fun sync hready => ?_, fun hidleFiles hidleSyncs => ⟨?_, ?_⟩⟩
  · exact names_of_holds (hcarries .files) (by decide) (hcovers.files hready)
  · exact names_of_holds (hcarries .syncs) (by decide) (hcovers.syncs hready)
  · exact fun file hready => LaneState.not_holds_of_idle hidleFiles _ (hcovers.files hready)
  · exact fun sync hready => LaneState.not_holds_of_idle hidleSyncs _ (hcovers.syncs hready)

namespace Sample

def sync : SyncId := ⟨⟨1⟩⟩

def file : FileId := ⟨⟨2⟩⟩

def changeset : ChangesetId := ⟨⟨3⟩⟩

def syncRow : SyncRun where
  id := sync
  layerId := 0
  geometryType := .point
  dumpDate := ⟨0, 0⟩
  startDate := ⟨0, 0⟩
  endDate := none
  status := .inProgress
  totalFiles := some 1
  isFull := true
  baseSyncId := none
  runNumber := 0
  metadata := none

def fileRow : File := ⟨file, sync, .inProgress, some 1, ⟨0, 0⟩, none⟩

def entityRow : Entity := ⟨⟨"node"⟩, file, some changeset, .inProgress, .create, none⟩

def database : Database where
  syncs := Table.empty.insert sync syncRow
  files := Table.empty.insert file fileRow
  entities := Table.empty.insert entityRow.key entityRow
  changesets := Table.empty.insert changeset ⟨changeset, none⟩
  history := []

def world : World Session Lanes := .initial (.ofDatabase database) .empty

/-- The changeset is pushed and completed, and the first commit for the file fails. -/
def moves : List Move := [.push [Identifier.text changeset], .process .changesets .default,
  .failCommits 1, .process .files .default]

end Sample

open Sample in
/-- After the changeset and the file of the small hierarchy are done, its sync is ready and waits in
its lane. -/
theorem no_missed_completion_sample :
    let w' := run .default .default world moves
    NoneFailed w'.broker ∧ w'.store.committed.ReadySync sync ∧
      (w'.broker.get .syncs).Names (Identifier.text sync) := by
  have hfiles : ∀ id, ¬ world.store.committed.ReadyFile id :=
    Database.not_readyFile (by decide)
  have hsyncs : ∀ id, ¬ world.store.committed.ReadySync id :=
    Database.not_readySync (by decide)
  have hnone : NoneFailed (run .default .default world moves).broker := by
    intro lane
    cases lane <;> decide +kernel
  have hready : (run .default .default world moves).store.committed.ReadySync sync := by
    refine ⟨syncRow, ?_, ?_⟩ <;> decide +kernel
  exact ⟨hnone, hready, (no_missed_completion .default QueueConfig.default_unbatched rfl hfiles hsyncs
    moves hnone).2.1 sync hready⟩

end Cascade

end SyncCascade
