import SyncCascade.Proofs.Cascade.Coverage
import SyncCascade.Proofs.Cascade.Pushes
import SyncCascade.Proofs.Store.Outcome

/-!
# The order of deliveries does not matter

Every step advances the database, and until it is handled a job stands for every pushed changeset. So
when all lanes are idle and no job has failed, the changesets are done and nothing is ready, and the
database has reached the outcome that its start and the set of the changesets determine.
-/

namespace SyncCascade

namespace Cascade

open Database

/-- What a job of the lane can be; those of the lane of changesets come from the pushes. -/
def Stems (queue : QueueConfig) (pushes : List (List String)) (lane : Lane) (p : JobPayload) : Prop :=
  Fits lane p ∧ (lane = .changesets → ∃ job ∈ formed queue pushes, job.SameWork p)

theorem stems_aboutWork (queue : QueueConfig) (pushes : List (List String)) (lane : Lane) :
    AboutWork (Stems queue pushes lane) := by
  rintro p q hsame ⟨hfits, hformed⟩
  refine ⟨fits_aboutWork lane hsame hfits, fun hlane => ?_⟩
  obtain ⟨job, hjob, hwork⟩ := hformed hlane
  exact ⟨job, hjob, hwork.trans hsame⟩

theorem stems_append {queue : QueueConfig} {pushes : List (List String)} (more : List (List String))
    {lane : Lane} {p : JobPayload} (h : Stems queue pushes lane p) :
    Stems queue (pushes ++ more) lane p := by
  refine ⟨h.1, fun hlane => ?_⟩
  obtain ⟨job, hjob, hwork⟩ := h.2 hlane
  exact ⟨job, formed_append ▸ List.mem_append_left _ hjob, hwork⟩

theorem stems_of_fits {queue : QueueConfig} {pushes : List (List String)} (lane : Lane)
    (p : JobPayload) (hlane : lane ≠ .changesets) (h : Fits lane p) : Stems queue pushes lane p :=
  ⟨h, fun heq => absurd heq hlane⟩

/-- Every job waits or is claimed, unless its changesets are finished. -/
def Delivers (jobs : List JobPayload) (l : Lanes) (db : Database) : Prop :=
  ∀ job ∈ jobs, (l.get .changesets).Holds job.id ∨
    ∀ s ∈ job.memberIds, ∀ c, Identifier.parse? s = some c → db.Finished c

theorem Delivers.mono {jobs : List JobPayload} {l l' : Lanes} {db db' : Database}
    (h : Delivers jobs l db)
    (hkeeps : ∀ id, (l.get .changesets).Holds id → (l'.get .changesets).Holds id)
    (hfinished : ∀ c, db.Finished c → db'.Finished c) : Delivers jobs l' db' := by
  intro job hjob
  rcases h job hjob with hholds | hdone
  · exact .inl (hkeeps _ hholds)
  · exact .inr fun s hs c hc => hfinished c (hdone s hs c hc)

section Steps

variable {queue : QueueConfig} {db db' : Database} {l l' l₁ : Lanes} {clock : Clock} {lane : Lane}
  {job : ClaimedJob} {p : JobPayload} {before pushes : List (List String)}

theorem lane_of_kind (hp : Stems queue before lane p) : p.kind.lane = lane := by
  rw [hp.1.1]
  cases lane <;> rfl

theorem handled_advances (hdb : db.Planned) (hp : Stems queue before lane p)
    (h : Handled clock queue db l p db' l') : Advances (changesets before) db db' := by
  cases h with
  | @changesets ids hkind hids =>
    have hlane : lane = .changesets := by
      rw [← lane_of_kind hp, hkind]
      rfl
    obtain ⟨job, hjob, hwork⟩ := hp.2 hlane
    exact markCompleted_advances db fun c hc => mem_changesets_of_parseMembers hjob hwork hids hc
  | file => exact tryCloseFile_advances hdb _ (tryCloseFile_closing clock.wall db _)
  | sync => exact tryCloseSync_advances hdb _ (tryCloseSync_closing clock.wall db _)

theorem step_advances (hdb : db.Planned) (hl : l.Carries (Stems queue before))
    (h : Step queue db l pushes db' l') : Advances (changesets before) db db' := by
  cases h with
  | stay | push | claim | recover | fail | retry => exact .refl _ db
  | abandon hclaim h =>
    exact handled_advances hdb (claims_carries (stems_aboutWork queue before) hl hclaim).2 h
  | complete hclaim h =>
    exact handled_advances hdb (claims_carries (stems_aboutWork queue before) hl hclaim).2 h

theorem handled_finishes (hfree : Sha256.CollisionFree (hashed queue before))
    (hp : Stems queue before .changesets p) (h : Handled clock queue db l p db' l')
    {job : JobPayload} (hjob : job ∈ formed queue before) (hid : p.id = job.id) {s : String}
    (hs : s ∈ job.memberIds) {c : ChangesetId} (hc : Identifier.parse? s = some c) :
    db'.Finished c := by
  have hkind : p.kind = .changesetClosure := hp.1.1
  cases h with
  | changesets _ hids =>
    obtain ⟨origin, horigin, hwork⟩ := hp.2 rfl
    exact finished_markCompleted db (mem_of_id_eq hfree horigin hwork hids hjob hid hs hc)
  | file hkind' =>
    rw [hkind] at hkind'
    cases hkind'
  | sync hkind' =>
    rw [hkind] at hkind'
    cases hkind'

theorem handled_finished {c : ChangesetId} (h : Handled clock queue db l p db' l')
    (hc : db.Finished c) : db'.Finished c := by
  cases h with
  | @changesets ids => exact (markCompleted_advances db fun _ hc => hc).finished hc
  | @file id =>
    have hframe := tryCloseFile_frame (tryCloseFile_closing clock.wall db id)
    exact finished_of_entities_eq hframe hc
  | @sync id =>
    have hframe := tryCloseSync_frame (tryCloseSync_closing clock.wall db id)
    exact finished_of_entities_eq hframe.2 hc

/-- A job of a push leaves its lane only after it was handled. -/
theorem kept_delivers (hfree : Sha256.CollisionFree (hashed queue before)) :
    Kept queue (Stems queue before) (Delivers (formed queue before)) where
  mono h hkeeps := h.mono (hkeeps .changesets) fun _ hc => hc
  handled _ h hdelivers :=
    hdelivers.mono (fun _ hid => handled_keeps h hid) fun _ hc => handled_finished h hc
  completed := by
    intro clock lane p db l db' l' l'' hp h hdelivers hkeeps job hjob
    by_cases hsame : lane = .changesets ∧ p.id = job.id
    · obtain ⟨rfl, hid⟩ := hsame
      exact .inr fun s hs c hc => handled_finishes hfree hp h hjob hid hs hc
    · refine (hdelivers job hjob).imp_left fun hholds => hkeeps _ _ ?_ hholds
      intro hlane hid
      exact hsame ⟨hlane.symm, hid.symm⟩

theorem step_holds_pushed (h : Step queue db l pushes db' l') {job : JobPayload}
    (hjob : job ∈ formed queue pushes) : (l'.get .changesets).Holds job.id := by
  cases h with
  | push clock ids =>
    obtain ⟨ids', hids', hformed⟩ := List.mem_flatMap.1 hjob
    obtain rfl := List.mem_singleton.1 hids'
    exact pushed_holds hformed
  | stay | claim | recover | abandon | complete | fail | retry => cases hjob

theorem step_delivers (hqueue : queue.Unbatched) (hl : l.Carries (Stems queue before))
    (hfree : Sha256.CollisionFree (hashed queue before))
    (hdelivers : NoneFailed l → Delivers (formed queue before) l db)
    (h : Step queue db l pushes db' l') (hnone : NoneFailed l') :
    Delivers (formed queue (before ++ pushes)) l' db' := by
  have hkept := step_kept (stems_aboutWork queue before) stems_of_fits hqueue (kept_delivers hfree) hl
    hdelivers h hnone
  intro job hjob
  rw [formed_append] at hjob
  rcases List.mem_append.1 hjob with hjob | hjob
  · exact hkept job hjob
  · exact .inl (step_holds_pushed h hjob)

theorem step_stems (hqueue : queue.Unbatched) (hl : l.Carries (Stems queue before))
    (h : Step queue db l pushes db' l') : l'.Carries (Stems queue (before ++ pushes)) := by
  have hl' : l.Carries (Stems queue (before ++ pushes)) := fun lane =>
    (hl lane).mono fun _ => stems_append pushes
  refine step_carries (stems_aboutWork queue _) stems_of_fits hqueue hl' h fun job hjob => ?_
  refine ⟨formed_fits hqueue hjob, fun _ => ⟨job, ?_, .refl job⟩⟩
  rw [formed_append]
  exact List.mem_append_right _ hjob

end Steps

/-- From empty lanes the moves lead to idle ones, no job has failed, and no hashes of batches have
collided. -/
structure Drains (transaction : TransactionConfig) (queue : QueueConfig) (w : World Session Lanes)
    (moves : List Move) : Prop where
  unbatched : queue.Unbatched
  empty : w.broker = .empty
  idle : ∀ lane, ((run transaction queue w moves).broker.get lane).Idle
  noneFailed : NoneFailed (run transaction queue w moves).broker
  collisionFree : Sha256.CollisionFree (hashed queue (moves.flatMap Move.pushes))

/-- What every step preserves on the way from `start`. -/
structure Underway (queue : QueueConfig) (start : Database) (pushes : List (List String))
    (db : Database) (l : Lanes) : Prop where
  stems : l.Carries (Stems queue pushes)
  advances : Advances (changesets pushes) start db
  covers : NoneFailed l → Covers l db
  delivers : Sha256.CollisionFree (hashed queue pushes) → NoneFailed l →
    Delivers (formed queue pushes) l db

theorem step_underway {queue : QueueConfig} (hqueue : queue.Unbatched) {start : Database}
    (hstart : start.Planned) {before pushes : List (List String)} {db db' : Database} {l l' : Lanes}
    (h : Underway queue start before db l) (hstep : Step queue db l pushes db' l') :
    Underway queue start (before ++ pushes) db' l' where
  stems := step_stems hqueue h.stems hstep
  advances := by
    have hadvances := step_advances (h.advances.planned hstart) h.stems hstep
    refine (h.advances.trans hstart hadvances).mono fun c hc => ?_
    rw [changesets_append]
    exact List.mem_append_left _ hc
  covers := step_covers hqueue (fun lane => (h.stems lane).mono fun _ hp => hp.1) h.covers hstep
  delivers hfree hnone := by
    have hfree' := collisionFree_of_append hfree
    exact step_delivers hqueue h.stems hfree' (h.delivers hfree') hstep hnone

/-- A schedule that drains the lanes has reached the outcome. -/
theorem settled_of_drains {transaction : TransactionConfig} {queue : QueueConfig}
    {w : World Session Lanes} {moves : List Move} (h : Drains transaction queue w moves)
    (hplanned : w.store.committed.Planned) (hfiles : ∀ file, ¬ w.store.committed.ReadyFile file)
    (hsyncs : ∀ sync, ¬ w.store.committed.ReadySync sync) :
    Settled (changesets (moves.flatMap Move.pushes)) w.store.committed
      (run transaction queue w moves).store.committed := by
  have hstart : Has w.store.committed .empty w.clock w := ⟨rfl, h.empty, rfl⟩
  have hinit : Underway queue w.store.committed [] w.store.committed .empty :=
    { stems := Lanes.carries_empty
      advances := .refl _ _
      covers := fun _ =>
        ⟨fun hready => absurd hready (hfiles _), fun hready => absurd hready (hsyncs _)⟩
      delivers := fun _ _ job hjob => nomatch hjob }
  obtain ⟨db', l', clock', ⟨hdb', hl', -⟩, hend⟩ := run_preserves transaction queue
    (I := Underway queue w.store.committed)
    (fun _ _ _ hI lane => (hI.stems lane).mono fun _ hp => hp.1.single)
    (fun _ _ _ _ _ _ hI hstep => step_underway h.unbatched hplanned hI hstep) [] hinit moves hstart
  rw [List.nil_append] at hend
  have hdb : (run transaction queue w moves).store.committed = db' := hdb'
  have hl : (run transaction queue w moves).broker = l' := hl'
  have hidle := h.idle
  have hnone := h.noneFailed
  rw [hl] at hidle hnone
  rw [hdb]
  have hcovers := hend.covers hnone
  refine settled_of_advances hend.advances (fun file hready => ?_) (fun sync hready => ?_)
    fun c hc => ?_
  · exact LaneState.not_holds_of_idle (hidle .files) _ (hcovers.files hready)
  · exact LaneState.not_holds_of_idle (hidle .syncs) _ (hcovers.syncs hready)
  · obtain ⟨job, hjob, s, hs, hparse⟩ := exists_mem_formed queue hc
    rcases hend.delivers h.collisionFree hnone job hjob with hholds | hdone
    · exact absurd hholds (LaneState.not_holds_of_idle (hidle .changesets) _)
    · exact hdone s hs c hparse

/-- Any two schedules that push the same changesets and drain the lanes, lead from one database to the
same statuses. These are described by `Settled` without any order: only what is pushed and counted
matters. -/
theorem order_independent {transaction₁ transaction₂ : TransactionConfig}
    {queue₁ queue₂ : QueueConfig} {db : Database} (hplanned : db.Planned)
    (hfiles : ∀ file, ¬ db.ReadyFile file) (hsyncs : ∀ sync, ¬ db.ReadySync sync)
    {w₁ w₂ : World Session Lanes} (hw₁ : w₁.store.committed = db) (hw₂ : w₂.store.committed = db)
    {moves₁ moves₂ : List Move} (h₁ : Drains transaction₁ queue₁ w₁ moves₁)
    (h₂ : Drains transaction₂ queue₂ w₂ moves₂)
    (hpushed : ∀ c, c ∈ changesets (moves₁.flatMap Move.pushes) ↔
      c ∈ changesets (moves₂.flatMap Move.pushes)) :
    SameStatuses (run transaction₁ queue₁ w₁ moves₁).store.committed
        (run transaction₂ queue₂ w₂ moves₂).store.committed ∧
      Settled (changesets (moves₁.flatMap Move.pushes)) db
        (run transaction₁ queue₁ w₁ moves₁).store.committed ∧
      Settled (changesets (moves₂.flatMap Move.pushes)) db
        (run transaction₂ queue₂ w₂ moves₂).store.committed := by
  have hsettled : ∀ {transaction queue w moves}, w.store.committed = db →
      Drains transaction queue w moves →
      Settled (changesets (moves.flatMap Move.pushes)) db
        (run transaction queue w moves).store.committed := by
    rintro transaction queue w moves rfl h
    exact settled_of_drains h hplanned hfiles hsyncs
  have hsettled₁ := hsettled hw₁ h₁
  have hsettled₂ := hsettled hw₂ h₂
  exact ⟨hsettled₁.unique hsettled₂ hpushed, hsettled₁, hsettled₂⟩

namespace Sample

def otherChangeset : ChangesetId := ⟨⟨4⟩⟩

def rerun : SyncId := ⟨⟨5⟩⟩

/-- The sync with a rerun in progress and a file with entities of two changesets. -/
def family : Database where
  syncs := database.syncs.insert rerun
    { syncRow with id := rerun, totalFiles := none, baseSyncId := some sync, runNumber := 1 }
  files := Table.empty.insert file { fileRow with totalEntities := some 2 }
  entities := database.entities.insert ⟨file, ⟨"way"⟩⟩
    { entityRow with entityId := ⟨"way"⟩, changesetId := some otherChangeset }
  changesets := database.changesets.insert otherChangeset ⟨otherChangeset, none⟩
  history := []

def familyWorld : World Session Lanes := .initial (.ofDatabase family) .empty

def clockAt (seconds : Nat) : Clock := ⟨⟨0, 0⟩, (Timespan.ofSeconds seconds).nanos⟩

/-- Both changesets first, then what follows from them. -/
def together : List Move := [
  .push [Identifier.text changeset], .push [Identifier.text otherChangeset],
  .process .changesets .default, .process .changesets .default, .wait (clockAt 10) 0,
  .process .files .default, .process .syncs .default]

/-- One changeset after the other. The commits for the first fail and its job is delivered again; the
job of the second is handled by a worker that dies, recovered and pushed once more. -/
def apart : List Move := [
  .push [Identifier.text otherChangeset], .failCommits 4, .process .changesets .default,
  .wait (clockAt 10) 0, .process .changesets .default, .process .files .default,
  .push [Identifier.text changeset], .abandon .changesets .default true,
  .wait (clockAt 20) 0, .process .files .default, .process .syncs .default,
  .wait (clockAt 60) 0, .recover .changesets .default, .push [Identifier.text changeset],
  .wait (clockAt 70) 0, .process .changesets .default]

theorem family_planned : family.Planned :=
  planned_of_entries (by decide) (by decide) (by decide) (by decide)

theorem mem_all (lane : Lane) : lane ∈ Lane.all := by
  cases lane <;> decide

theorem drains_of_quiet {moves : List Move}
    (hhashed : hashed .default (moves.flatMap Move.pushes) = [])
    (hquiet : ∀ lane ∈ Lane.all,
      ((run .default .default familyWorld moves).broker.get lane).Idle ∧
        ((run .default .default familyWorld moves).broker.get lane).failed = []) :
    Drains .default .default familyWorld moves where
  unbatched := QueueConfig.default_unbatched
  empty := rfl
  idle lane := (hquiet lane (mem_all lane)).1
  noneFailed lane := (hquiet lane (mem_all lane)).2
  collisionFree := by
    rw [hhashed]
    exact nofun

theorem drains_together : Drains .default .default familyWorld together := by
  refine drains_of_quiet rfl ?_
  unfold LaneState.Idle
  decide +kernel

theorem drains_apart : Drains .default .default familyWorld apart := by
  refine drains_of_quiet rfl ?_
  unfold LaneState.Idle
  decide +kernel

end Sample

open Sample in
/-- With the sync its rerun is closed, in either order. -/
theorem order_independent_sample :
    let db₁ := (run .default .default familyWorld together).store.committed
    let db₂ := (run .default .default familyWorld apart).store.committed
    SameStatuses db₁ db₂ ∧ (db₁.syncs.find? rerun).map SyncRun.status = some .completed := by
  have hfiles : ∀ id, ¬ family.ReadyFile id := not_readyFile (by decide)
  have hsyncs : ∀ id, ¬ family.ReadySync id := not_readySync (by decide)
  have hpushed : ∀ c, c ∈ changesets (together.flatMap Move.pushes) ↔
      c ∈ changesets (apart.flatMap Move.pushes) := by
    have htogether : changesets (together.flatMap Move.pushes) = [changeset, otherChangeset] := by
      decide +kernel
    have hapart : changesets (apart.flatMap Move.pushes) =
        [otherChangeset, changeset, changeset] := by
      decide +kernel
    intro c
    rw [htogether, hapart]
    simp only [List.mem_cons, List.not_mem_nil, or_false]
    grind
  have hsame := order_independent family_planned hfiles hsyncs rfl rfl drains_together drains_apart
    hpushed
  exact ⟨hsame.1, by decide +kernel⟩

end Cascade

end SyncCascade
