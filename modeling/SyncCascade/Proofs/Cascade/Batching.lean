import SyncCascade.Proofs.Cascade.Draining
import SyncCascade.Proofs.Cascade.OrderIndependence
import SyncCascade.Proofs.Store.Batching

/-!
# The size of the batches does not matter

Changesets are pushed to their idle lane, and its jobs are run until it is idle again. At any time, what
the database and the lane of files have come to depends only on which changesets were handled so far. In
the end these are all that were pushed, in whatever jobs, and however often a job had to be repeated.
-/

namespace SyncCascade

namespace Cascade

open SyncCascade.Action

/-- The move works on the lane of changesets only and pushes nothing to it. -/
def Move.Closing : Move → Prop
  | push _ => False
  | process lane _ => lane = .changesets
  | abandon lane _ _ => lane = .changesets
  | recover lane _ => lane = .changesets
  | failCommits _ => True
  | wait _ _ => True

/-- The world after the changesets were pushed and the moves were made. -/
def closingRun (transaction : TransactionConfig) (queue : QueueConfig) (w : World Session Lanes)
    (ids : List ChangesetId) (moves : List Move) : World Session Lanes :=
  run transaction queue w (.push (ids.map Identifier.text) :: moves)

/-- The changesets are pushed to their idle lane, and the moves run all their jobs to success before any
file is closed. The lane of files has no batches, and no hashes of batches collide. -/
structure Closes (transaction : TransactionConfig) (queue : QueueConfig) (w : World Session Lanes)
    (ids : List ChangesetId) (moves : List Move) : Prop where
  keyed : w.broker.Keyed
  ready : (w.broker.get .changesets).Idle
  unbatched : queue.files.batchSize = none
  closing : ∀ m ∈ moves, m.Closing
  idle : ((closingRun transaction queue w ids moves).broker.get .changesets).Idle
  failed : ((closingRun transaction queue w ids moves).broker.get .changesets).failed =
    (w.broker.get .changesets).failed
  collisionFree : Sha256.CollisionFree (hashed queue [ids.map Identifier.text])

/-- From the world `w` on, the changesets were closed in one go. -/
structure ClosedTogether (ids : List ChangesetId) (w w' : World Session Lanes) : Prop where
  committed : w'.store.committed = (w.store.committed.markCompleted ids).2
  pends : ∀ id, w'.broker.Pends .files id ↔ w.broker.Pends .files id ∨
    ∃ file ∈ w.store.committed.findFiles ids [.inProgress], id = Identifier.text file

abbrev closingJobs (queue : QueueConfig) (ids : List ChangesetId) : List JobPayload :=
  formed queue [ids.map Identifier.text]

/-- The job does the work of one of those for the changesets. -/
def Originates (queue : QueueConfig) (ids : List ChangesetId) (p : JobPayload) : Prop :=
  ∃ job ∈ closingJobs queue ids, job.SameWork p

/-- Every changeset of the job is among these. -/
def Covered (done : List ChangesetId) (job : JobPayload) : Prop :=
  ∀ s ∈ job.memberIds, ∀ c, Identifier.parse? s = some c → c ∈ done

/-- From the database `db₀` and the lanes `l₀` on, the changesets `done` were handled. -/
structure Closing (queue : QueueConfig) (ids : List ChangesetId) (db₀ : Database) (l₀ : Lanes)
    (done : List ChangesetId) (db : Database) (l : Lanes) : Prop where
  among : ∀ c ∈ done, c ∈ ids
  marked : db = (db₀.markCompleted done).2
  pends : ∀ id, l.Pends .files id ↔ l₀.Pends .files id ∨
    ∃ file ∈ db₀.findFiles done [.inProgress], id = Identifier.text file
  carries : l.Carries fun lane p => lane = .changesets → Originates queue ids p
  grown : (l₀.get .changesets).failed <+: (l.get .changesets).failed
  /-- Unless a job has failed, one whose changesets were not handled has not left the lane. -/
  kept : (l.get .changesets).failed = (l₀.get .changesets).failed → ∀ job ∈ closingJobs queue ids,
    (l.get .changesets).Holds job.id ∨ Covered done job

section Steps

variable {transaction : TransactionConfig} {queue : QueueConfig} {ids done : List ChangesetId}
  {db₀ db db' : Database} {l₀ l l' : Lanes} {clock : Clock} {w : World Session Lanes} {p : JobPayload}

theorem originates_aboutWork (queue : QueueConfig) (ids : List ChangesetId) (lane : Lane) :
    AboutWork fun p => lane = .changesets → Originates queue ids p := by
  intro p q hsame hp hlane
  obtain ⟨job, hjob, hwork⟩ := hp hlane
  exact ⟨job, hjob, hwork.trans hsame⟩

theorem Originates.kind_eq (h : Originates queue ids p) : p.kind = .changesetClosure := by
  obtain ⟨job, hjob, hwork⟩ := h
  rw [← hwork.2.1]
  rcases of_mem_formed hjob with ⟨s, rfl⟩ | ⟨m, rfl, -⟩ <;> rfl

theorem Originates.single (h : Originates queue ids p) : Single p :=
  fun hkind => absurd h.kind_eq hkind

theorem pends_pushed_files (hunbatched : queue.files.batchSize = none) {files : List FileId}
    {id : String} :
    (l.pushed clock queue .fileClosure (files.map Identifier.text)).Pends .files id ↔
      l.Pends .files id ∨ ∃ file ∈ files, id = Identifier.text file := by
  have hlane : (queue.lane JobKind.fileClosure.lane).batchSize = none := hunbatched
  rw [Lanes.pends_pushed, formJobs_unbatched hlane]
  simp [JobKind.lane, JobPayload.single]

theorem Closing.start (hkeyed : l₀.Keyed) (hready : (l₀.get .changesets).Idle) (clock : Clock) :
    Closing queue ids db₀ l₀ [] db₀
      (l₀.pushed clock queue .changesetClosure (ids.map Identifier.text)) where
  among := nofun
  marked := (Database.markCompleted_nil db₀).symm
  pends id := by simp [Lanes.pends_pushed, Database.notMem_findFiles_nil, JobKind.lane]
  carries := by
    refine pushed_carries .changesetClosure (originates_aboutWork queue ids) ?_ fun job hjob _ => ?_
    · intro lane
      cases lane with
      | changesets => exact LaneState.carries_of_idle hready
      | files => exact (hkeyed .files).mono fun _ _ => nofun
      | syncs => exact (hkeyed .syncs).mono fun _ _ => nofun
    · exact ⟨job, List.mem_flatMap.2 ⟨_, List.mem_singleton_self _, hjob⟩, .refl job⟩
  grown := by simp [pushed_failed]
  kept _ job hjob := by
    rw [closingJobs, formed, List.flatMap_singleton] at hjob
    exact .inl (pushed_holds hjob)

theorem Closing.call (h : Closing queue ids db₀ l₀ done db l) (clock : Clock) {c : BrokerCall}
    (hlane : c.lane = .changesets) (hbrings : ∀ p, c.brings = some p → Originates queue ids p)
    (hcompletes : ∀ job ∈ closingJobs queue ids,
      c.Completes .changesets job.id (l.apply clock c).1 → Covered done job) :
    Closing queue ids db₀ l₀ done db (l.apply clock c).2 where
  among := h.among
  marked := h.marked
  pends id := by
    unfold Lanes.Pends
    rw [Lanes.apply_get_of_ne l clock (by rw [hlane]; decide)]
    exact h.pends id
  carries := Lanes.carries_apply (originates_aboutWork queue ids) h.carries clock
    fun p hp _ => hbrings p hp
  grown := by
    obtain ⟨records, hrecords⟩ := l.apply_failed .changesets clock c
    exact h.grown.trans ⟨records, hrecords.symm⟩
  kept hfailed job hjob := by
    obtain ⟨records, hrecords⟩ := l.apply_failed .changesets clock c
    have hback : (l.get .changesets).failed <+: (l₀.get .changesets).failed :=
      ⟨records, hrecords.symm.trans hfailed⟩
    have hsame := h.grown.eq_of_length_le hback.length_le
    have hmore := hfailed.trans hsame
    rcases h.kept hsame.symm job hjob with hholds | hcovered
    · exact (Lanes.apply_holds_or_completes h.carries.keyed hmore hholds).imp_right (hcompletes job hjob)
    · exact .inr hcovered

theorem Closing.extend (h : Closing queue ids db₀ l₀ done db l)
    (hunbatched : queue.files.batchSize = none) (clock : Clock) {more : List ChangesetId}
    (hmore : ∀ c ∈ more, c ∈ ids) :
    Closing queue ids db₀ l₀ (done ++ more) (db.markCompleted more).2
      (l.pushed clock queue .fileClosure
        (((db.markCompleted more).2.findFiles more [.inProgress]).map Identifier.text)) where
  among c hc := (List.mem_append.1 hc).elim (h.among c) (hmore c)
  marked := by rw [h.marked, Database.markCompleted_append]
  pends id := by
    rw [pends_pushed_files hunbatched, h.pends, or_assoc]
    simp only [h.marked, Database.mem_findFiles_markCompleted, Database.mem_findFiles_append,
      or_and_right, exists_or]
  carries := pushed_carries .fileClosure (originates_aboutWork queue ids) h.carries fun _ _ => nofun
  grown := by
    rw [pushed_failed]
    exact h.grown
  kept hfailed job hjob := by
    rw [pushed_failed] at hfailed
    refine (h.kept hfailed job hjob).imp pushed_keeps fun hcovered s hs c hc => ?_
    exact List.mem_append_left _ (hcovered s hs c hc)

theorem Closing.handled (h : Closing queue ids db₀ l₀ done db l)
    (hunbatched : queue.files.batchSize = none)
    (hfree : Sha256.CollisionFree (hashed queue [ids.map Identifier.text]))
    (hp : Originates queue ids p) (hhandled : Handled clock queue db l p db' l') :
    ∃ done', Closing queue ids db₀ l₀ done' db' l' ∧
      ∀ job ∈ closingJobs queue ids, p.id = job.id → Covered done' job := by
  have hkind := hp.kind_eq
  obtain ⟨origin, horigin, hwork⟩ := hp
  cases hhandled with
  | @changesets more _ hparse =>
    have hmore : ∀ c ∈ more, c ∈ ids := by
      intro c hc
      rw [← changesets_texts ids]
      exact mem_changesets_of_parseMembers horigin hwork hparse hc
    refine ⟨done ++ more, h.extend hunbatched clock hmore, fun job hjob hid s hs c hc => ?_⟩
    exact List.mem_append_right _ (mem_of_id_eq hfree horigin hwork hparse hjob hid hs hc)
  | file hfile => exact absurd (hkind.symm.trans hfile) nofun
  | sync hsync => exact absurd (hkind.symm.trans hsync) nofun

/-- Some of the changesets were handled, and the world stands where that leads. -/
def Amid (queue : QueueConfig) (ids : List ChangesetId) (db₀ : Database) (l₀ : Lanes)
    (w : World Session Lanes) : Prop :=
  ∃ done db l clock, Has db l clock w ∧ Closing queue ids db₀ l₀ done db l

theorem Amid.blind : World.Blind (Amid queue ids db₀ l₀) := fun _ _ _ h => h

/-- What becomes of a claimed job, whoever settles it and whether it is settled at all. -/
theorem handle_amid (transaction : TransactionConfig) (hunbatched : queue.files.batchSize = none)
    (hfree : Sha256.CollisionFree (hashed queue [ids.map Identifier.text]))
    (hclosing : Closing queue ids db₀ l₀ done db l) (hp : Originates queue ids p)
    (hw : Has db l clock w) :
    ((cascade transaction queue).handle p).Ensures w
      (fun _ w' => ∃ done' db' l', Has db' l' clock w' ∧ Closing queue ids db₀ l₀ done' db' l' ∧
        ∀ job ∈ closingJobs queue ids, p.id = job.id → Covered done' job)
      fun _ w' => Has db l clock w' := by
  refine (handle_ensures transaction queue hp.single hw).mono ?_ fun _ _ h => h
  rintro value w' ⟨db', l', hhandled, hw'⟩
  obtain ⟨done', hclosing', hcovered⟩ := hclosing.handled hunbatched hfree hp hhandled
  exact ⟨done', db', l', hw', hclosing', hcovered⟩

section Moves

variable (transaction : TransactionConfig) (hunbatched : queue.files.batchSize = none)
  (hfree : Sha256.CollisionFree (hashed queue [ids.map Identifier.text])) (config : WorkerConfig)

include hunbatched hfree

theorem processNext_amid (h : Amid queue ids db₀ l₀ w) :
    (worker transaction queue .changesets config).processNext.Ensures w
      (fun _ w' => Amid queue ids db₀ l₀ w') fun _ w' => Amid queue ids db₀ l₀ w' := by
  obtain ⟨done, db, l, clock, hw, hclosing⟩ := h
  have hclaimed := hclosing.call clock (c := .claim .changesets config.lease) rfl nofun nofun
  refine Worker.processNext_rule rfl (fun _ => Amid.blind)
    (fun _ => ⟨_, _, _, _, hw.told _, hclaimed⟩) fun job journal metrics hreply => ?_
  rw [hw.answer] at hreply
  have horigin := Lanes.payload_of_claim hclosing.carries hreply rfl
  have hstart := World.standing_blind journal metrics (hw.told (.claim .changesets config.lease))
  refine (handle_amid transaction hunbatched hfree hclaimed horigin hstart).mono ?_ fun e w' hw' => ?_
  · rintro value w' ⟨done', db', l', hw', hclosing', hcovered⟩
    refine ⟨_, _, _, _, hw'.told _, hclosing'.call clock rfl nofun fun job' hjob' hcompletes => ?_⟩
    exact hcovered job' hjob' hcompletes.2.1
  · refine ⟨fun _ delay seed => ⟨done, db, _, clock, (hw'.drawn seed).told _, ?_⟩,
      fun _ => ⟨done, db, _, clock, hw'.told _, hclaimed.call clock rfl nofun nofun⟩⟩
    refine hclaimed.call clock rfl (fun p hp => ?_) nofun
    obtain rfl := Option.some.inj hp
    obtain ⟨origin, hmem, hwork⟩ := horigin
    exact ⟨origin, hmem, hwork⟩

theorem abandon_amid (handled : Bool) (h : Amid queue ids db₀ l₀ w) :
    (perform transaction queue (.abandon .changesets config handled)).Ensures w
      (fun _ w' => Amid queue ids db₀ l₀ w') fun _ w' => Amid queue ids db₀ l₀ w' := by
  obtain ⟨done, db, l, clock, hw, hclosing⟩ := h
  have hclaimed := hclosing.call clock (c := .claim .changesets config.lease) rfl nofun nofun
  have htold := hw.told (.claim .changesets config.lease)
  refine abandon_rule .changesets config handled ⟨_, _, _, _, htold, hclaimed⟩ fun job hreply => ?_
  rw [hw.answer] at hreply
  have horigin := Lanes.payload_of_claim hclosing.carries hreply rfl
  refine (handle_amid transaction hunbatched hfree hclaimed horigin htold).mono ?_ ?_
  · rintro value w' ⟨done', db', l', hw', hclosing', -⟩
    exact ⟨_, _, _, _, hw', hclosing'⟩
  · exact fun e w' hw' => ⟨_, _, _, _, hw', hclaimed⟩

omit hunbatched hfree in
theorem recoverStalled_amid (h : Amid queue ids db₀ l₀ w) :
    (worker transaction queue .changesets config).recoverStalled.Ensures w
      (fun _ w' => Amid queue ids db₀ l₀ w') fun _ w' => Amid queue ids db₀ l₀ w' := by
  obtain ⟨done, db, l, clock, hw, hclosing⟩ := h
  exact Worker.recoverStalled_rule rfl Amid.blind
    ⟨_, _, _, _, hw.told _, hclosing.call clock rfl nofun nofun⟩

theorem perform_amid {m : Move} (hm : m.Closing) (h : Amid queue ids db₀ l₀ w) :
    Amid queue ids db₀ l₀ ((perform transaction queue m).run w).2 := by
  refine Ensures.outcome (P := fun _ => Amid queue ids db₀ l₀) ?_
  cases m with
  | push ids => exact hm.elim
  | process lane config =>
    obtain rfl : lane = .changesets := hm
    exact ensures_discard.2 (processNext_amid transaction hunbatched hfree config h)
  | abandon lane config handled =>
    obtain rfl : lane = .changesets := hm
    exact abandon_amid transaction hunbatched hfree config handled h
  | recover lane config =>
    obtain rfl : lane = .changesets := hm
    exact ensures_discard.2 (recoverStalled_amid transaction config h)
  | failCommits count => exact h
  | wait clock seed =>
    obtain ⟨done, db, l, -, ⟨hdb, hl, -⟩, hclosing⟩ := h
    exact ⟨done, db, l, clock, ⟨hdb, hl, rfl⟩, hclosing⟩

theorem run_amid {moves : List Move} (hmoves : ∀ m ∈ moves, m.Closing) (h : Amid queue ids db₀ l₀ w) :
    Amid queue ids db₀ l₀ (run transaction queue w moves) := by
  induction moves generalizing w with
  | nil => exact h
  | cons m rest ih =>
    have hfirst := perform_amid transaction hunbatched hfree (hmoves m List.mem_cons_self) h
    exact ih (fun m' hm' => hmoves m' (List.mem_cons_of_mem m hm')) hfirst

end Moves

/-- Whatever the jobs were, the run has done what closing all changesets in one go does. -/
theorem Closes.closedTogether {moves : List Move} (h : Closes transaction queue w ids moves) :
    ClosedTogether ids w (closingRun transaction queue w ids moves) := by
  have hstart : Has w.store.committed w.broker w.clock w := ⟨rfl, rfl, rfl⟩
  have hpushed : Amid queue ids w.store.committed w.broker
      ((perform transaction queue (.push (ids.map Identifier.text))).run w).2 := by
    refine Ensures.outcome (P := fun _ => Amid queue ids w.store.committed w.broker) ?_
    refine (push_ensures .changesetClosure _ hstart).mono (fun _ w' hw' => ?_) fun _ _ h => h
    exact ⟨[], _, _, _, hw', Closing.start h.keyed h.ready w.clock⟩
  obtain ⟨done, db, l, clock, ⟨hdb, hl, -⟩, hend⟩ :=
    run_amid transaction h.unbatched h.collisionFree h.closing hpushed
  have hdb : (closingRun transaction queue w ids moves).store.committed = db := hdb
  have hl : (closingRun transaction queue w ids moves).broker = l := hl
  have hidle := h.idle
  have hfailed := h.failed
  rw [hl] at hidle hfailed
  have hall : ∀ c, c ∈ done ↔ c ∈ ids := by
    refine fun c => ⟨hend.among c, fun hc => ?_⟩
    rw [← changesets_texts ids] at hc
    obtain ⟨job, hjob, s, hs, hparse⟩ := exists_mem_formed queue hc
    rcases hend.kept hfailed job hjob with hholds | hcovered
    · exact absurd hholds (LaneState.not_holds_of_idle hidle _)
    · exact hcovered s hs c hparse
  constructor
  case committed => rw [hdb, hend.marked, Database.markCompleted_congr hall]
  case pends => simp only [hl, hend.pends, Database.mem_findFiles_congr hall, implies_true]

theorem exists_closing (D : Drain) (hquiet : w.store.failingCommits = 0) (hl : w.broker.Drainable) :
    ∃ moves : List Move, (∀ m ∈ moves, m.Closing) ∧
      ((run D.transaction D.queue w moves).broker.get .changesets).Idle ∧
      ((run D.transaction D.queue w moves).broker.get .changesets).failed =
        (w.broker.get .changesets).failed := by
  generalize hpending : (w.broker.get .changesets).pending.size = left
  induction left generalizing w with
  | zero => exact ⟨[], nofun, ⟨hpending, hl.unclaimed .changesets⟩, rfl⟩
  | succ left ih =>
    have hnonzero : (w.broker.get .changesets).pending.size ≠ 0 := by omega
    obtain ⟨-, hquiet', hsettles⟩ := D.look_completes 0 hquiet hl hnonzero
    have hleft := hsettles.fewer
    obtain ⟨moves, hmoves, hidle, hfailed⟩ := ih hquiet' hsettles.drainable (by omega)
    refine ⟨.wait (D.clock 0 w) w.seed :: .process .changesets (D.config .changesets) :: moves, ?_, ?_⟩
    · simpa [Move.Closing] using hmoves
    · have hrun : run D.transaction D.queue w
          (.wait (D.clock 0 w) w.seed :: .process .changesets (D.config .changesets) :: moves) =
          run D.transaction D.queue (D.look .changesets 0 w).2 moves := by
        exact congrArg (fun w' => run D.transaction D.queue w' moves) (run_discard _ _)
      rw [hrun]
      exact ⟨hidle, hfailed.trans (hsettles.failed .changesets)⟩

/-- Where any attempt is allowed and no commit is made to fail, some run closes the changesets, whatever the
size of the batches. -/
theorem exists_closes {transaction : TransactionConfig} (hallowed : 0 < transaction.retry.attempts)
    (queue : QueueConfig) (ids : List ChangesetId) (hquiet : w.store.failingCommits = 0)
    (hl : w.broker.Drainable) (hready : (w.broker.get .changesets).Idle)
    (hunbatched : queue.files.batchSize = none)
    (hfree : Sha256.CollisionFree (hashed queue [ids.map Identifier.text])) :
    ∃ moves, Closes transaction queue w ids moves := by
  have hstart : World.Standing (fun s => s.failingCommits = 0) w.broker w.clock w :=
    ⟨hquiet, rfl, rfl⟩
  obtain ⟨hquiet', hpushed, -⟩ : World.Standing (fun s => s.failingCommits = 0)
      (w.broker.pushed w.clock queue .changesetClosure (ids.map Identifier.text)) w.clock
      ((perform transaction queue (.push (ids.map Identifier.text))).run w).2 := by
    refine Ensures.outcome (P := fun _ => World.Standing (fun s : Session => s.failingCommits = 0) _ _) ?_
    refine ensures_discard.2 ?_
    exact (Queue.push_ensures _ _ _ hstart).mono (fun _ _ h => h) fun _ _ h => h.elim
  have hdrainable : (w.broker.pushed w.clock queue .changesetClosure
      (ids.map Identifier.text)).Drainable := by
    refine ⟨pushed_carries _ Lane.suits_aboutWork hl.suits fun _ => Queue.formJobs_suits _ _ ids, ?_⟩
    intro lane
    rw [pushed_active]
    exact hl.unclaimed lane
  rw [← hpushed] at hdrainable
  obtain ⟨moves, hclosing, hidle, hfailed⟩ := exists_closing
    { Drain.prompt with transaction := transaction, queue := queue, allowed := hallowed } hquiet'
      hdrainable
  refine ⟨moves, hl.suits.keyed, hready, hunbatched, hclosing, hidle, ?_, hfree⟩
  rw [hpushed, pushed_failed] at hfailed
  exact hfailed

end Steps

/-- Changesets can be closed in two parts, in any order. So any two runs that push and close the same
changesets, in batches of whatever size or one by one, leave the same database and the same files waiting,
as closing them in one go does; and there are such runs. -/
theorem batching_transparent :
    (∀ (db : Database) (A B : List ChangesetId), db.Parted A B) ∧
    (∀ (transaction : TransactionConfig) (queue : QueueConfig) (w : World Session Lanes)
      (ids : List ChangesetId), 0 < transaction.retry.attempts → w.store.failingCommits = 0 →
      w.broker.Drainable →
      (w.broker.get .changesets).Idle → queue.files.batchSize = none →
      Sha256.CollisionFree (hashed queue [ids.map Identifier.text]) →
      ∃ moves, Closes transaction queue w ids moves) ∧
    ∀ {transaction₁ transaction₂ : TransactionConfig} {queue₁ queue₂ : QueueConfig}
      {w : World Session Lanes} {ids : List ChangesetId} {moves₁ moves₂ : List Move},
      Closes transaction₁ queue₁ w ids moves₁ → Closes transaction₂ queue₂ w ids moves₂ →
      (closingRun transaction₁ queue₁ w ids moves₁).store.committed =
          (closingRun transaction₂ queue₂ w ids moves₂).store.committed ∧
        (∀ id, (closingRun transaction₁ queue₁ w ids moves₁).broker.Pends .files id ↔
          (closingRun transaction₂ queue₂ w ids moves₂).broker.Pends .files id) ∧
        ClosedTogether ids w (closingRun transaction₁ queue₁ w ids moves₁) := by
  refine ⟨Database.parted, fun _ queue _ ids hallowed => exists_closes hallowed queue ids, ?_⟩
  intro _ _ _ _ _ _ _ _ h₁ h₂
  have hclosed₁ := h₁.closedTogether
  have hclosed₂ := h₂.closedTogether
  exact ⟨hclosed₁.committed.trans hclosed₂.committed.symm,
    fun id => (hclosed₁.pends id).trans (hclosed₂.pends id).symm, hclosed₁⟩

namespace Sample

def both : List ChangesetId := [changeset, otherChangeset]

def oneByOne : QueueConfig := { QueueConfig.default with changesets := .default }

def bothJob : JobPayload where
  id := "883ae29f648f953da368ba2bfbd6c080bc8b50b0dc566ae269351ffd50d8da39"
  kind := .changesetClosure
  batchIds := some (both.map Identifier.text)
  transactionFailures := 0
  stalled := 0
  dedupCount := 0

theorem batch_both : JobPayload.batch .changesetClosure (both.map Identifier.text) = bothJob := by
  have hid : Batch.jobId (both.map Identifier.text) = bothJob.id := by
    simp only [Batch.jobId, Batch.encoding, Batch.toList_toUTF8]
    decide +kernel
  unfold JobPayload.batch
  rw [hid]
  rfl

theorem formJobs_both :
    Queue.formJobs (QueueConfig.default.lane .changesets) .changesetClosure
      (both.map Identifier.text) = [bothJob] := by
  -- Sorting is not evaluated: the two are sorted already.
  have hnormalize : Batch.normalize (both.map Identifier.text) = both.map Identifier.text := by
    unfold Batch.normalize
    rw [List.mergeSort_of_pairwise (by decide +kernel)]
    decide +kernel
  have hformed : Queue.formJobs (QueueConfig.default.lane .changesets) .changesetClosure
      (both.map Identifier.text) =
      (Chunk.pieces 100 (Batch.normalize (both.map Identifier.text))).map
        (.batch .changesetClosure) := rfl
  rw [hformed, hnormalize, ← batch_both]
  rfl

theorem closingRun_of_formJobs (transaction : TransactionConfig) {queue : QueueConfig}
    {ids : List ChangesetId} {jobs : List JobPayload}
    (h : Queue.formJobs (queue.lane .changesets) .changesetClosure (ids.map Identifier.text) = jobs)
    (w : World Session Lanes) (moves : List Move) :
    closingRun transaction queue w ids moves =
      run transaction queue ((discard <| announcing <| Queue.publish Lanes.broker
        (queue.lane .changesets) .changesets .empty jobs : Action Session Lanes Unit).run w).2 moves := by
  rw [← h]
  rfl

/-- The worker of the batch dies after it handled the job, which is recovered and delivered again. -/
def batchMoves : List Move := [.abandon .changesets .default true, .wait (clockAt 60) 0,
  .recover .changesets .default, .process .changesets .default]

def singleMoves : List Move := [.process .changesets .default, .process .changesets .default]

theorem closes_batch : Closes .default .default familyWorld both batchMoves where
  keyed := Lanes.keyed_empty
  ready := ⟨rfl, rfl⟩
  unbatched := rfl
  closing := by simp [batchMoves, Move.Closing]
  idle := by
    unfold LaneState.Idle
    rw [closingRun_of_formJobs .default formJobs_both]
    decide +kernel
  failed := by
    rw [closingRun_of_formJobs .default formJobs_both]
    decide +kernel
  collisionFree := by
    simp only [hashed, formed, List.flatMap_singleton, formJobs_both]
    intro x hx y hy _
    exact (List.mem_singleton.1 hx).trans (List.mem_singleton.1 hy).symm

theorem closes_single : Closes .default oneByOne familyWorld both singleMoves where
  keyed := Lanes.keyed_empty
  ready := ⟨rfl, rfl⟩
  unbatched := rfl
  closing := by simp [singleMoves, Move.Closing]
  idle := by
    unfold LaneState.Idle
    decide +kernel
  failed := by decide +kernel
  collisionFree := nofun

theorem family_drainable : familyWorld.broker.Drainable :=
  ⟨Lanes.carries_empty, fun lane => by cases lane <;> rfl⟩

end Sample

open Sample in
/-- The file of both changesets waits in the end, and it is ready. -/
theorem batching_transparent_family :
    let w₁ := closingRun .default .default familyWorld both batchMoves
    let w₂ := closingRun .default oneByOne familyWorld both singleMoves
    w₁.store.committed = w₂.store.committed ∧
      (∀ id, w₁.broker.Pends .files id ↔ w₂.broker.Pends .files id) ∧
      w₂.broker.Pends .files (Identifier.text file) ∧
      w₂.store.committed.ReadyFile file ∧
      ∃ moves, Closes .default .default familyWorld both moves := by
  obtain ⟨-, hexists, hsame⟩ := batching_transparent
  obtain ⟨hdb, hpends, -⟩ := hsame closes_batch closes_single
  refine ⟨hdb, hpends, ?_, ?_, ?_⟩
  · unfold Lanes.Pends
    decide +kernel
  · exact ⟨{ fileRow with totalEntities := some 2 }, by decide +kernel, by decide +kernel⟩
  · exact hexists .default .default familyWorld both (by decide) rfl family_drainable ⟨rfl, rfl⟩ rfl
      closes_batch.collisionFree

end Cascade

end SyncCascade
