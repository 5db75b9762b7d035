import SyncCascade.Proofs.Broker.Publish
import SyncCascade.Proofs.Closure
import SyncCascade.Proofs.Store.Session
import SyncCascade.Proofs.Worker.Turn

/-!
# Steps of the cascade in memory

The cascade runs over the database and the lanes in memory. Of what it does only the committed
database and the lanes matter to it later on, and `Step` tells all that one move can make of these:
a push, the claim of a job, what the handler makes of the claimed job, its settlement, or a recovery.
-/

namespace SyncCascade

def cascade (transaction : TransactionConfig) (queue : QueueConfig) : Engine Session Lanes :=
  ⟨Session.storage, Lanes.broker, transaction, queue⟩

/-- The lanes of files and of syncs get a job for every target. -/
structure QueueConfig.Unbatched (queue : QueueConfig) : Prop where
  files : queue.files.batchSize = none
  syncs : queue.syncs.batchSize = none

namespace Cascade

open SyncCascade.Action

/-- What may happen to the cascade. -/
inductive Move where
  | push (ids : List String)
  /-- A worker claims a job of the lane, handles it and settles it. -/
  | process (lane : Lane) (config : WorkerConfig)
  /-- A worker claims a job and dies, before or after it handled the job. -/
  | abandon (lane : Lane) (config : WorkerConfig) (handled : Bool)
  | recover (lane : Lane) (config : WorkerConfig)
  | failCommits (count : Nat)
  /-- Time passes, and random delays are drawn anew. -/
  | wait (clock : Clock) (seed : Nat)

section Moves

variable (transaction : TransactionConfig) (queue : QueueConfig)

def worker (lane : Lane) (config : WorkerConfig) : Worker Session Lanes :=
  ⟨lane, Lanes.broker, (cascade transaction queue).handle, config⟩

def perform : Move → Action Session Lanes Unit
  | .push ids => discard <| (cascade transaction queue).push .changesetClosure ids
  | .process lane config => discard <| (worker transaction queue lane config).processNext
  | .abandon lane config handled => do
    if let some job ← Queue.request Lanes.broker (.claim lane config.lease) then
      if handled then
        discard <| (cascade transaction queue).handle job.payload
  | .recover lane config => discard <| (worker transaction queue lane config).recoverStalled
  | .failCommits count => .update fun w =>
    { w with store := { w.store with failingCommits := count } }
  | .wait clock seed => .update fun w => { w with clock := clock, seed := seed }

/-- The world after the moves, whether they fail or not. -/
def run (w : World Session Lanes) : List Move → World Session Lanes
  | [] => w
  | m :: rest => run ((perform transaction queue m).run w).2 rest

end Moves

section Handler

variable {transaction : TransactionConfig} {queue : QueueConfig} {db : Database} {l : Lanes}
  {clock : Clock} {w : World Session Lanes}

/-- The database `db` is committed. -/
abbrev Has (db : Database) (l : Lanes) (clock : Clock) (w : World Session Lanes) : Prop :=
  World.Standing (Session.Has db) l clock w

/-- The lanes after the owner of a closed file was pushed. -/
def notified (clock : Clock) (queue : QueueConfig) (l : Lanes) : Option SyncId → Lanes
  | none => l
  | some sync => l.pushed clock queue .syncClosure [Identifier.text sync]

theorem pushed_nil (clock : Clock) (queue : QueueConfig) (kind : JobKind) (l : Lanes) :
    l.pushed clock queue kind [] = l := by
  unfold Lanes.pushed Queue.formJobs
  exact l.set_get kind.lane

theorem push_ensures (kind : JobKind) (ids : List String) {F : Failure → World Session Lanes → Prop}
    (h : Has db l clock w) :
    (discard <| (cascade transaction queue).push kind ids).Ensures w
      (fun _ w' => Has db (l.pushed clock queue kind ids) clock w') F := by
  rw [ensures_discard]
  exact (Queue.push_ensures queue kind ids h).mono (fun _ _ h => h) fun _ _ h => h.elim

/-- Unless as many commits are to fail as the transaction has attempts, the changesets are closed. -/
theorem closeChangesets_counted {n : Nat} (ids : List ChangesetId) (correlationId : String)
    (h : World.Standing (Session.Awaits db n) l clock w) :
    ((cascade transaction queue).closeChangesets ids correlationId).Ensures w
      (fun r w' => r.fileIds = (db.markCompleted ids).2.findFiles ids [.inProgress] ∧
        Has (db.markCompleted ids).2
          (l.pushed clock queue .fileClosure
            (((db.markCompleted ids).2.findFiles ids [.inProgress]).map Identifier.text)) clock w')
      fun _ w' => transaction.retry.attempts ≤ n ∧ Has db l clock w' := by
  refine Engine.closeChangesets_of_transact (P := fun files w' =>
    files = (db.markCompleted ids).2.findFiles ids [.inProgress] ∧
      Has (db.markCompleted ids).2 l clock w') ?_ (fun _ _ _ _ h => h) ?_ ?_
  · refine (Session.run_counted (Q := fun files db' => db' = (db.markCompleted ids).2 ∧
      files = (db.markCompleted ids).2.findFiles ids [.inProgress]) (E := fun _ => False)
      (fun _ he => he.elim) (fun n w hw => ?_) _ h).mono ?_ fun _ _ h => h.imp_left (·.resolve_left id)
    · refine Session.query_bind hw rfl fun w₁ h₁ => ?_
      refine ensures_note_bind World.standing_blind h₁ fun w₂ h₂ => ?_
      refine (Session.query_views h₂ rfl).mono ?_ fun _ _ h => h.elim
      rintro files w₃ ⟨rfl, h₃⟩
      exact ⟨_, ⟨rfl, rfl⟩, h₃⟩
    · rintro files w' ⟨_, ⟨rfl, rfl⟩, hw'⟩
      exact ⟨rfl, hw'⟩
  · rintro w' ⟨hfiles, hw'⟩
    rw [← hfiles, List.map_nil, pushed_nil]
    exact ⟨rfl, hw'⟩
  · rintro files w' ⟨rfl, hw'⟩
    exact (Queue.push_ensures queue .fileClosure _ hw').mono (fun _ _ h => ⟨rfl, h⟩)
      fun _ _ h => h.elim

theorem closeChangesets_ensures (ids : List ChangesetId) (correlationId : String)
    (h : Has db l clock w) :
    ((cascade transaction queue).closeChangesets ids correlationId).Ensures w
      (fun _ w' => Has (db.markCompleted ids).2
        (l.pushed clock queue .fileClosure
          (((db.markCompleted ids).2.findFiles ids [.inProgress]).map Identifier.text)) clock w')
      fun _ w' => Has db l clock w' :=
  (closeChangesets_counted ids correlationId ⟨⟨h.1, rfl⟩, h.2⟩).mono (fun _ _ h => h.2)
    fun _ _ h => h.2

theorem closeFile_ensures (id : FileId) (correlationId : String) (h : Has db l clock w) :
    ((cascade transaction queue).closeFile id correlationId).Ensures w
      (fun _ w' => Has (db.tryCloseFile clock.wall id).2
        (notified clock queue l (db.tryCloseFile clock.wall id).1) clock w')
      fun _ w' => Has db l clock w' := by
  refine Engine.closeFile_of_transact (P := fun owner w' =>
    ∃ db', (owner, db') = db.tryCloseFile clock.wall id ∧ Has db' l clock w') ?_
    (fun _ _ _ _ h => h) (fun _ => World.standing_blind) ?_ ?_
  · refine Session.run_ensures (fun w hw => ?_) _ _ h
    refine (Session.query_ensures hw _).mono ?_ fun _ _ h => h
    rintro owner w' ⟨db', hdb', hw'⟩
    exact ⟨db', (Except.ok.inj hdb').symm, hw'⟩
  · rintro w' ⟨db', hdb', hw'⟩
    rw [← hdb']
    exact hw'
  · rintro sync w' ⟨db', hdb', hw'⟩
    rw [← hdb']
    exact (Queue.push_ensures queue .syncClosure _ hw').mono (fun _ _ h => h) fun _ _ h => h.elim

theorem closeSync_ensures (id : SyncId) (correlationId : String) (h : Has db l clock w) :
    ((cascade transaction queue).closeSync id correlationId).Ensures w
      (fun _ w' => Has (db.tryCloseSync clock.wall id).2 l clock w')
      fun _ w' => Has db l clock w' := by
  refine Engine.closeSync_of_transact (P := fun closed w' =>
    ∃ db', (closed, db') = db.tryCloseSync clock.wall id ∧ Has db' l clock w') ?_
    (fun _ _ _ _ h => h) (fun _ => World.standing_blind) ?_
  · refine Session.run_ensures (fun w hw => ?_) _ _ h
    refine (Session.query_ensures hw _).mono ?_ fun _ _ h => h
    rintro closed w' ⟨db', hdb', hw'⟩
    exact ⟨db', (Except.ok.inj hdb').symm, hw'⟩
  · rintro closed w' ⟨db', hdb', hw'⟩
    rw [← hdb']
    exact hw'

/-- What the handler makes of the database and the lanes when it succeeds. A job of the lanes of
files and of syncs has one member. -/
inductive Handled (clock : Clock) (queue : QueueConfig) (db : Database) (l : Lanes) (p : JobPayload) :
    Database → Lanes → Prop
  | changesets {ids : List ChangesetId} (hkind : p.kind = .changesetClosure)
      (hids : Engine.parseMembers p.memberIds = .ok ids) :
      Handled clock queue db l p (db.markCompleted ids).2
        (l.pushed clock queue .fileClosure
          (((db.markCompleted ids).2.findFiles ids [.inProgress]).map Identifier.text))
  | file {id : FileId} (hkind : p.kind = .fileClosure) (hid : Identifier.parse p.id = .ok id) :
      Handled clock queue db l p (db.tryCloseFile clock.wall id).2
        (notified clock queue l (db.tryCloseFile clock.wall id).1)
  | sync {id : SyncId} (hkind : p.kind = .syncClosure) (hid : Identifier.parse p.id = .ok id) :
      Handled clock queue db l p (db.tryCloseSync clock.wall id).2 l

/-- A job of the lanes of files and of syncs has one member. -/
def Single (p : JobPayload) : Prop := p.kind ≠ .changesetClosure → p.batchIds = none

theorem parseMembers_single {α : Type} [Identifier α] {p : JobPayload} (h : p.batchIds = none) :
    Engine.parseMembers (α := α) p.memberIds = (Identifier.parse p.id).map fun a => [a] := by
  unfold JobPayload.memberIds
  rw [h]
  change (do
    let a ← Identifier.parse p.id
    pure [a] : Except Failure (List α)) = _
  cases (Identifier.parse p.id : Except Failure α) <;> rfl

theorem handle_ensures (transaction : TransactionConfig) (queue : QueueConfig) {p : JobPayload}
    (hp : Single p) (h : Has db l clock w) :
    ((cascade transaction queue).handle p).Ensures w
      (fun _ w' => ∃ db' l', Handled clock queue db l p db' l' ∧ Has db' l' clock w')
      fun _ w' => Has db l clock w' := by
  unfold Engine.handle
  cases hkind : p.kind with
  | changesetClosure =>
    dsimp only
    rw [ensures_bind, ensures_ofExcept]
    cases hids : (Engine.parseMembers p.memberIds : Except Failure (List ChangesetId)) with
    | error e => exact h
    | ok ids =>
      dsimp only
      rw [ensures_bind]
      refine (closeChangesets_ensures ids p.id h).mono ?_ fun _ _ h => h
      exact fun _ w' hw' => ⟨_, _, .changesets hkind hids, hw'⟩
  | fileClosure =>
    dsimp only
    rw [ensures_bind, ensures_ofExcept, parseMembers_single (hp (by simp [hkind]))]
    cases hid : (Identifier.parse p.id : Except Failure FileId) with
    | error e => exact h
    | ok id =>
      simp only [Except.map, Engine.each]
      rw [ensures_bind, ensures_bind]
      refine (closeFile_ensures id p.id h).mono ?_ fun _ _ h => h
      exact fun _ w' hw' => ⟨_, _, .file hkind hid, hw'⟩
  | syncClosure =>
    dsimp only
    rw [ensures_bind, ensures_ofExcept, parseMembers_single (hp (by simp [hkind]))]
    cases hid : (Identifier.parse p.id : Except Failure SyncId) with
    | error e => exact h
    | ok id =>
      simp only [Except.map, Engine.each]
      rw [ensures_bind, ensures_bind]
      refine (closeSync_ensures id p.id h).mono ?_ fun _ _ h => h
      exact fun _ w' hw' => ⟨_, _, .sync hkind hid, hw'⟩

end Handler

def Claims (clock : Clock) (lane : Lane) (l : Lanes) (job : ClaimedJob) (l' : Lanes) : Prop :=
  ∃ lease, (l.apply clock (.claim lane lease)).1 = some job ∧
    (l.apply clock (.claim lane lease)).2 = l'

/-- One move makes these pushes and leads from `db` and `l` to another database and other lanes. -/
inductive Step (queue : QueueConfig) (db : Database) (l : Lanes) :
    (pushes : List (List String)) → Database → Lanes → Prop
  | stay : Step queue db l [] db l
  | push (clock : Clock) (ids : List String) :
      Step queue db l [ids] db (l.pushed clock queue .changesetClosure ids)
  | claim (clock : Clock) (lane : Lane) (lease : Timespan) :
      Step queue db l [] db (l.apply clock (.claim lane lease)).2
  | recover (clock : Clock) (lane : Lane) :
      Step queue db l [] db (l.apply clock (.recoverStalled lane)).2
  | abandon {clock : Clock} {lane : Lane} {job : ClaimedJob} {l₁ l' : Lanes} {db' : Database}
      (hclaim : Claims clock lane l job l₁)
      (h : Handled clock queue db l₁ job.payload db' l') : Step queue db l [] db' l'
  | complete {clock : Clock} {lane : Lane} {job : ClaimedJob} {l₁ l' : Lanes} {db' : Database}
      (hclaim : Claims clock lane l job l₁)
      (h : Handled clock queue db l₁ job.payload db' l') :
      Step queue db l [] db' (l'.apply clock (.complete lane job.payload.id job.token)).2
  | fail {clock : Clock} {lane : Lane} {job : ClaimedJob} {l₁ : Lanes}
      (hclaim : Claims clock lane l job l₁) (error : String) :
      Step queue db l [] db (l₁.apply clock (.fail lane job.payload.id job.token error)).2
  | retry {clock : Clock} {lane : Lane} {job : ClaimedJob} {l₁ : Lanes}
      (hclaim : Claims clock lane l job l₁) {payload : JobPayload}
      (hsame : job.payload.SameWork payload) (delay : Timespan) :
      Step queue db l [] db (l₁.apply clock (.retryLater lane payload job.token delay)).2

/-- The world stands where a step leads that makes these pushes. -/
def After (queue : QueueConfig) (db : Database) (l : Lanes) (pushes : List (List String))
    (w : World Session Lanes) : Prop :=
  ∃ db' l' clock, Step queue db l pushes db' l' ∧ Has db' l' clock w

def Move.pushes : Move → List (List String)
  | push ids => [ids]
  | _ => []

def formed (queue : QueueConfig) (pushes : List (List String)) : List JobPayload :=
  pushes.flatMap (Queue.formJobs (queue.lane .changesets) .changesetClosure)

section Steps

variable {transaction : TransactionConfig} {queue : QueueConfig} {db : Database} {l : Lanes}
  {clock : Clock} {w : World Session Lanes}

theorem After.blind {pushes : List (List String)} : World.Blind (After queue db l pushes) :=
  fun _ _ _ h => h

theorem processNext_ensures (hl : l.Carries fun _ => Single) (lane : Lane) (config : WorkerConfig)
    (h : Has db l clock w) :
    (worker transaction queue lane config).processNext.Ensures w
      (fun _ w' => After queue db l [] w') fun _ w' => After queue db l [] w' := by
  have hclaimed := h.told (.claim lane config.lease)
  refine Worker.processNext_rule rfl (fun _ => After.blind)
    (fun _ => ⟨_, _, _, .claim clock lane config.lease, hclaimed⟩) fun job journal metrics hreply => ?_
  rw [h.answer] at hreply
  have hclaim : Claims clock lane l job (l.apply clock (.claim lane config.lease)).2 :=
    ⟨config.lease, hreply, rfl⟩
  have hstart := World.standing_blind journal metrics hclaimed
  refine (handle_ensures transaction queue (Lanes.payload_of_claim hl hreply) hstart).mono ?_ ?_
  · rintro value w' ⟨db', l', hhandled, hw'⟩
    exact ⟨_, _, _, .complete hclaim hhandled, hw'.told _⟩
  · intro e w' hw'
    refine ⟨fun _ delay seed => ?_, fun _ => ⟨_, _, _, .fail hclaim e.message, hw'.told _⟩⟩
    have hsame : job.payload.SameWork
        { job.payload with transactionFailures := job.payload.transactionFailures + 1 } :=
      ⟨rfl, rfl, rfl⟩
    exact ⟨_, _, _, .retry hclaim hsame delay, (hw'.drawn seed).told _⟩

theorem recoverStalled_ensures (lane : Lane) (config : WorkerConfig) (h : Has db l clock w) :
    (worker transaction queue lane config).recoverStalled.Ensures w
      (fun _ w' => After queue db l [] w') fun _ w' => After queue db l [] w' :=
  Worker.recoverStalled_rule rfl After.blind ⟨_, _, _, .recover clock lane, h.told _⟩

/-- What is to be shown of a worker that dies: that it is ensured after the claim, and after the handling
of the claimed job. -/
theorem abandon_rule (lane : Lane) (config : WorkerConfig) (handled : Bool)
    {R : World Session Lanes → Prop} (hclaim : R (w.told (.claim lane config.lease)))
    (hjob : ∀ job, w.answer (.claim lane config.lease) = some job →
      ((cascade transaction queue).handle job.payload).Ensures (w.told (.claim lane config.lease))
        (fun _ w' => R w') fun _ w' => R w') :
    (perform transaction queue (.abandon lane config handled)).Ensures w (fun _ w' => R w')
      fun _ w' => R w' := by
  unfold perform
  refine Queue.request_rule ?_
  cases hreply : w.answer (.claim lane config.lease) with
  | none => exact hclaim
  | some job =>
    cases handled with
    | false => exact hclaim
    | true => exact ensures_discard.2 (hjob job hreply)

theorem abandon_ensures (hl : l.Carries fun _ => Single) (lane : Lane) (config : WorkerConfig)
    (handled : Bool) (h : Has db l clock w) :
    (perform transaction queue (.abandon lane config handled)).Ensures w
      (fun _ w' => After queue db l [] w') fun _ w' => After queue db l [] w' := by
  have hclaimed := h.told (.claim lane config.lease)
  have hunhandled : ∀ w', Has db _ clock w' → After queue db l [] w' := fun w' hw' =>
    ⟨_, _, _, .claim clock lane config.lease, hw'⟩
  refine abandon_rule lane config handled (hunhandled _ hclaimed) fun job hreply => ?_
  rw [h.answer] at hreply
  have hclaim : Claims clock lane l job (l.apply clock (.claim lane config.lease)).2 :=
    ⟨config.lease, hreply, rfl⟩
  refine (handle_ensures transaction queue (Lanes.payload_of_claim hl hreply) hclaimed).mono ?_
    fun _ w' hw' => hunhandled w' hw'
  rintro value w' ⟨db', l', hhandled, hw'⟩
  exact ⟨_, _, _, .abandon hclaim hhandled, hw'⟩

variable (transaction queue)

theorem perform_ensures (hl : l.Carries fun _ => Single) (m : Move) (h : Has db l clock w) :
    (perform transaction queue m).Ensures w (fun _ w' => After queue db l m.pushes w')
      fun _ w' => After queue db l m.pushes w' := by
  cases m with
  | push ids =>
    refine (push_ensures .changesetClosure ids h).mono ?_ fun _ _ h => h
    exact fun _ w' hw' => ⟨_, _, _, .push clock ids, hw'⟩
  | process lane config => exact ensures_discard.2 (processNext_ensures hl lane config h)
  | abandon lane config handled => exact abandon_ensures hl lane config handled h
  | recover lane config => exact ensures_discard.2 (recoverStalled_ensures lane config h)
  | failCommits count => exact ⟨_, _, _, .stay, h⟩
  | wait clock' seed => exact ⟨_, _, clock', .stay, h.1, h.2.1, rfl⟩

theorem run_preserves {I : List (List String) → Database → Lanes → Prop}
    (hsingle : ∀ before db l, I before db l → l.Carries fun _ => Single)
    (hstep : ∀ before pushes db l db' l', I before db l → Step queue db l pushes db' l' →
      I (before ++ pushes) db' l')
    (before : List (List String)) (hI : I before db l) (moves : List Move) (h : Has db l clock w) :
    ∃ db' l' clock', Has db' l' clock' (run transaction queue w moves) ∧
      I (before ++ moves.flatMap Move.pushes) db' l' := by
  induction moves generalizing w db l clock before with
  | nil =>
    rw [List.flatMap_nil, List.append_nil]
    exact ⟨db, l, clock, h, hI⟩
  | cons m rest ih =>
    have hafter : After queue db l m.pushes ((perform transaction queue m).run w).2 :=
      Ensures.outcome (P := fun _ => After queue db l m.pushes)
        (perform_ensures transaction queue (hsingle _ _ _ hI) m h)
    obtain ⟨db', l', clock', hs, hw'⟩ := hafter
    have hrest := ih _ (hstep _ _ _ _ _ _ hI hs) hw'
    rwa [List.append_assoc, ← List.flatMap_cons] at hrest

end Steps

end Cascade

end SyncCascade
