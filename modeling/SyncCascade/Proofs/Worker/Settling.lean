import SyncCascade.Proofs.Broker.History
import SyncCascade.Proofs.Broker.Lane
import SyncCascade.Proofs.Metrics
import SyncCascade.Proofs.Worker.Turn

/-!
# Settling the only job of a lane

A lane that holds one job and nothing else goes through few states: the job is pending, it is claimed,
or a record of it is left. Each way in which a worker settles the job leads from one of them to
another, and the metrics of the lane count it.
-/

namespace SyncCascade

theorem Table.erase_insert_empty {κ ρ : Type} [Key κ] (k : κ) (r : ρ) :
    ((Table.empty : Table κ ρ).insert k r).erase k = .empty := by
  apply Table.ext
  simp [erase, filter, insert, insertEntry, empty]

namespace LaneState

def sole (job : QueuedJob) (seq : Nat) : LaneState :=
  { empty with pending := Table.empty.insert job.payload.id job, seq := seq }

def held (job : QueuedJob) (token leaseUntil seq : Nat) : LaneState :=
  { empty with active := Table.empty.insert job.payload.id ⟨job, token, leaseUntil⟩, seq := seq }

/-- Only a record of what has ended. -/
def finished (failed : List FailedJob) (completed seq : Nat) : LaneState :=
  ⟨.empty, .empty, failed, completed, seq⟩

variable {job : QueuedJob} {now token leaseUntil seq : Nat}

theorem claim_sole (h : job.readyAt ≤ now) (lease : Timespan) :
    (sole job seq).claim now lease =
      (some ⟨job.payload, seq + 1, job.attemptsMade, job.maxAttempts⟩,
        held job (seq + 1) (now + lease.nanos) (seq + 1)) := by
  have hnext : (sole job seq).nextJob now = some job := by
    have hfree : (sole job seq).active.contains job.payload.id = false := rfl
    have hclaimable : (sole job seq).isClaimable now job = true := by
      simp [isClaimable, hfree, h]
    unfold nextJob
    change (List.filter _ [job]).foldl earlier none = some job
    rw [List.filter_cons_of_pos hclaimable]
    rfl
  unfold claim
  rw [hnext]
  simp only [sole, held, Table.erase_insert_empty]
  rfl

theorem takeActive_held :
    (held job token leaseUntil seq).takeActive job.payload.id token =
      some (⟨job, token, leaseUntil⟩, finished [] 0 seq) := by
  have hfind : (held job token leaseUntil seq).active.find? job.payload.id =
      some ⟨job, token, leaseUntil⟩ := by
    simp [held, Table.find?_insert]
  rw [takeActive_of_owns hfind rfl]
  simp only [unclaim, held, Table.erase_insert_empty]
  rfl

theorem complete_held :
    (held job token leaseUntil seq).complete job.payload.id token = (true, finished [] 1 seq) := by
  unfold complete
  rw [takeActive_held]
  rfl

theorem requeue_finished (job : QueuedJob) (delay : Timespan) :
    (finished [] 0 seq).requeue now job delay =
      (.retrying delay, sole { job with readyAt := now + delay.nanos, seq := seq + 1 } (seq + 1)) :=
  rfl

theorem retryLater_held {payload : JobPayload} (h : payload.id = job.payload.id) (delay : Timespan) :
    (held job token leaseUntil seq).retryLater now payload token delay =
      (.retrying delay,
        sole { job with payload := payload, readyAt := now + delay.nanos, seq := seq + 1 }
          (seq + 1)) := by
  unfold retryLater
  rw [h, takeActive_held]
  exact requeue_finished _ _

theorem fail_held_retrying (clock : Clock) (error : String)
    (h : job.attemptsMade + 1 < job.maxAttempts) :
    (held job token leaseUntil seq).fail clock job.payload.id token error =
      (.retrying job.backoff,
        sole { job with
          attemptsMade := job.attemptsMade + 1
          readyAt := clock.elapsed + job.backoff.nanos
          seq := seq + 1 } (seq + 1)) := by
  unfold fail
  rw [takeActive_held]
  dsimp only
  unfold consumeAttempt
  rw [if_pos h]
  exact requeue_finished _ _

theorem fail_held_failed (clock : Clock) (error : String)
    (h : ¬ job.attemptsMade + 1 < job.maxAttempts) :
    (held job token leaseUntil seq).fail clock job.payload.id token error =
      (.failed, finished [⟨job.payload, job.attemptsMade + 1, error, clock.wall⟩] 0 seq) := by
  unfold fail
  rw [takeActive_held]
  dsimp only
  unfold consumeAttempt
  rw [if_neg h]
  rfl

end LaneState

/-- How often the worker came to each end. -/
structure Tally where
  completed : Nat
  failed : Nat
  transactionFailures : Nat
  retries : Nat
deriving DecidableEq, Repr

def LaneMetrics.tally (m : LaneMetrics) : Tally :=
  ⟨m.completed, m.failed, m.transactionFailures, m.retries⟩

def Tally.add (t : Tally) : LaneMetrics.Sample → Tally
  | .completed _ => { t with completed := t.completed + 1 }
  | .failed _ => { t with failed := t.failed + 1 }
  | .transactionFailure _ => { t with transactionFailures := t.transactionFailures + 1 }
  | .retry => { t with retries := t.retries + 1 }
  | .stalled | .duplicate => t

theorem LaneMetrics.tally_record (m : LaneMetrics) (s : LaneMetrics.Sample) :
    (m.record s).tally = m.tally.add s := by
  cases s <;> rfl

/-- What the lane and its metrics show, and the payloads that the handler has seen. -/
def World.Shows (lane : Lane) (s : LaneState) (seen : List JobPayload) (t : Tally)
    (w : World (List JobPayload) Lanes) : Prop :=
  w.broker.get lane = s ∧ w.store = seen ∧ (w.metrics.lane lane.name).tally = t

namespace World.Shows

variable {lane : Lane} {s s' : LaneState} {seen : List JobPayload} {t : Tally}
  {w : World (List JobPayload) Lanes}

theorem apply {c : BrokerCall} {f : LaneState → c.Reply × LaneState} (h : w.Shows lane s seen t)
    (hc : w.broker.apply w.clock c = w.broker.step lane f) :
    w.answer c = (f s).1 ∧ World.Shows lane (f s).2 seen t (w.told c) := by
  obtain ⟨hlane, hseen, htally⟩ := h
  subst hlane
  unfold World.answer World.told
  rw [hc, Lanes.step_fst, Lanes.step_snd]
  exact ⟨rfl, Lanes.get_set_self _ _ _, hseen, htally⟩

theorem record (h : w.Shows lane s seen t) (sample : LaneMetrics.Sample) :
    World.Shows lane s seen (t.add sample)
      { w with metrics := w.metrics.record lane.name sample } := by
  obtain ⟨hlane, hseen, htally⟩ := h
  refine ⟨hlane, hseen, ?_⟩
  rw [Metrics.lane_record, LaneMetrics.tally_record, htally]

theorem handled (h : w.Shows lane s seen t) (payload : JobPayload) (clock : Clock)
    (journal : Array Notice) :
    World.Shows lane s (seen ++ [payload]) t
      { w with store := w.store ++ [payload], clock := clock, journal := journal } :=
  ⟨h.1, congrArg (· ++ [payload]) h.2.1, h.2.2⟩

end World.Shows

namespace Worker

open SyncCascade.Action LaneState

section Settling

variable {W : Worker (List JobPayload) Lanes} {w : World (List JobPayload) Lanes}
  {job : ClaimedJob} {q : QueuedJob} {leaseUntil seq : Nat} {seen : List JobPayload} {t : Tally}

theorem ensures_drawDelay {R : Timespan → World (List JobPayload) Lanes → Prop}
    {F : Failure → World (List JobPayload) Lanes → Prop}
    (h : ∀ delay seed, R delay { w with seed := seed }) : W.drawDelay.Ensures w R F := h _ _

variable (job)

theorem settleSuccess_shows (hB : W.broker = Lanes.broker) (hjob : job.payload = q.payload)
    (h : w.Shows W.lane (held q job.token leaseUntil seq) seen t) (value : Json)
    (duration : Timespan) :
    (W.settleSuccess job value duration).Ensures w
      (fun _ w' => w'.Shows W.lane (finished [] 1 seq) seen { t with completed := t.completed + 1 })
      fun _ _ => False := by
  obtain ⟨hreply, hshows⟩ := h.apply
    (c := .complete W.lane job.payload.id job.token)
    (f := fun s => s.complete job.payload.id job.token) rfl
  rw [hjob, complete_held] at hreply hshows
  unfold settleSuccess
  refine request_rule hB ?_
  rw [hjob, hreply]
  exact hshows.record (.completed duration)

theorem settleTransactionFailure_shows (hB : W.broker = Lanes.broker)
    (hjob : job.payload = q.payload)
    (h : w.Shows W.lane (held q job.token leaseUntil seq) seen t) (error : Failure)
    (duration : Timespan) :
    (W.settleTransactionFailure job error duration).Ensures w
      (fun _ w' => ∃ readyAt, w'.Shows W.lane
        (sole { q with
          payload := { q.payload with transactionFailures := q.payload.transactionFailures + 1 }
          readyAt := readyAt
          seq := seq + 1 } (seq + 1)) seen
        { t with transactionFailures := t.transactionFailures + 1, retries := t.retries + 1 })
      fun _ _ => False := by
  unfold settleTransactionFailure
  rw [hjob]
  generalize hpayload :
    { q.payload with transactionFailures := q.payload.transactionFailures + 1 } = payload
  have hid : payload.id = q.payload.id := by rw [← hpayload]
  refine ensures_bind.2 (ensures_drawDelay fun delay seed => ?_)
  have hseed : World.Shows W.lane (held q job.token leaseUntil seq) seen t { w with seed := seed } := h
  obtain ⟨-, hshows⟩ := hseed.apply
    (c := .retryLater W.lane payload job.token delay)
    (f := fun s => s.retryLater w.clock.elapsed payload job.token delay) rfl
  rw [retryLater_held hid] at hshows
  refine request_rule hB ?_
  exact ⟨_, (hshows.record (.transactionFailure duration)).record .retry⟩

theorem settleFailure_shows (hB : W.broker = Lanes.broker) (hjob : job.payload = q.payload)
    (h : w.Shows W.lane (held q job.token leaseUntil seq) seen t) (error : Failure)
    (duration : Timespan) :
    (W.settleFailure job error duration).Ensures w
      (fun _ w' =>
        (q.attemptsMade + 1 < q.maxAttempts → ∃ readyAt, w'.Shows W.lane
          (sole { q with attemptsMade := q.attemptsMade + 1, readyAt := readyAt, seq := seq + 1 }
            (seq + 1)) seen
          { t with failed := t.failed + 1, retries := t.retries + 1 }) ∧
        (¬ q.attemptsMade + 1 < q.maxAttempts → ∃ wall, w'.Shows W.lane
          (finished [⟨q.payload, q.attemptsMade + 1, error.message, wall⟩] 0 seq) seen
          { t with failed := t.failed + 1 }))
      fun _ _ => False := by
  obtain ⟨hreply, hshows⟩ := h.apply
    (c := .fail W.lane job.payload.id job.token error.message)
    (f := fun s => s.fail w.clock job.payload.id job.token error.message) rfl
  unfold settleFailure
  refine request_rule hB ?_
  rw [hreply]
  by_cases hleft : q.attemptsMade + 1 < q.maxAttempts
  · rw [hjob, fail_held_retrying _ _ hleft] at hshows ⊢
    exact ⟨fun _ => ⟨_, (hshows.record (.failed duration)).record .retry⟩, fun h => absurd hleft h⟩
  · rw [hjob, fail_held_failed _ _ hleft] at hshows ⊢
    exact ⟨fun h => absurd h hleft, fun _ => ⟨_, hshows.record (.failed duration)⟩⟩

end Settling

end Worker

end SyncCascade
