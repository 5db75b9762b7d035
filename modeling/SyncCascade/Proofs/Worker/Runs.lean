import SyncCascade.Proofs.Broker.History
import SyncCascade.Proofs.Broker.Reports
import SyncCascade.Proofs.Metrics
import SyncCascade.Proofs.Worker.Turn

/-!
# Runs of a lane

A run of a lane is any course of pushes, turns of workers and recoveries. A handler may make a run of its
own, so one delivery may be recovered, or its job be pushed and delivered anew, while it is being handled.
Every event of a run leaves its own samples in the metrics of the lane, and no others.
-/

namespace SyncCascade

namespace JobOutcome

def isCompleted : JobOutcome → Bool
  | completed .. => true
  | _ => false

open LaneMetrics in
/-- What a turn records that came to this outcome. -/
def samples (duration : Timespan) : JobOutcome → List Sample
  | idle => []
  | completed .. => [.completed duration]
  | leaseLost _ => []
  | transactionFailed .. => [.transactionFailure duration, .retry]
  | failed _ _ disposition => .failed duration :: if disposition.isRetrying then [.retry] else []

end JobOutcome

def StalledJob.samples (j : StalledJob) : List LaneMetrics.Sample :=
  .stalled :: if j.disposition.isRetrying then [.retry] else []

/-- What was told to those who used a lane. -/
inductive LaneEvent where
  | pushed (report : PushReport)
  /-- The outcome of a turn, and how long its handler took. -/
  | settled (outcome : JobOutcome) (duration : Timespan)
  | recovered (jobs : List StalledJob)

namespace LaneEvent

def outcome? : LaneEvent → Option (JobOutcome × Timespan)
  | settled outcome duration => some (outcome, duration)
  | _ => none

def samples : LaneEvent → List LaneMetrics.Sample
  | pushed report => report.deduplicated.map fun _ => .duplicate
  | settled outcome duration => outcome.samples duration
  | recovered jobs => jobs.flatMap StalledJob.samples

def outcomes (log : List LaneEvent) : List JobOutcome := (log.filterMap outcome?).map Prod.fst

end LaneEvent

namespace Worker

variable {σ : Type}

/-- The worker serves the lane in memory. -/
structure Serves (W : Worker σ Lanes) (lane : Lane) : Prop where
  lane_eq : W.lane = lane
  broker_eq : W.broker = Lanes.broker

/-- The world in which the handler of a claimed job starts. -/
def handed (W : Worker σ Lanes) (w : World σ Lanes) (job : ClaimedJob) : World σ Lanes :=
  let w := w.told W.claimCall
  { w with journal := w.journal.push (.jobClaimed W.lane job.payload.id job.attemptsMade) }

def handling (W : Worker σ Lanes) (w : World σ Lanes) (job : ClaimedJob) :
    Except Failure Json × World σ Lanes :=
  (W.handler job.payload).run (W.handed w job)

def settle (W : Worker σ Lanes) (job : ClaimedJob) (result : Except Failure Json)
    (duration : Timespan) : Action σ Lanes JobOutcome :=
  match result with
  | .ok value => W.settleSuccess job value duration
  | .error e =>
    if e.isTransaction then W.settleTransactionFailure job e duration
    else W.settleFailure job e duration

end Worker

/-- What can happen on a lane and be told of it, from one world to another. Whoever claims or settles a job
of the lane is a worker that records it in the metrics; all else in the world may change in any way. -/
inductive LaneRun {σ : Type} (lane : Lane) :
    World σ Lanes → List LaneEvent → World σ Lanes → Prop
  | nil (w : World σ Lanes) : LaneRun lane w [] w
  | append {w w' w'' log log'} (first : LaneRun lane w log w') (second : LaneRun lane w' log' w'') :
    LaneRun lane w (log ++ log') w''
  /-- Time passes, the store changes, other lanes are used. -/
  | elsewhere {w w'} (hlane : w'.broker.get lane = w.broker.get lane)
      (hmetrics : w'.metrics.lane lane.name = w.metrics.lane lane.name) : LaneRun lane w [] w'
  | push {w w' report} (config : QueueConfig) (kind : JobKind) (ids : List String)
      (hkind : kind.lane = lane)
      (hrun : (Queue.push Lanes.broker config kind ids).run w = (.ok report, w')) :
    LaneRun lane w [.pushed report] w'
  | recover {w w' jobs} (W : Worker σ Lanes) (hW : W.Serves lane)
      (hrun : W.recoverStalled.run w = (.ok jobs, w')) : LaneRun lane w [.recovered jobs] w'
  /-- A turn that finds no job. -/
  | idle {w w' outcome} (W : Worker σ Lanes) (hW : W.Serves lane)
      (hclaim : w.answer W.claimCall = none) (hrun : W.processNext.run w = (.ok outcome, w')) :
    LaneRun lane w [.settled outcome .zero] w'
  /-- A turn with a job, whose handler makes a run of its own. -/
  | turn {w w' job log outcome} (W : Worker σ Lanes) (hW : W.Serves lane)
      (hclaim : w.answer W.claimCall = some job)
      (handling : LaneRun lane (W.handed w job) log (W.handling w job).2)
      (hrun : W.processNext.run w = (.ok outcome, w')) :
    LaneRun lane w
      (log ++ [.settled outcome ⟨(W.handling w job).2.clock.elapsed - w.clock.elapsed⟩]) w'
  /-- The turns of several workers may overlap: this is the beginning of one. -/
  | claim {w} (W : Worker σ Lanes) (hW : W.Serves lane) : LaneRun lane w [] (w.told W.claimCall)
  /-- This is the end of one. -/
  | settle {w w' outcome} (W : Worker σ Lanes) (hW : W.Serves lane) (job : ClaimedJob)
      (result : Except Failure Json) (duration : Timespan)
      (hrun : (W.settle job result duration).run w = (.ok outcome, w')) :
    LaneRun lane w [.settled outcome duration] w'

def BrokerCall.completes (lane : Lane) : (c : BrokerCall) → c.Reply → Bool
  | complete lane' _ _, reply => decide (lane' = lane) && reply
  | _, _ => false

namespace LaneState

variable {s s' : LaneState}

theorem complete_completed (s : LaneState) (id : String) (token : Nat) :
    (s.complete id token).2.completed = s.completed + (s.complete id token).1.toNat := by
  rcases complete_cases s id token with ⟨-, heq⟩ | ⟨a, -, -, heq⟩
  · rw [heq]
    rfl
  · rw [heq]
    rfl

theorem Released.completed_eq {job : QueuedJob} {d : Disposition} (h : Released s job d s') :
    s'.completed = s.completed := by
  cases h <;> rfl

theorem Settled.completed_eq {id : String} {token : Nat} {update : JobPayload → JobPayload}
    {d : Disposition} (h : Settled s id token update d s') : s'.completed = s.completed := by
  cases h with
  | stale => rfl
  | released ha ht hjob hr => exact hr.completed_eq

theorem recoverJob_completed (s : LaneState) (clock : Clock) (id : String) :
    (recoverJob clock s id).2.completed = s.completed := by
  cases ha : s.active.find? id with
  | none => rw [recoverJob_of_not_active clock ha]
  | some a =>
    obtain ⟨d, s', heq, job, -, hr⟩ := recoverJob_of_active clock ha
    rw [heq]
    exact hr.completed_eq

theorem recoverAll_completed (s : LaneState) (clock : Clock) (ids : List String) :
    (recoverAll clock s ids).2.completed = s.completed :=
  recoverAll_preserves (I := fun s' => s'.completed = s.completed)
    (fun s' id h => (recoverJob_completed s' clock id).trans h) ids rfl

end LaneState

theorem Lanes.apply_completed (l : Lanes) (clock : Clock) (c : BrokerCall) (lane : Lane) :
    ((l.apply clock c).2.get lane).completed =
      (l.get lane).completed + (c.completes lane (l.apply clock c).1).toNat := by
  by_cases hlane : lane = c.lane
  · subst hlane
    cases c with
    | add lane job options delay =>
      simp only [apply, step_snd, BrokerCall.lane, get_set_self]
      unfold LaneState.add
      split <;> rfl
    | defer lane id delay =>
      simp only [apply, step_snd, BrokerCall.lane, get_set_self]
      unfold LaneState.defer
      split <;> rfl
    | claim lane lease =>
      simp only [apply, step_snd, BrokerCall.lane, get_set_self]
      unfold LaneState.claim
      split <;> rfl
    | complete lane id token =>
      simp only [apply, step_snd, step_fst, BrokerCall.lane, get_set_self, BrokerCall.completes,
        decide_true, Bool.true_and]
      exact LaneState.complete_completed ..
    | fail lane id token error =>
      simp only [apply, step_snd, BrokerCall.lane, get_set_self]
      exact (LaneState.fail_settled ..).completed_eq
    | retryLater lane payload token delay =>
      simp only [apply, step_snd, BrokerCall.lane, get_set_self]
      exact (LaneState.retryLater_settled ..).completed_eq
    | recoverStalled lane =>
      simp only [apply, step_snd, BrokerCall.lane, get_set_self]
      exact LaneState.recoverAll_completed ..
    | counts lane => rfl
    | failedJobs lane => rfl
  · have hother : c.completes lane (l.apply clock c).1 = false := by
      cases c <;> first | rfl | exact Bool.and_eq_false_imp.2 fun h => absurd (of_decide_eq_true h).symm hlane
    rw [apply_get_of_ne l clock hlane, hother]
    rfl

/-- What the metrics of the lane show, and how many jobs the lane has completed. -/
def World.Counted {σ : Type} (lane : Lane) (m : LaneMetrics) (n : Nat) (w : World σ Lanes) : Prop :=
  w.metrics.lane lane.name = m ∧ (w.broker.get lane).completed = n

namespace World.Counted

variable {σ : Type} {lane : Lane} {m : LaneMetrics} {n : Nat} {w : World σ Lanes}

theorem told (h : w.Counted lane m n) (c : BrokerCall) :
    (w.told c).Counted lane m (n + (c.completes lane (w.answer c)).toNat) :=
  ⟨h.1, (Lanes.apply_completed ..).trans (congrArg (· + _) h.2)⟩

theorem told_of_not (h : w.Counted lane m n) {c : BrokerCall}
    (hc : ∀ reply, c.completes lane reply = false) : (w.told c).Counted lane m n := by
  have htold := h.told c
  rwa [hc] at htold

theorem record (h : w.Counted lane m n) (sample : LaneMetrics.Sample) :
    World.Counted lane (m.record sample) n
      { w with metrics := w.metrics.record lane.name sample } :=
  ⟨(Metrics.lane_record ..).trans (congrArg (·.record sample) h.1), h.2⟩

end World.Counted

namespace Worker

open SyncCascade.Action

variable {σ : Type} {lane : Lane} {m : LaneMetrics} {n : Nat} {w : World σ Lanes}
  {W : Worker σ Lanes}

theorem settleSuccess_counted (hW : W.Serves lane) (h : w.Counted lane m n) (job : ClaimedJob)
    (value : Json) (duration : Timespan) :
    (W.settleSuccess job value duration).Ensures w
      (fun o w' => w'.Counted lane ((o.samples duration).foldl LaneMetrics.record m)
        (n + o.isCompleted.toNat)) fun _ _ => False := by
  obtain ⟨rfl, hB⟩ := hW
  have htold := h.told (W.completeCall job)
  unfold settleSuccess
  refine request_rule hB ?_
  cases hreply : w.answer (W.completeCall job) with
  | true =>
    rw [hreply, BrokerCall.completes, decide_eq_true rfl] at htold
    exact htold.record (.completed duration)
  | false =>
    rw [hreply, BrokerCall.completes, Bool.and_false] at htold
    exact htold

theorem settleTransactionFailure_counted (hW : W.Serves lane) (h : w.Counted lane m n)
    (job : ClaimedJob) (e : Failure) (duration : Timespan) :
    (W.settleTransactionFailure job e duration).Ensures w
      (fun o w' => w'.Counted lane ((o.samples duration).foldl LaneMetrics.record m)
        (n + o.isCompleted.toNat)) fun _ _ => False := by
  obtain ⟨rfl, hB⟩ := hW
  unfold settleTransactionFailure drawDelay
  refine ensures_bind.2 (ensures_bind.2 (ensures_bind.2 (ensures_bind.1 ?_)))
  refine request_rule hB ?_
  have hdrawn (seed : Nat) : (w.drawn seed).Counted W.lane m n := h
  have htold (seed : Nat) (delay : Timespan) :
      ((w.drawn seed).told (W.retryCall job delay)).Counted W.lane m n :=
    (hdrawn seed).told_of_not fun _ => rfl
  exact ((htold _ _).record (.transactionFailure duration)).record .retry

theorem settleFailure_counted (hW : W.Serves lane) (h : w.Counted lane m n) (job : ClaimedJob)
    (e : Failure) (duration : Timespan) :
    (W.settleFailure job e duration).Ensures w
      (fun o w' => w'.Counted lane ((o.samples duration).foldl LaneMetrics.record m)
        (n + o.isCompleted.toNat)) fun _ _ => False := by
  obtain ⟨rfl, hB⟩ := hW
  have htold := h.told_of_not (c := W.failCall job e) fun _ => rfl
  have hfailed := htold.record (.failed duration)
  unfold settleFailure
  refine request_rule hB (ensures_bind.2 ?_)
  generalize w.answer (W.failCall job e) = disposition
  cases disposition with
  | retrying delay => exact hfailed.record .retry
  | superseded => exact hfailed
  | failed => exact hfailed

theorem settle_counted (hW : W.Serves lane) (h : w.Counted lane m n) (job : ClaimedJob)
    (result : Except Failure Json) (duration : Timespan) :
    (W.settle job result duration).Ensures w
      (fun o w' => w'.Counted lane ((o.samples duration).foldl LaneMetrics.record m)
        (n + o.isCompleted.toNat)) fun _ _ => False := by
  unfold settle
  cases result with
  | ok value => exact settleSuccess_counted hW h job value duration
  | error e =>
    dsimp only
    split
    · exact settleTransactionFailure_counted hW h job e duration
    · exact settleFailure_counted hW h job e duration

theorem reportStalled_counted (hlane : W.lane = lane) (jobs : List StalledJob)
    (h : w.Counted lane m n) :
    (W.reportStalled jobs).Ensures w
      (fun _ w' => w'.Counted lane ((jobs.flatMap StalledJob.samples).foldl LaneMetrics.record m) n)
      fun _ _ => False := by
  subst hlane
  induction jobs generalizing w m with
  | nil => exact h
  | cons job rest ih =>
    obtain ⟨payload, disposition⟩ := job
    have hstalled := h.record .stalled
    unfold Worker.reportStalled
    refine ensures_bind.2 ?_
    rw [List.flatMap_cons, List.foldl_append]
    cases disposition with
    | retrying delay => exact ih (hstalled.record .retry)
    | superseded => exact ih hstalled
    | failed => exact ih hstalled

theorem recoverStalled_counted (hW : W.Serves lane) (h : w.Counted lane m n) :
    W.recoverStalled.Ensures w
      (fun jobs w' => w'.Counted lane ((LaneEvent.recovered jobs).samples.foldl LaneMetrics.record m) n)
      fun _ _ => False := by
  unfold recoverStalled
  refine request_rule hW.broker_eq (ensures_bind.2 ?_)
  exact reportStalled_counted hW.lane_eq _ (h.told_of_not fun _ => rfl)

theorem processNext_run_of_idle (hB : W.broker = Lanes.broker) (hclaim : w.answer W.claimCall = none) :
    W.processNext.run w = (.ok .idle, w.told W.claimCall) := by
  have hrequest : (Queue.request Lanes.broker W.claimCall).run w =
      (.ok (w.answer W.claimCall), w.told W.claimCall) := rfl
  unfold processNext request
  rw [hB, run_bind, hrequest, hclaim]
  rfl

/-- A turn with a job is the claim, the handler and the end of the turn. -/
theorem processNext_run (hB : W.broker = Lanes.broker) {job : ClaimedJob}
    (hclaim : w.answer W.claimCall = some job) :
    W.processNext.run w =
      (W.settle job (W.handling w job).1
        ⟨(W.handling w job).2.clock.elapsed - w.clock.elapsed⟩).run (W.handling w job).2 := by
  have hrequest : (Queue.request Lanes.broker W.claimCall).run w =
      (.ok (w.answer W.claimCall), w.told W.claimCall) := rfl
  unfold processNext request
  rw [hB, run_bind, hrequest, hclaim]
  rfl

end Worker

namespace Queue

open SyncCascade.Action

variable {σ : Type} {lane : Lane} {m : LaneMetrics} {n : Nat} {w : World σ Lanes}

theorem enqueue_counted (options : LaneOptions) (job : JobPayload) (rounds : Nat)
    (h : w.Counted lane m n) :
    (enqueue Lanes.broker options lane job rounds).Ensures w
      (fun new w' => w'.Counted lane
        ((LaneEvent.pushed (.single new job.id)).samples.foldl LaneMetrics.record m) n)
      fun _ _ => True := by
  induction rounds generalizing w with
  | zero => trivial
  | succ rounds ih =>
    have hadd := h.told_of_not (c := .add lane job options .zero) fun _ => rfl
    unfold enqueue
    refine request_rule ?_
    cases w.answer (.add lane job options .zero) with
    | added => exact hadd
    | «exists» =>
      have hdefer := hadd.told_of_not (c := .defer lane job.id options.dedupDelay) fun _ => rfl
      refine request_rule ?_
      cases (w.told (.add lane job options .zero)).answer (.defer lane job.id options.dedupDelay) with
      | deferred n => exact hdefer.record .duplicate
      | missing => exact ih hdefer

theorem publish_counted (options : LaneOptions) (report : PushReport) (jobs : List JobPayload)
    (h : w.Counted lane m n) :
    (publish Lanes.broker options lane report jobs).Ensures w
      (fun all w' => ∃ more, all = report ++ more ∧
        w'.Counted lane ((LaneEvent.pushed more).samples.foldl LaneMetrics.record m) n)
      fun _ _ => True := by
  induction jobs generalizing w m report with
  | nil => exact ⟨.empty, (PushReport.append_empty report).symm, h⟩
  | cons job rest ih =>
    rw [publish_cons, ensures_bind]
    refine (enqueue_counted options job _ h).mono (fun new w₁ h₁ => ?_) fun _ _ _ => trivial
    refine (ih _ h₁).mono ?_ fun _ _ _ => trivial
    rintro _ w' ⟨more, rfl, h'⟩
    refine ⟨.single new job.id ++ more, PushReport.append_assoc .., ?_⟩
    rwa [LaneEvent.samples, PushReport.deduplicated_append, List.map_append, List.foldl_append]

theorem push_counted (config : QueueConfig) (kind : JobKind) (ids : List String)
    (h : w.Counted kind.lane m n) :
    (push Lanes.broker config kind ids).Ensures w
      (fun report w' => w'.Counted kind.lane
        ((LaneEvent.pushed report).samples.foldl LaneMetrics.record m) n)
      fun _ _ => True := by
  refine ((publish_counted _ .empty _ h).mono ?_ fun _ _ _ => trivial).announcing fun _ _ _ _ _ => trivial
  rintro _ w' ⟨more, rfl, h'⟩
  exact h'

end Queue

namespace LaneEvent

def allSamples (log : List LaneEvent) : List LaneMetrics.Sample := log.flatMap samples

def completions (log : List LaneEvent) : Nat := (outcomes log).countP JobOutcome.isCompleted

theorem allSamples_append (log log' : List LaneEvent) :
    allSamples (log ++ log') = allSamples log ++ allSamples log' := List.flatMap_append

theorem allSamples_singleton (e : LaneEvent) : allSamples [e] = e.samples := List.flatMap_singleton ..

theorem completions_append (log log' : List LaneEvent) :
    completions (log ++ log') = completions log + completions log' := by
  unfold completions outcomes
  rw [List.filterMap_append, List.map_append, List.countP_append]

theorem completions_settled (o : JobOutcome) (duration : Timespan) :
    completions [.settled o duration] = o.isCompleted.toNat := by
  change List.countP JobOutcome.isCompleted [o] = _
  rw [List.countP_singleton]
  cases o.isCompleted <;> rfl

end LaneEvent

namespace LaneRun

variable {σ : Type} {lane : Lane} {m : LaneMetrics} {n : Nat} {w w' : World σ Lanes} {log : List LaneEvent}

open LaneEvent in
/-- A run leaves the samples of its events in the metrics of the lane, and nothing else, and the lane has
completed one more job for every outcome that says so. -/
theorem counted (run : LaneRun lane w log w') (h : w.Counted lane m n) :
    w'.Counted lane ((allSamples log).foldl LaneMetrics.record m) (n + completions log) := by
  induction run generalizing m n with
  | nil => exact h
  | append first second ih ih' =>
    rw [allSamples_append, List.foldl_append, completions_append, ← Nat.add_assoc]
    exact ih' (ih h)
  | elsewhere hlane hmetrics =>
    exact ⟨hmetrics.trans h.1, (congrArg LaneState.completed hlane).trans h.2⟩
  | push config kind ids hkind hrun =>
    subst hkind
    rw [allSamples_singleton]
    exact (Queue.push_counted config kind ids h).of_run hrun
  | recover W hW hrun =>
    rw [allSamples_singleton]
    exact (Worker.recoverStalled_counted hW h).of_run hrun
  | idle W hW hclaim hrun =>
    rw [Worker.processNext_run_of_idle hW.broker_eq hclaim] at hrun
    cases hrun
    exact h.told_of_not fun _ => rfl
  | turn W hW hclaim handling hrun ih =>
    -- The events of the handler come after the claim, which counts nothing, and before the settlement.
    have hhanded := ih (h.told_of_not (c := W.claimCall) fun _ => rfl)
    rw [Worker.processNext_run hW.broker_eq hclaim] at hrun
    rw [allSamples_append, List.foldl_append, completions_append, ← Nat.add_assoc,
      allSamples_singleton, completions_settled]
    exact (Worker.settle_counted hW hhanded ..).of_run hrun
  | claim W hW => exact h.told_of_not fun _ => rfl
  | settle W hW job result duration hrun =>
    rw [allSamples_singleton, completions_settled]
    exact (Worker.settle_counted hW h job result duration).of_run hrun

end LaneRun

end SyncCascade
