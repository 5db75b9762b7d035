import SyncCascade.Proofs.Histogram
import SyncCascade.Proofs.Worker.Runs

/-!
# The accounts of a lane

What the metrics of a lane show after a run, told from what the run told those who used the lane. They are
kept apart from the broker and from each other, and agree.
-/

namespace SyncCascade

namespace JobOutcome

def isFailed : JobOutcome → Bool
  | failed .. => true
  | _ => false

def isTransactionFailed : JobOutcome → Bool
  | transactionFailed .. => true
  | _ => false

/-- The job was handed back for another delivery. -/
def isRetrying : JobOutcome → Bool
  | transactionFailed _ _ disposition => disposition.isRetrying
  | failed _ _ disposition => disposition.isRetrying
  | _ => false

/-- A transaction failure whose job was not handed back. -/
def isDropped : JobOutcome → Bool
  | transactionFailed _ _ disposition => !disposition.isRetrying
  | _ => false

def isTimed (o : JobOutcome) : Bool := o.isCompleted || o.isFailed || o.isTransactionFailed

end JobOutcome

namespace LaneEvent

def stalled : LaneEvent → List StalledJob
  | recovered jobs => jobs
  | _ => []

def deduplicated : LaneEvent → List String
  | pushed report => report.deduplicated
  | _ => []

def reports (log : List LaneEvent) : List StalledJob := log.flatMap stalled

/-- The jobs that the pushes report as coalesced. -/
def duplicates (log : List LaneEvent) : List String := log.flatMap deduplicated

def durations (log : List LaneEvent) : List Timespan :=
  ((log.filterMap outcome?).filter fun e => e.1.isTimed).map Prod.snd

/-- How often a job was handed back for another delivery. -/
def redeliveries (log : List LaneEvent) : Nat :=
  (outcomes log).countP JobOutcome.isRetrying + (reports log).countP fun j => j.disposition.isRetrying

theorem foldl_duplicates (m : LaneMetrics) (ids : List String) :
    (ids.map fun _ => LaneMetrics.Sample.duplicate).foldl LaneMetrics.record m =
      { m with duplicates := m.duplicates + ids.length } := by
  induction ids generalizing m with
  | nil => rfl
  | cons id rest ih =>
    rw [List.map_cons, List.foldl_cons, ih, List.length_cons]
    simp only [LaneMetrics.record, Nat.add_assoc, Nat.add_comm 1]

theorem foldl_outcome (m : LaneMetrics) (o : JobOutcome) (duration : Timespan) :
    (o.samples duration).foldl LaneMetrics.record m =
      { m with
        completed := m.completed + if o.isCompleted then 1 else 0
        failed := m.failed + if o.isFailed then 1 else 0
        transactionFailures := m.transactionFailures + if o.isTransactionFailed then 1 else 0
        retries := m.retries + ((if o.isRetrying then 1 else 0) + if o.isDropped then 1 else 0)
        processing := (if o.isTimed then [duration] else []).foldl Histogram.observe m.processing } := by
  cases o with
  | idle => rfl
  | completed => rfl
  | leaseLost => rfl
  | transactionFailed job delay disposition => cases disposition <;> rfl
  | failed job error disposition => cases disposition <;> rfl

theorem foldl_stalled (m : LaneMetrics) (jobs : List StalledJob) :
    (jobs.flatMap StalledJob.samples).foldl LaneMetrics.record m =
      { m with
        stalled := m.stalled + jobs.length
        retries := m.retries + jobs.countP fun j => j.disposition.isRetrying } := by
  induction jobs generalizing m with
  | nil => rfl
  | cons job rest ih =>
    rw [List.flatMap_cons, List.foldl_append, ih, List.length_cons, List.countP_cons]
    unfold StalledJob.samples
    split <;> simp_all [LaneMetrics.record, Nat.add_assoc, Nat.add_comm 1]

section Cons

variable (e : LaneEvent) (log : List LaneEvent)

theorem allSamples_cons : allSamples (e :: log) = e.samples ++ allSamples log := List.flatMap_cons

theorem reports_cons : reports (e :: log) = e.stalled ++ reports log := List.flatMap_cons

theorem duplicates_cons : duplicates (e :: log) = e.deduplicated ++ duplicates log :=
  List.flatMap_cons

theorem outcomes_cons : outcomes (e :: log) = e.outcome?.toList.map Prod.fst ++ outcomes log := by
  cases e <;> rfl

theorem durations_cons : durations (e :: log) =
    (e.outcome?.toList.filter fun o => o.1.isTimed).map Prod.snd ++ durations log := by
  rw [durations, List.filterMap_cons]
  cases e.outcome? with
  | none => rfl
  | some o =>
    rw [Option.toList_some, List.filter_cons, List.filter_cons]
    split <;> rfl

end Cons

/-- What the metrics show after the samples of a log, told from the log. -/
theorem foldl_allSamples (m : LaneMetrics) (log : List LaneEvent) :
    (allSamples log).foldl LaneMetrics.record m =
      { completed := m.completed + (outcomes log).countP JobOutcome.isCompleted
        failed := m.failed + (outcomes log).countP JobOutcome.isFailed
        stalled := m.stalled + (reports log).length
        transactionFailures := m.transactionFailures + (outcomes log).countP JobOutcome.isTransactionFailed
        retries := m.retries + (redeliveries log + (outcomes log).countP JobOutcome.isDropped)
        duplicates := m.duplicates + (duplicates log).length
        processing := (durations log).foldl Histogram.observe m.processing } := by
  induction log generalizing m with
  | nil => rfl
  | cons e rest ih =>
    rw [allSamples_cons, List.foldl_append, ih, redeliveries, redeliveries, outcomes_cons, reports_cons,
      duplicates_cons, durations_cons]
    cases e with
    | pushed report =>
      rw [samples, foldl_duplicates]
      simp [outcome?, stalled, deduplicated, Nat.add_assoc]
    | recovered jobs =>
      rw [samples, foldl_stalled]
      simp [outcome?, stalled, deduplicated]
      omega
    | settled o duration =>
      rw [samples, foldl_outcome]
      simp only [outcome?, stalled, deduplicated, Option.toList_some, List.map_cons, List.map_nil,
        List.singleton_append, List.nil_append, List.countP_cons, List.filter_cons, List.filter_nil,
        List.foldl_append, LaneMetrics.mk.injEq, true_and]
      refine ⟨by omega, by omega, by omega, by omega, ?_⟩
      split <;> rfl

theorem length_durations (log : List LaneEvent) :
    (durations log).length = (outcomes log).countP JobOutcome.isCompleted +
      (outcomes log).countP JobOutcome.isFailed + (outcomes log).countP JobOutcome.isTransactionFailed := by
  induction log with
  | nil => rfl
  | cons e rest ih =>
    rw [durations_cons, outcomes_cons, List.length_append, ih]
    cases e with
    | pushed => exact Nat.zero_add _
    | recovered => exact Nat.zero_add _
    | settled o duration =>
      have hone : (([(o, duration)].filter fun o => o.1.isTimed).map Prod.snd).length =
          (if o.isCompleted then 1 else 0) + (if o.isFailed then 1 else 0) +
            if o.isTransactionFailed then 1 else 0 := by
        cases o <;> rfl
      simp only [outcome?, Option.toList_some, List.map_cons, List.map_nil, List.singleton_append,
        List.countP_cons, hone]
      omega

end LaneEvent

namespace LaneRun

variable {σ : Type} {lane : Lane} {store : σ} {lanes : Lanes} {clock : Clock} {journal : Array Notice}
  {seed : Nat} {log : List LaneEvent} {w : World σ Lanes}

open LaneEvent

theorem metrics_eq (run : LaneRun lane ⟨store, lanes, .empty, clock, journal, seed⟩ log w) :
    w.metrics.lane lane.name =
      { completed := (outcomes log).countP JobOutcome.isCompleted
        failed := (outcomes log).countP JobOutcome.isFailed
        stalled := (reports log).length
        transactionFailures := (outcomes log).countP JobOutcome.isTransactionFailed
        retries := redeliveries log + (outcomes log).countP JobOutcome.isDropped
        duplicates := (duplicates log).length
        processing := (durations log).foldl Histogram.observe .empty } := by
  obtain ⟨hmetrics, -⟩ := run.counted ⟨rfl, rfl⟩
  rw [hmetrics, foldl_allSamples]
  change LaneMetrics.mk (0 + _) (0 + _) (0 + _) (0 + _) (0 + _) (0 + _) _ = _
  simp only [Nat.zero_add]
  rfl

theorem completed_eq (run : LaneRun lane ⟨store, .empty, .empty, clock, journal, seed⟩ log w) :
    (w.broker.get lane).completed = (outcomes log).countP JobOutcome.isCompleted := by
  have hzero : (Lanes.empty.get lane).completed = 0 := by
    rw [Lanes.get_empty]
    rfl
  obtain ⟨-, hcompleted⟩ := run.counted ⟨rfl, hzero⟩
  exact hcompleted.trans (Nat.zero_add _)

/-- After any run of a lane on which nothing had happened, its metrics agree with the broker, with what was
told to those who used it, and with themselves. Every handled job that was completed or failed is in the
histogram, in the bucket that covers the time it took, as long as its milliseconds fit into 64 bits. -/
theorem metrics_agree (run : LaneRun lane ⟨store, .empty, .empty, clock, journal, seed⟩ log w) :
    let m := w.metrics.lane lane.name
    let h := m.processing
    (m.completed = ((w.broker.get lane).counts w.clock.elapsed).completed ∧
      m.completed = (outcomes log).countP JobOutcome.isCompleted) ∧
    m.failed = (outcomes log).countP JobOutcome.isFailed ∧
    m.transactionFailures = (outcomes log).countP JobOutcome.isTransactionFailed ∧
    m.stalled = (reports log).length ∧
    m.duplicates = (duplicates log).length ∧
    (h.count = m.completed + m.failed + m.transactionFailures ∧
      h.count = h.buckets.sum ∧ h.buckets.length = Histogram.bounds.length + 1) ∧
    ((∀ d ∈ durations log, d.wholeMillis < Word.limit 64) → ∀ i, i < h.buckets.length →
      h.buckets[i]? = some ((durations log).countP fun d => Histogram.covers i d.wholeMillis)) := by
  intro m h
  have hm : m = _ := run.metrics_eq
  have hh : h = (durations log).foldl Histogram.observe .empty := congrArg LaneMetrics.processing hm
  have hsound : h.Sound := hh ▸ Histogram.sound_empty.observeAll _
  have hcount : h.count = (durations log).length := by
    rw [hh, Histogram.count_observeAll]
    exact Nat.zero_add _
  refine ⟨⟨?_, ?_⟩, ?_, ?_, ?_, ?_, ⟨?_, hsound.total.symm, hsound.size⟩, fun hsmall i hi => ?_⟩
  · rw [hm]
    exact run.completed_eq.symm
  · rw [hm]
  · rw [hm]
  · rw [hm]
  · rw [hm]
  · rw [hm]
  · rw [hcount, hm]
    exact length_durations log
  · rw [hsound.size] at hi
    rw [hh]
    exact Histogram.getElem?_observeAll_empty (Nat.le_of_lt_succ hi) hsmall

def brisk : Worker Unit Lanes where
  lane := .files
  broker := Lanes.broker
  handler _ := .ofFunction fun w => (.ok .null, { w with clock := w.clock.advance (.ofMillis 20) })
  config := .default

def offered : World Unit Lanes :=
  ((Queue.push Lanes.broker .default .fileClosure ["f1"]).run (.initial () .empty)).2

def reoffered : World Unit Lanes :=
  ((Queue.push Lanes.broker .default .fileClosure ["f1"]).run offered).2

def due : World Unit Lanes := { reoffered with clock := reoffered.clock.advance (.ofSeconds 1) }

theorem brisk_run : LaneRun .files (.initial () .empty)
    [.pushed ⟨["f1"], []⟩, .pushed ⟨[], ["f1"]⟩, .settled (.completed "f1" .null) (.ofMillis 20)]
    (brisk.processNext.run due).2 := by
  have hfirst : (Queue.push Lanes.broker .default .fileClosure ["f1"]).run (.initial () .empty) =
      (.ok ⟨["f1"], []⟩, offered) := Prod.ext (by decide +kernel) rfl
  have hsecond : (Queue.push Lanes.broker .default .fileClosure ["f1"]).run offered =
      (.ok ⟨[], ["f1"]⟩, reoffered) := Prod.ext (by decide +kernel) rfl
  have hclaim : due.answer brisk.claimCall =
      some ⟨{ JobPayload.single .fileClosure "f1" with dedupCount := 1 }, 2, 0, 3⟩ := by decide +kernel
  have hturn : brisk.processNext.run due =
      (.ok (.completed "f1" .null), (brisk.processNext.run due).2) := Prod.ext (by decide +kernel) rfl
  have wait : LaneRun .files reoffered [] due := .elsewhere rfl rfl
  exact .append (.push _ _ _ rfl hfirst) (.append (.push _ _ _ rfl hsecond)
    (.append wait (.turn brisk ⟨rfl, rfl⟩ hclaim (.elsewhere rfl rfl) hturn)))

theorem metrics_agree_brisk :
    let m := (brisk.processNext.run due).2.metrics.lane "files"
    m.completed = 1 ∧ m.duplicates = 1 ∧ m.processing.buckets[1]? = some 1 := by
  intro m
  obtain ⟨⟨-, hcompleted⟩, -, -, -, hduplicates, ⟨-, -, hsize⟩, hbuckets⟩ := metrics_agree brisk_run
  have hsecond : 1 < m.processing.buckets.length := hsize.symm ▸ by decide
  exact ⟨hcompleted, hduplicates, hbuckets (by decide) 1 hsecond⟩

/-- The retries that are counted are the jobs that were handed back for another delivery, and the
transaction failures whose job was not: there a newer job is pending, or the claim was lost. -/
theorem retries_counted (run : LaneRun lane ⟨store, lanes, .empty, clock, journal, seed⟩ log w) :
    let retries := (w.metrics.lane lane.name).retries
    retries = redeliveries log + (outcomes log).countP JobOutcome.isDropped ∧
      (retries = redeliveries log ↔
        ∀ o ∈ outcomes log, o.isTransactionFailed = true → o.isRetrying = true) := by
  intro retries
  have hretries : retries = redeliveries log + (outcomes log).countP JobOutcome.isDropped :=
    congrArg LaneMetrics.retries run.metrics_eq
  have hdropped (o : JobOutcome) :
      o.isDropped = false ↔ (o.isTransactionFailed = true → o.isRetrying = true) := by
    cases o <;> simp [JobOutcome.isDropped, JobOutcome.isTransactionFailed, JobOutcome.isRetrying]
  refine ⟨hretries, ?_⟩
  rw [hretries, Nat.add_eq_left, List.countP_eq_zero]
  exact forall₂_congr fun o _ => by rw [Bool.not_eq_true, hdropped]

/-- Offers its job anew and then fails to commit. -/
def restless : Worker Unit Lanes where
  lane := .files
  broker := Lanes.broker
  handler job := do
    let _ ← Queue.push Lanes.broker .default .fileClosure [job.id]
    .fail (.transaction "busy")
  config := .default

/-- What the worker tells of the file: while it was handled, it was offered again. -/
def restlessLog : List LaneEvent :=
  [.pushed ⟨["f1"], []⟩, .pushed ⟨["f1"], []⟩,
    .settled (.transactionFailed "f1" (.ofMillis 500) .superseded) .zero]

theorem restless_run :
    LaneRun .files (.initial () .empty) restlessLog (restless.processNext.run offered).2 := by
  have hpush : (Queue.push Lanes.broker .default .fileClosure ["f1"]).run (.initial () .empty) =
      (.ok ⟨["f1"], []⟩, offered) := Prod.ext (by decide +kernel) rfl
  have hclaim : offered.answer restless.claimCall = some ⟨.single .fileClosure "f1", 2, 0, 3⟩ := by
    decide +kernel
  have hagain : (Queue.push Lanes.broker .default .fileClosure ["f1"]).run
      (restless.handed offered ⟨.single .fileClosure "f1", 2, 0, 3⟩) =
        (.ok ⟨["f1"], []⟩, (restless.handling offered ⟨.single .fileClosure "f1", 2, 0, 3⟩).2) :=
    Prod.ext (by decide +kernel) rfl
  have hturn : restless.processNext.run offered =
      (.ok (.transactionFailed "f1" (.ofMillis 500) .superseded), (restless.processNext.run offered).2) :=
    Prod.ext (by decide +kernel) rfl
  exact .append (.push _ _ _ rfl hpush)
    (.turn restless ⟨rfl, rfl⟩ hclaim (.push _ _ _ rfl hagain) hturn)

theorem retries_counted_restless :
    ((restless.processNext.run offered).2.metrics.lane "files").retries = 1 :=
  (retries_counted restless_run).1

/-- No job was handed back, and yet a retry is counted. -/
theorem superseded_counted_as_retry :
    LaneRun .files (.initial () .empty) restlessLog (restless.processNext.run offered).2 ∧
      redeliveries restlessLog = 0 ∧
      ((restless.processNext.run offered).2.metrics.lane "files").retries ≠ redeliveries restlessLog := by
  refine ⟨restless_run, by decide, ?_⟩
  rw [show redeliveries restlessLog = 0 by decide]
  decide +kernel

end LaneRun

end SyncCascade
