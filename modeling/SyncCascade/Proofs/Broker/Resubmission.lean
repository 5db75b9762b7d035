import Mathlib.Tactic.Tauto
import SyncCascade.Proofs.Broker.Publish
import SyncCascade.Proofs.Broker.Waiting
import SyncCascade.Proofs.Partition

/-!
# Pushing the same targets again

A push makes jobs of its targets, and nothing of it is new where these jobs are pending already. They
stay pending until they are claimed, so the same targets can be pushed again in any order and with any
repetitions. One case stands apart: whether a push makes a batch is decided by the length of its list,
so a single target and the same target twice do not make the same job.
-/

namespace SyncCascade

namespace Queue

open SyncCascade.Action

variable {σ : Type} {w : World σ Lanes} {config : QueueConfig} {kind : JobKind} {ids ids' : List String}

theorem push_pending (w : World σ Lanes) (config : QueueConfig) (kind : JobKind) (ids : List String) :
    (push Lanes.broker config kind ids).Ensures w
      (fun _ w' => ∀ job ∈ formJobs (config.lane kind.lane) kind ids,
        (w'.broker.get kind.lane).pending.contains job.id = true)
      fun _ _ => False := by
  refine (push_accepted config kind ids).mono (fun _ w' ⟨hw', _⟩ job hjob => ?_) fun _ _ h => h
  rw [hw'.broker, Lanes.get_set_self, LaneState.acceptAll_map]
  exact LaneState.contains_offerAll.2 (.inr ⟨job, hjob, rfl⟩)

theorem push_repeats (w : World σ Lanes)
    (h : ∀ job ∈ formJobs (config.lane kind.lane) kind ids,
      (w.broker.get kind.lane).pending.contains job.id = true) :
    (push Lanes.broker config kind ids).Ensures w
      (fun report _ =>
        report = ⟨[], (formJobs (config.lane kind.lane) kind ids).map JobPayload.id⟩)
      fun _ _ => False := by
  refine (push_accepted config kind ids).mono ?_ fun _ _ h => h
  rintro _ w' ⟨-, rfl⟩
  have hids : Offer.ids ((formJobs (config.lane kind.lane) kind ids).map
      (.mk w.clock.elapsed (config.lane kind.lane))) =
        (formJobs (config.lane kind.lane) kind ids).map JobPayload.id := List.map_map
  rw [← hids]
  refine LaneState.replies_of_pending ?_
  rw [hids]
  exact List.forall_mem_map.2 h

/-- On a lane with batches the same targets make the same jobs, in whatever order and however often they
are listed, as long as both lists have one place or both have several. Then the second push is
coalesced as a whole, whatever else was called in between, up to the first claim of one of its jobs. -/
theorem resubmission_coalesces (w : World σ Lanes) (config : QueueConfig) (kind : JobKind) {size : Nat}
    (hsize : (config.lane kind.lane).batchSize = some size) (hne : ids ≠ [])
    (hsame : ∀ s, s ∈ ids ↔ s ∈ ids') :
    let jobs := formJobs (config.lane kind.lane) kind ids
    let jobs' := formJobs (config.lane kind.lane) kind ids'
    (jobs = jobs' ↔ (ids.length = 1 ↔ ids'.length = 1)) ∧
      ((ids.length = 1 ↔ ids'.length = 1) →
        (push Lanes.broker config kind ids).Ensures w
          (fun _ w₁ => ∀ (between : List TimedCall) (w₂ : World σ Lanes),
            (∀ job ∈ jobs, w₁.broker.Unclaimed kind.lane job.id between) →
            w₂.broker = w₁.broker.after between →
            (push Lanes.broker config kind ids').Ensures w₂
              (fun report _ => report = ⟨[], jobs.map JobPayload.id⟩) fun _ _ => False)
          fun _ _ => False) := by
  intro jobs jobs'
  have hjobs : jobs = jobs' ↔ (ids.length = 1 ↔ ids'.length = 1) := formJobs_eq_iff hsize hne hsame
  refine ⟨hjobs, fun hlength => ?_⟩
  refine (push_pending w config kind ids).mono ?_ fun _ _ h => h
  intro _ w₁ hpending between w₂ hbetween hw₂
  rw [hjobs.2 hlength] at hbetween ⊢
  refine push_repeats w₂ fun job hjob => ?_
  have hjob' : job ∈ jobs := hjobs.2 hlength ▸ hjob
  rw [hw₂]
  exact (Lanes.after_waits (hbetween job hjob)
    (LaneState.waits_of_contains (hpending job hjob'))).contains

/-- Three changesets are pushed, and then again in another order and without the repetition. -/
theorem resubmission_coalesces_reordered :
    let config := QueueConfig.default
    let ids := ["c3", "c1", "c2", "c1"]
    let ids' := ["c2", "c3", "c1"]
    let jobs := formJobs config.changesets .changesetClosure ids
    let push : List String → Action Unit Lanes PushReport :=
      push Lanes.broker config .changesetClosure
    config.changesets.batchSize = some 100 ∧ ids ≠ [] ∧ (∀ s, s ∈ ids ↔ s ∈ ids') ∧
      (ids.length = 1 ↔ ids'.length = 1) ∧
      jobs = formJobs config.changesets .changesetClosure ids' ∧
      (push ids).Ensures (.initial () .empty)
        (fun _ w₁ => (push ids').Ensures w₁
          (fun report _ => report = ⟨[], jobs.map JobPayload.id⟩) fun _ _ => False)
        fun _ _ => False := by
  intro config ids ids' jobs push
  have hsame : ∀ s, s ∈ ids ↔ s ∈ ids' := by
    intro s
    simp only [ids, ids', List.mem_cons, List.not_mem_nil, or_false]
    tauto
  have hlength : ids.length = 1 ↔ ids'.length = 1 := by decide
  have hall := resubmission_coalesces (.initial () .empty) config .changesetClosure rfl
    (List.cons_ne_nil _ _) hsame
  refine ⟨rfl, List.cons_ne_nil _ _, hsame, hlength, hall.1.2 hlength, (hall.2 hlength).mono ?_
    fun _ _ h => h⟩
  exact fun _ w₁ hw₁ => hw₁ [] w₁ (fun _ _ => trivial) rfl

/-- The length of the list is looked at before repetitions are dropped: a changeset that is pushed alone
and then twice at once is queued twice, under its own name and under the hash of a batch. -/
theorem repeated_single_queued_twice :
    let config := QueueConfig.default
    let ids := ["c1"]
    let ids' := ["c1", "c1"]
    let push : List String → Action Unit Lanes PushReport :=
      push Lanes.broker config .changesetClosure
    config.changesets.batchSize = some 100 ∧ ids ≠ [] ∧ (∀ s, s ∈ ids ↔ s ∈ ids') ∧
      formJobs config.changesets .changesetClosure ids ≠
        formJobs config.changesets .changesetClosure ids' ∧
      (push ids).Ensures (.initial () .empty)
        (fun _ w₁ => (push ids').Ensures w₁
          (fun report _ => report = ⟨[Batch.jobId ["c1"]], []⟩) fun _ _ => False)
        fun _ _ => False := by
  intro config ids ids' push
  have hsame : ∀ s, s ∈ ids ↔ s ∈ ids' := by
    intro s
    simp only [ids, ids', List.mem_cons]
    tauto
  have hsize : config.changesets.batchSize = some 100 := rfl
  have hjobs : formJobs config.changesets .changesetClosure ids' = [.batch .changesetClosure ["c1"]] :=
    formJobs_of_repeated hsize (by decide) fun s => (hsame s).symm
  refine ⟨hsize, List.cons_ne_nil _ _, hsame, ?_, ?_⟩
  · have hsingle : formJobs config.changesets .changesetClosure ids =
        [.single .changesetClosure "c1"] := rfl
    rw [hsingle, hjobs]
    simp [JobPayload.single, JobPayload.batch]
  · refine (push_accepted config .changesetClosure ids).mono ?_ fun _ _ h => h
    intro _ w₁ ⟨hw₁, _⟩
    refine (push_accepted config .changesetClosure ids').mono ?_ fun _ _ h => h
    rintro _ w₂ ⟨-, rfl⟩
    have hne : Batch.jobId ["c1"] ≠ "c1" := by
      intro heq
      have hlength := Batch.length_jobId ["c1"]
      rw [heq] at hlength
      exact absurd hlength (by decide)
    have hfree : (w₁.broker.get .changesets).pending.contains (Batch.jobId ["c1"]) = false := by
      rw [hw₁.broker, ← Bool.not_eq_true]
      exact fun hpending => (LaneState.contains_acceptAll.1 hpending).elim nofun
        fun hmem => hne (List.mem_singleton.1 hmem)
    change (w₁.broker.get .changesets).replies
      ((formJobs config.changesets .changesetClosure ids').map _) = _
    rw [hjobs]
    exact (LaneState.replies_singleton ..).trans (LaneState.reply_of_new hfree)

end Queue

end SyncCascade
