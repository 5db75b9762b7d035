import SyncCascade.Proofs.Batch
import SyncCascade.Proofs.ByteOrder

/-!
# How a push cuts its targets into jobs

On a lane with batches a push of several identifiers cuts the sorted distinct ones into pieces, so the
members of its jobs are these identifiers, each once. Their order and repetitions leave no trace in the
jobs. A push of a single identifier makes no batch: it is told by its length, before repetitions are
dropped.
-/

namespace SyncCascade

namespace Batch

variable {ids ids' : List String}

theorem normalize_ascending (ids : List String) : (normalize ids).Pairwise (· < ·) := by
  refine pairwise_dropRepeats ((List.pairwise_mergeSort ?_ ?_ ids).imp ?_)
  · intro a b c hab hbc
    exact decide_eq_true (String.le_trans (of_decide_eq_true hab) (of_decide_eq_true hbc))
  · intro a b
    rw [Bool.or_eq_true, decide_eq_true_iff, decide_eq_true_iff]
    exact String.le_total a b
  · intro a b hab
    rcases Std.lt_trichotomy a b with hlt | heq | hgt
    · exact .inl hlt
    · exact .inr heq
    · exact absurd (of_decide_eq_true hab) (String.not_le.2 hgt)

theorem normalize_nodup (ids : List String) : (normalize ids).Nodup :=
  (normalize_ascending ids).imp Key.ne_of_lt

theorem normalize_eq_of_ascending (hascending : ids'.Pairwise (· < ·)) (h : ∀ s, s ∈ ids ↔ s ∈ ids') :
    normalize ids = ids' := by
  refine List.Perm.eq_of_pairwise ?_ (normalize_ascending ids) hascending ?_
  · intro a b _ _ hab hba
    exact absurd (Key.trans hab hba) (Key.irrefl a)
  · rw [List.perm_ext_iff_of_nodup (normalize_nodup ids) (hascending.imp Key.ne_of_lt)]
    intro s
    rw [mem_normalize, h s]

theorem normalize_congr (h : ∀ s, s ∈ ids ↔ s ∈ ids') : normalize ids = normalize ids' :=
  normalize_eq_of_ascending (normalize_ascending ids') fun s => by rw [mem_normalize, h s]

end Batch

namespace Queue

variable {options : LaneOptions} {size : Nat} {kind : JobKind} {ids ids' : List String}

theorem formJobs_of_batchSize (h : options.batchSize = some size) (hids : 2 ≤ ids.length) :
    formJobs options kind ids = (Chunk.pieces size (Batch.normalize ids)).map (.batch kind) := by
  match ids with
  | [] => cases hids
  | [_] => exact absurd hids (Nat.not_succ_le_self 1)
  | a :: b :: rest =>
    unfold formJobs
    rw [h]

theorem formJobs_of_unbatched (h : options.batchSize = none) (ids : List String) :
    formJobs options kind ids = ids.map (.single kind) := by
  match ids with
  | [] => rfl
  | [_] => rfl
  | a :: b :: rest =>
    unfold formJobs
    rw [h]

theorem flatMap_memberIds_batch (pieces : List (List String)) :
    (pieces.map (JobPayload.batch kind)).flatMap JobPayload.memberIds = pieces.flatten := by
  rw [List.flatMap_map]
  exact List.flatMap_id

/-- The jobs of a batched push of several identifiers have these as members, each once and in the
order of their bytes; all jobs are of one size, except that the last may be smaller, and each is known
by the hash of its members. Without batches there is one job for each place of the list. -/
theorem formJobs_partition (options : LaneOptions) (kind : JobKind) (ids : List String) :
    let jobs := formJobs options kind ids
    let members := jobs.flatMap JobPayload.memberIds
    (∀ size, options.batchSize = some size → 2 ≤ ids.length →
      members.Pairwise (fun s t => s.toUTF8.toList < t.toUTF8.toList) ∧
      (∀ s, s ∈ members ↔ s ∈ ids) ∧
      (∀ job ∈ jobs, 1 ≤ job.memberIds.length ∧ job.memberIds.length ≤ max size 1) ∧
      (∀ job ∈ jobs.dropLast, job.memberIds.length = max size 1) ∧
      ∀ job ∈ jobs, job.kind = kind ∧ job.id = Batch.jobId job.memberIds) ∧
    (options.batchSize = none →
      jobs.map (fun job => (job.id, job.memberIds)) = ids.map fun s => (s, [s])) := by
  intro jobs members
  refine ⟨fun size hsize hids => ?_, fun hnone => ?_⟩
  · have hjobs : jobs = (Chunk.pieces size (Batch.normalize ids)).map (.batch kind) :=
      formJobs_of_batchSize hsize hids
    have hmembers : members = Batch.normalize ids := by
      unfold members
      rw [hjobs, flatMap_memberIds_batch, Chunk.flatten_pieces]
    rw [hmembers, hjobs, ← List.map_dropLast]
    exact ⟨(Batch.normalize_ascending ids).imp Text.toUTF8_lt, fun s => Batch.mem_normalize,
      List.forall_mem_map.2 fun piece hpiece => Chunk.length_of_mem_pieces hpiece,
      List.forall_mem_map.2 fun piece hpiece => Chunk.length_of_mem_dropLast_pieces hpiece,
      List.forall_mem_map.2 fun _ _ => ⟨rfl, rfl⟩⟩
  · have hjobs : jobs = ids.map (.single kind) := formJobs_of_unbatched hnone ids
    rw [hjobs, List.map_map]
    rfl

/-- A remainder, a repetition and an order that the jobs do not keep. -/
theorem formJobs_partition_remainder :
    let options := LaneOptions.batched 2
    let ids := ["c3", "c1", "c2", "c1"]
    let jobs := formJobs options .changesetClosure ids
    options.batchSize = some 2 ∧ 2 ≤ ids.length ∧
      (jobs.flatMap JobPayload.memberIds).Pairwise
        (fun s t => s.toUTF8.toList < t.toUTF8.toList) ∧
      (∀ s, s ∈ jobs.flatMap JobPayload.memberIds ↔ s ∈ ids) ∧
      (∀ job ∈ jobs, 1 ≤ job.memberIds.length ∧ job.memberIds.length ≤ 2) ∧
      (∀ job ∈ jobs.dropLast, job.memberIds.length = 2) ∧
      ∀ job ∈ jobs, job.kind = .changesetClosure ∧ job.id = Batch.jobId job.memberIds :=
  ⟨rfl, by decide, (formJobs_partition (.batched 2) .changesetClosure _).1 2 rfl (by decide)⟩

theorem batchIds_eq_none_iff (hsize : options.batchSize = some size) {job : JobPayload}
    (hjob : job ∈ formJobs options kind ids) : job.batchIds = none ↔ ids.length = 1 := by
  match ids with
  | [] => cases hjob
  | [id] =>
    rw [List.mem_singleton.1 hjob]
    exact ⟨fun _ => rfl, fun _ => rfl⟩
  | a :: b :: rest =>
    rw [formJobs_of_batchSize hsize (by simp)] at hjob
    obtain ⟨piece, -, rfl⟩ := List.mem_map.1 hjob
    exact ⟨nofun, fun h => by simp at h⟩

/-- The jobs do not depend on the order and the repetitions of the identifiers, unless one list is a
single identifier and the other repeats it. -/
theorem formJobs_eq_iff (hsize : options.batchSize = some size) (hne : ids ≠ [])
    (hsame : ∀ s, s ∈ ids ↔ s ∈ ids') :
    formJobs options kind ids = formJobs options kind ids' ↔
      (ids.length = 1 ↔ ids'.length = 1) := by
  obtain ⟨s, hs⟩ := List.exists_mem_of_ne_nil ids hne
  constructor
  · intro hjobs
    obtain ⟨job, hjob, -⟩ := exists_mem_formJobs options kind hs
    have hjob' : job ∈ formJobs options kind ids' := hjobs ▸ hjob
    rw [← batchIds_eq_none_iff hsize hjob, batchIds_eq_none_iff hsize hjob']
  · intro hlength
    have hpos := List.length_pos_of_mem hs
    have hpos' := List.length_pos_of_mem ((hsame s).1 hs)
    by_cases hone : ids.length = 1
    · obtain ⟨a, rfl⟩ := List.length_eq_one_iff.1 hone
      obtain ⟨b, rfl⟩ := List.length_eq_one_iff.1 (hlength.1 hone)
      rw [List.mem_singleton.1 ((hsame a).1 (List.mem_singleton_self a))]
    · have hone' : ids'.length ≠ 1 := fun h => hone (hlength.2 h)
      rw [formJobs_of_batchSize hsize (by omega), formJobs_of_batchSize hsize (by omega),
        Batch.normalize_congr hsame]

theorem formJobs_of_repeated (hsize : options.batchSize = some size) (hids : 2 ≤ ids.length)
    {id : String} (hsame : ∀ s, s ∈ ids ↔ s ∈ [id]) : formJobs options kind ids = [.batch kind [id]] := by
  have hnormal : Batch.normalize [id] = [id] := by
    unfold Batch.normalize
    rw [List.mergeSort_singleton]
    rfl
  rw [formJobs_of_batchSize hsize hids, Batch.normalize_congr hsame, hnormal]
  obtain ⟨n, hn⟩ : ∃ n, max size 1 = n + 1 := ⟨max size 1 - 1, by omega⟩
  unfold Chunk.pieces
  rw [hn]
  simp [Chunk.upTo]

end Queue

end SyncCascade
