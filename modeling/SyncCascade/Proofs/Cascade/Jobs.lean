import SyncCascade.Proofs.Cascade.Step
import SyncCascade.Settings

/-!
# The jobs of the cascade

What the lanes carry and what they keep. A job of a lane is of the kind of the lane, and one that
waits or is claimed leaves its lane only after it was handled, as long as no job has failed for good.
So whatever such jobs stand for, is kept by every step: `step_kept` says this once for all invariants
that tie the lanes to the database.
-/

namespace SyncCascade

namespace LaneState

def Idle (s : LaneState) : Prop := s.pending.size = 0 ∧ s.active.size = 0

theorem not_holds_of_idle {s : LaneState} (h : s.Idle) (id : String) : ¬ s.Holds id := by
  unfold Holds
  rw [Table.contains_of_size_eq_zero h.1, Table.contains_of_size_eq_zero h.2]
  simp

theorem carries_of_idle {P : JobPayload → Prop} {s : LaneState} (h : s.Idle) : s.Carries P where
  pending hj := absurd (.inl (Table.contains_eq_true.2 ⟨_, hj⟩)) (not_holds_of_idle h _)
  active ha := absurd (.inr (Table.contains_eq_true.2 ⟨_, ha⟩)) (not_holds_of_idle h _)

end LaneState

namespace QueueConfig

theorem default_unbatched : default.Unbatched := ⟨rfl, rfl⟩

theorem Unbatched.lane {queue : QueueConfig} (h : queue.Unbatched) {lane : Lane}
    (hlane : lane ≠ .changesets) : (queue.lane lane).batchSize = none := by
  cases lane with
  | changesets => exact absurd rfl hlane
  | files => exact h.files
  | syncs => exact h.syncs

end QueueConfig

namespace Cascade

/-- What a job of the lane can be. -/
def Fits (lane : Lane) (p : JobPayload) : Prop :=
  p.kind = lane.jobKind ∧ (lane ≠ .changesets → p.batchIds = none)

theorem fits_aboutWork (lane : Lane) : AboutWork (Fits lane) := by
  rintro p q ⟨-, hkind, hbatch⟩ ⟨hp, hnone⟩
  exact ⟨hkind ▸ hp, fun hlane => hbatch ▸ hnone hlane⟩

theorem Fits.single {lane : Lane} {p : JobPayload} (h : Fits lane p) : Single p := by
  intro hkind
  apply h.2
  rintro rfl
  exact hkind h.1

theorem formJobs_unbatched {options : LaneOptions} (h : options.batchSize = none) (kind : JobKind)
    (ids : List String) : Queue.formJobs options kind ids = ids.map (.single kind) := by
  unfold Queue.formJobs
  rw [h]
  match ids with
  | [] => rfl
  | [id] => rfl
  | id :: id' :: rest => rfl

theorem formJobs_fits (queue : QueueConfig) (hqueue : queue.Unbatched) (kind : JobKind)
    (ids : List String) {job : JobPayload}
    (h : job ∈ Queue.formJobs (queue.lane kind.lane) kind ids) : Fits kind.lane job := by
  have hkind : kind.lane.jobKind = kind := by cases kind <;> rfl
  refine ⟨?_, fun hlane => ?_⟩
  · rw [hkind]
    unfold Queue.formJobs at h
    split at h
    · cases h
    · rw [List.mem_singleton.1 h]
      rfl
    · obtain ⟨id, -, rfl⟩ := List.mem_map.1 h
      rfl
    · obtain ⟨members, -, rfl⟩ := List.mem_map.1 h
      rfl
  · rw [formJobs_unbatched (hqueue.lane hlane)] at h
    obtain ⟨id, -, rfl⟩ := List.mem_map.1 h
    rfl

theorem formed_fits {queue : QueueConfig} (hqueue : queue.Unbatched) {pushes : List (List String)}
    {job : JobPayload} (h : job ∈ formed queue pushes) : Fits .changesets job := by
  obtain ⟨ids, -, hjob⟩ := List.mem_flatMap.1 h
  exact formJobs_fits queue hqueue .changesetClosure ids hjob

section Pushes

variable {clock : Clock} {queue : QueueConfig} {kind : JobKind} {ids : List String} {l : Lanes}

theorem pushed_carries (kind : JobKind) {P : Lane → JobPayload → Prop}
    (hP : ∀ lane, AboutWork (P lane)) (hl : l.Carries P)
    (hjobs : ∀ job ∈ Queue.formJobs (queue.lane kind.lane) kind ids, P kind.lane job) :
    (l.pushed clock queue kind ids).Carries P :=
  Lanes.carries_set hl (LaneState.offerAll_carries (hP _) (hl _) hjobs)

theorem pushed_keeps {lane : Lane} {id : String} (h : (l.get lane).Holds id) :
    ((l.pushed clock queue kind ids).get lane).Holds id := by
  unfold Lanes.pushed
  rw [Lanes.get_set]
  split
  next heq =>
    subst heq
    exact LaneState.offerAll_keeps h
  next => exact h

theorem pushed_failed (lane : Lane) :
    ((l.pushed clock queue kind ids).get lane).failed = (l.get lane).failed := by
  unfold Lanes.pushed
  rw [Lanes.get_set]
  split
  next heq =>
    subst heq
    exact LaneState.offerAll_failed
  next => rfl

theorem pushed_active (lane : Lane) :
    ((l.pushed clock queue kind ids).get lane).active = (l.get lane).active := by
  unfold Lanes.pushed
  rw [Lanes.get_set]
  split
  next heq =>
    subst heq
    exact LaneState.offerAll_active
  next => rfl

theorem pushed_holds {job : JobPayload}
    (h : job ∈ Queue.formJobs (queue.lane kind.lane) kind ids) :
    ((l.pushed clock queue kind ids).get kind.lane).Holds job.id := by
  unfold Lanes.pushed
  rw [Lanes.get_set_self]
  exact LaneState.offerAll_holds h

theorem pushed_holds_target (kind : JobKind) (hqueue : queue.Unbatched)
    (hlane : kind.lane ≠ .changesets) {id : String} (h : id ∈ ids) :
    ((l.pushed clock queue kind ids).get kind.lane).Holds id := by
  have hjob : JobPayload.single kind id ∈ Queue.formJobs (queue.lane kind.lane) kind ids := by
    rw [formJobs_unbatched (hqueue.lane hlane)]
    exact List.mem_map_of_mem h
  exact pushed_holds hjob

end Pushes

def NoneFailed (l : Lanes) : Prop := ∀ lane, (l.get lane).failed = []

section Handler

variable {clock : Clock} {queue : QueueConfig} {db db' : Database} {l l' : Lanes} {p : JobPayload}

theorem notified_keeps {owner : Option SyncId} {lane : Lane} {id : String}
    (h : (l.get lane).Holds id) : ((notified clock queue l owner).get lane).Holds id := by
  cases owner with
  | none => exact h
  | some sync => exact pushed_keeps h

theorem handled_failed (h : Handled clock queue db l p db' l') (lane : Lane) :
    (l'.get lane).failed = (l.get lane).failed := by
  cases h with
  | changesets => exact pushed_failed lane
  | file =>
    cases (db.tryCloseFile clock.wall _).1 with
    | none => rfl
    | some sync => exact pushed_failed lane
  | sync => rfl

theorem handled_keeps (h : Handled clock queue db l p db' l') {lane : Lane} {id : String}
    (hid : (l.get lane).Holds id) : (l'.get lane).Holds id := by
  cases h with
  | changesets => exact pushed_keeps hid
  | file => exact notified_keeps hid
  | sync => exact hid

theorem handled_carries {P : Lane → JobPayload → Prop} (hP : ∀ lane, AboutWork (P lane))
    (hfits : ∀ lane p, lane ≠ .changesets → Fits lane p → P lane p) (hqueue : queue.Unbatched)
    (hl : l.Carries P) (h : Handled clock queue db l p db' l') : l'.Carries P := by
  cases h with
  | changesets =>
    refine pushed_carries _ hP hl fun job hjob => hfits _ _ (by decide) ?_
    exact formJobs_fits queue hqueue .fileClosure _ hjob
  | file =>
    cases (db.tryCloseFile clock.wall _).1 with
    | none => exact hl
    | some sync =>
      refine pushed_carries _ hP hl fun job hjob => hfits _ _ (by decide) ?_
      exact formJobs_fits queue hqueue .syncClosure _ hjob
  | sync => exact hl

end Handler

/-- What jobs of `P` stand for: `C` outlives added jobs, the handling of a job, and that the job leaves
its lane once it was handled. -/
structure Kept (queue : QueueConfig) (P : Lane → JobPayload → Prop) (C : Lanes → Database → Prop) :
    Prop where
  mono : ∀ {l l' : Lanes} {db : Database}, C l db →
    (∀ lane id, (l.get lane).Holds id → (l'.get lane).Holds id) → C l' db
  handled : ∀ {clock lane p db l db' l'}, P lane p → Handled clock queue db l p db' l' → C l db →
    C l' db'
  completed : ∀ {clock lane p db l db' l'} {l'' : Lanes}, P lane p →
    Handled clock queue db l p db' l' → C l' db' →
    (∀ lane' id, (lane' = lane → id ≠ p.id) → (l'.get lane').Holds id → (l''.get lane').Holds id) →
    C l'' db'

section Steps

variable {queue : QueueConfig} {db db' : Database} {l l' l₁ : Lanes} {clock : Clock} {lane : Lane}
  {job : ClaimedJob} {pushes : List (List String)}

theorem noneFailed_of_apply {c : BrokerCall} (h : NoneFailed (l.apply clock c).2) : NoneFailed l :=
  fun lane => Lanes.failed_of_apply (h lane)

theorem claims_carries {P : Lane → JobPayload → Prop} (hP : ∀ lane, AboutWork (P lane))
    (hl : l.Carries P) (h : Claims clock lane l job l₁) : l₁.Carries P ∧ P lane job.payload := by
  obtain ⟨lease, hjob, rfl⟩ := h
  exact ⟨Lanes.carries_apply hP hl clock nofun, Lanes.payload_of_claim hl hjob⟩

/-- What the jobs can be is kept by every step, if it holds of what the step pushes. -/
theorem step_carries {P : Lane → JobPayload → Prop} (hP : ∀ lane, AboutWork (P lane))
    (hfits : ∀ lane p, lane ≠ .changesets → Fits lane p → P lane p) (hqueue : queue.Unbatched)
    (hl : l.Carries P) (h : Step queue db l pushes db' l')
    (hpush : ∀ job ∈ formed queue pushes, P .changesets job) : l'.Carries P := by
  cases h with
  | stay => exact hl
  | push clock ids =>
    refine pushed_carries .changesetClosure hP hl fun job hjob => hpush job ?_
    exact List.mem_flatMap.2 ⟨ids, List.mem_singleton_self ids, hjob⟩
  | claim clock lane lease => exact Lanes.carries_apply hP hl clock nofun
  | recover clock lane => exact Lanes.carries_apply hP hl clock nofun
  | abandon hclaim h => exact handled_carries hP hfits hqueue (claims_carries hP hl hclaim).1 h
  | complete hclaim h =>
    have hl' := handled_carries hP hfits hqueue (claims_carries hP hl hclaim).1 h
    exact Lanes.carries_apply hP hl' _ nofun
  | fail hclaim error => exact Lanes.carries_apply hP (claims_carries hP hl hclaim).1 _ nofun
  | retry hclaim hsame delay =>
    obtain ⟨hl₁, hjob⟩ := claims_carries hP hl hclaim
    refine Lanes.carries_apply hP hl₁ _ fun p hp => ?_
    obtain rfl := Option.some.inj hp
    exact hP _ hsame hjob

/-- A call that completes no job keeps every identifier while no job has failed. -/
theorem apply_keeps_all (hl : l.Keyed) {c : BrokerCall}
    (hc : ∀ lane id, ¬ c.Completes lane id (l.apply clock c).1)
    (hnone : NoneFailed (l.apply clock c).2) (lane : Lane) (id : String)
    (hid : (l.get lane).Holds id) : ((l.apply clock c).2.get lane).Holds id :=
  Lanes.apply_holds hl (hnone lane) (hc lane id) hid

theorem claims_kept {C : Lanes → Database → Prop} {P : Lane → JobPayload → Prop}
    (hC : Kept queue P C) (hl : l.Keyed) (h : Claims clock lane l job l₁) (hnone : NoneFailed l₁)
    (hkept : NoneFailed l → C l db) : C l₁ db := by
  obtain ⟨lease, -, rfl⟩ := h
  exact hC.mono (hkept (noneFailed_of_apply hnone)) (apply_keeps_all hl (fun _ _ h => h) hnone)

theorem step_kept {C : Lanes → Database → Prop} {P : Lane → JobPayload → Prop}
    (hP : ∀ lane, AboutWork (P lane)) (hfits : ∀ lane p, lane ≠ .changesets → Fits lane p → P lane p)
    (hqueue : queue.Unbatched) (hC : Kept queue P C) (hl : l.Carries P)
    (hkept : NoneFailed l → C l db) (h : Step queue db l pushes db' l') (hnone : NoneFailed l') :
    C l' db' := by
  cases h with
  | stay => exact hkept hnone
  | push clock ids =>
    have hnone' : NoneFailed l := fun lane => pushed_failed lane ▸ hnone lane
    exact hC.mono (hkept hnone') fun _ _ hid => pushed_keeps hid
  | claim clock lane lease =>
    have hnone' : NoneFailed l := noneFailed_of_apply hnone
    exact hC.mono (hkept hnone') (apply_keeps_all hl.keyed (fun _ _ h => h) hnone)
  | recover clock lane =>
    have hnone' : NoneFailed l := noneFailed_of_apply hnone
    exact hC.mono (hkept hnone') (apply_keeps_all hl.keyed (fun _ _ h => h) hnone)
  | @abandon clock lane job l₁ _ _ hclaim h =>
    have hnone₁ : NoneFailed l₁ := fun lane => handled_failed h lane ▸ hnone lane
    have hjob := (claims_carries hP hl hclaim).2
    exact hC.handled hjob h (claims_kept hC hl.keyed hclaim hnone₁ hkept)
  | @complete clock lane job l₁ l₂ db' hclaim h =>
    obtain ⟨hl₁, hjob⟩ := claims_carries hP hl hclaim
    have hnone₂ : NoneFailed l₂ := noneFailed_of_apply hnone
    have hnone₁ : NoneFailed l₁ := fun lane => handled_failed h lane ▸ hnone₂ lane
    have hkept₂ := hC.handled hjob h (claims_kept hC hl.keyed hclaim hnone₁ hkept)
    have hl₂ := handled_carries hP hfits hqueue hl₁ h
    -- Only the identifier of the job leaves its lane.
    refine hC.completed hjob h hkept₂ fun lane' id hne hid => ?_
    refine Lanes.apply_holds hl₂.keyed (hnone lane') ?_ hid
    rintro ⟨hlane, hid', -⟩
    exact hne hlane.symm hid'.symm
  | @fail clock lane job l₁ hclaim error =>
    have hl₁ := (claims_carries hP hl hclaim).1
    have hkept₁ := claims_kept hC hl.keyed hclaim (noneFailed_of_apply hnone) hkept
    exact hC.mono hkept₁ (apply_keeps_all hl₁.keyed (fun _ _ h => h) hnone)
  | @retry clock lane job l₁ hclaim payload hsame delay =>
    have hl₁ := (claims_carries hP hl hclaim).1
    have hkept₁ := claims_kept hC hl.keyed hclaim (noneFailed_of_apply hnone) hkept
    exact hC.mono hkept₁ (apply_keeps_all hl₁.keyed (fun _ _ h => h) hnone)

end Steps

end Cascade

end SyncCascade
