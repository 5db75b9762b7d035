import SyncCascade.Broker.LaneState
import SyncCascade.Proofs.Table

/-!
# What the operations of a lane can do

An operation adds a job, moves a pending one back, claims one, or takes a claimed one back and then
completes it or lets it go. What can become of a job that is let go is said once, by `Released`, for
failures, repetitions and stalled jobs alike. The jobs of a lane keep the work they stand for: their
counters change, their identifier, kind and members do not.
-/

namespace SyncCascade

/-- The payloads stand for the same work; their counters may differ. -/
def JobPayload.SameWork (p q : JobPayload) : Prop :=
  p.id = q.id ∧ p.kind = q.kind ∧ p.batchIds = q.batchIds

theorem JobPayload.SameWork.refl (p : JobPayload) : p.SameWork p := ⟨rfl, rfl, rfl⟩

theorem JobPayload.SameWork.trans {p q r : JobPayload} (h : p.SameWork q) (h' : q.SameWork r) :
    p.SameWork r :=
  ⟨h.1.trans h'.1, h.2.1.trans h'.2.1, h.2.2.trans h'.2.2⟩

theorem JobPayload.SameWork.memberIds_eq {p q : JobPayload} (h : p.SameWork q) :
    p.memberIds = q.memberIds := by
  unfold memberIds
  rw [h.1, h.2.2]

/-- The predicate looks at the work only. -/
def AboutWork (P : JobPayload → Prop) : Prop := ∀ ⦃p q⦄, JobPayload.SameWork p q → P p → P q

theorem aboutWork_true : AboutWork fun _ => True := fun _ _ _ h => h

namespace LaneState

/-- Every job stands under its own identifier, and its payload is one of `P`. -/
structure Carries (P : JobPayload → Prop) (s : LaneState) : Prop where
  pending : ∀ {id j}, s.pending.find? id = some j → j.payload.id = id ∧ P j.payload
  active : ∀ {id a}, s.active.find? id = some a → a.job.payload.id = id ∧ P a.job.payload

/-- A job with the identifier is pending or claimed. -/
def Holds (s : LaneState) (id : String) : Prop :=
  s.pending.contains id = true ∨ s.active.contains id = true

def owns (s : LaneState) (id : String) (token : Nat) : Bool :=
  match s.active.find? id with
  | some a => a.token == token
  | none => false

def unclaim (s : LaneState) (id : String) : LaneState := { s with active := s.active.erase id }

theorem carries_empty (P : JobPayload → Prop) : empty.Carries P where
  pending h := nomatch h
  active h := nomatch h

theorem Carries.mono {P Q : JobPayload → Prop} {s : LaneState} (h : s.Carries P)
    (hPQ : ∀ p, P p → Q p) : s.Carries Q where
  pending hj := (h.pending hj).imp_right (hPQ _)
  active ha := (h.active ha).imp_right (hPQ _)

theorem owns_eq_true {s : LaneState} {id : String} {token : Nat} :
    s.owns id token = true ↔ ∃ a, s.active.find? id = some a ∧ a.token = token := by
  unfold owns
  cases s.active.find? id with
  | none => simp
  | some a => simp

theorem takeActive_of_owns {s : LaneState} {id : String} {token : Nat} {a : ActiveJob}
    (ha : s.active.find? id = some a) (ht : a.token = token) :
    s.takeActive id token = some (a, s.unclaim id) := by
  simp [takeActive, ha, ht, unclaim]

theorem takeActive_of_not_owns {s : LaneState} {id : String} {token : Nat}
    (h : s.owns id token = false) : s.takeActive id token = none := by
  unfold owns at h
  unfold takeActive
  cases hf : s.active.find? id with
  | none => rfl
  | some a =>
    rw [hf] at h
    simp only [beq_eq_false_iff_ne] at h
    simp only [if_neg h]

/-- A completion without the claim changes nothing; one with it takes the job back and counts it. -/
theorem complete_cases (s : LaneState) (id : String) (token : Nat) :
    (s.owns id token = false ∧ s.complete id token = (false, s)) ∨
      ∃ a, s.active.find? id = some a ∧ a.token = token ∧
        s.complete id token = (true, { s.unclaim id with completed := s.completed + 1 }) := by
  unfold complete
  cases hown : s.owns id token with
  | false =>
    rw [takeActive_of_not_owns hown]
    exact .inl ⟨rfl, rfl⟩
  | true =>
    obtain ⟨a, ha, ht⟩ := owns_eq_true.1 hown
    rw [takeActive_of_owns ha ht]
    exact .inr ⟨a, ha, ht, rfl⟩

theorem fail_cases (s : LaneState) (clock : Clock) (id : String) (token : Nat) (error : String) :
    (s.owns id token = false ∧ s.fail clock id token error = (.superseded, s)) ∨
      ∃ a, s.active.find? id = some a ∧ a.token = token ∧
        s.fail clock id token error =
          (s.unclaim id).consumeAttempt clock a.job error a.job.backoff := by
  unfold fail
  cases hown : s.owns id token with
  | false =>
    rw [takeActive_of_not_owns hown]
    exact .inl ⟨rfl, rfl⟩
  | true =>
    obtain ⟨a, ha, ht⟩ := owns_eq_true.1 hown
    rw [takeActive_of_owns ha ht]
    exact .inr ⟨a, ha, ht, rfl⟩

theorem retryLater_cases (s : LaneState) (now : Nat) (payload : JobPayload) (token : Nat)
    (delay : Timespan) :
    (s.owns payload.id token = false ∧ s.retryLater now payload token delay = (.superseded, s)) ∨
      ∃ a, s.active.find? payload.id = some a ∧ a.token = token ∧
        s.retryLater now payload token delay =
          (s.unclaim payload.id).requeue now { a.job with payload := payload } delay := by
  unfold retryLater
  cases hown : s.owns payload.id token with
  | false =>
    rw [takeActive_of_not_owns hown]
    exact .inl ⟨rfl, rfl⟩
  | true =>
    obtain ⟨a, ha, ht⟩ := owns_eq_true.1 hown
    rw [takeActive_of_owns ha ht]
    exact .inr ⟨a, ha, ht, rfl⟩

/-- Every pending job is still pending, and not ready earlier than before. -/
def Retains (s s' : LaneState) : Prop :=
  ∀ ⦃id q⦄, s.pending.find? id = some q →
    ∃ q', s'.pending.find? id = some q' ∧ q.readyAt ≤ q'.readyAt

theorem retains_of_pending_eq {s s' : LaneState} (h : s'.pending = s.pending) : s.Retains s' :=
  fun _ q hq => ⟨q, h ▸ hq, Nat.le_refl _⟩

theorem Retains.refl (s : LaneState) : s.Retains s := retains_of_pending_eq rfl

theorem Retains.trans {s s' s'' : LaneState} (h : s.Retains s') (h' : s'.Retains s'') :
    s.Retains s'' := fun _ _ hq => by
  obtain ⟨q', hq', hle⟩ := h hq
  obtain ⟨q'', hq'', hle'⟩ := h' hq'
  exact ⟨q'', hq'', Nat.le_trans hle hle'⟩

theorem Retains.contains {s s' : LaneState} (h : s.Retains s') {id : String}
    (hp : s.pending.contains id = true) : s'.pending.contains id = true := by
  obtain ⟨q, hq⟩ := Table.contains_eq_true.1 hp
  obtain ⟨q', hq', -⟩ := h hq
  exact Table.contains_eq_true.2 ⟨q', hq'⟩

theorem retains_of_free {s s' : LaneState} {id : String} {job : QueuedJob}
    (hfree : s.pending.contains id = false) (h : s'.pending = s.pending.insert id job) :
    s.Retains s' :=
  fun _ q hq => ⟨q, h ▸ Table.find?_insert_of_free hfree hq, Nat.le_refl _⟩

/-- What can become of a job that is no longer claimed. -/
inductive Released (s : LaneState) (job : QueuedJob) : Disposition → LaneState → Prop
  | retrying (delay : Timespan) (job' : QueuedJob)
      (hfree : s.pending.contains job.payload.id = false) (hsame : job'.payload = job.payload) :
      Released s job (.retrying delay)
        { s with seq := s.seq + 1, pending := s.pending.insert job.payload.id job' }
  | superseded (htwin : s.pending.contains job.payload.id = true) : Released s job .superseded s
  | failed (record : FailedJob) (hsame : record.payload = job.payload) :
      Released s job .failed { s with failed := s.failed ++ [record] }

theorem requeue_released (s : LaneState) (now : Nat) (job : QueuedJob) (delay : Timespan) :
    Released s job (s.requeue now job delay).1 (s.requeue now job delay).2 := by
  unfold requeue
  cases h : s.pending.contains job.payload.id with
  | true => exact .superseded h
  | false => exact .retrying delay _ h rfl

theorem consumeAttempt_released (s : LaneState) (clock : Clock) (job : QueuedJob) (error : String)
    (delay : Timespan) :
    Released s job (s.consumeAttempt clock job error delay).1
      (s.consumeAttempt clock job error delay).2 := by
  unfold consumeAttempt
  by_cases h : job.attemptsMade + 1 < job.maxAttempts
  · simp only [if_pos h]
    have hr := requeue_released s clock.elapsed { job with attemptsMade := job.attemptsMade + 1 }
      delay
    revert hr
    generalize s.requeue clock.elapsed { job with attemptsMade := job.attemptsMade + 1 } delay = r
    obtain ⟨d, s'⟩ := r
    intro hr
    cases hr with
    | retrying delay job' hfree hsame => exact .retrying delay job' hfree hsame
    | superseded htwin => exact .superseded htwin
    | failed record hsame => exact .failed record hsame
  · simp only [if_neg h]
    exact .failed _ rfl

namespace Released

variable {s s' : LaneState} {job : QueuedJob} {d : Disposition}

theorem active_eq (h : Released s job d s') : s'.active = s.active := by
  cases h <;> rfl

theorem retains (h : Released s job d s') : s.Retains s' := by
  cases h with
  | retrying delay job' hfree => exact retains_of_free hfree rfl
  | superseded => exact .refl s
  | failed => exact retains_of_pending_eq rfl

theorem pending_or_failed (h : Released s job d s') :
    s'.pending.contains job.payload.id = true ∨
      d = .failed ∧ ∃ record, record.payload = job.payload ∧ s'.failed = s.failed ++ [record] := by
  cases h with
  | retrying => exact .inl (by simp)
  | superseded htwin => exact .inl htwin
  | failed record hsame => exact .inr ⟨rfl, record, hsame, rfl⟩

theorem failed_eq (h : Released s job d s') :
    s'.failed = s.failed ∨ ∃ record, record.payload = job.payload ∧
      s'.failed = s.failed ++ [record] := by
  cases h with
  | retrying => exact .inl rfl
  | superseded => exact .inl rfl
  | failed record hsame => exact .inr ⟨record, hsame, rfl⟩

theorem carries {P : JobPayload → Prop} (h : Released s job d s') (hs : s.Carries P)
    (hj : P job.payload) : s'.Carries P := by
  cases h with
  | retrying delay job' hfree hsame =>
    refine ⟨fun {id j} hf => ?_, hs.active⟩
    rw [Table.find?_insert] at hf
    split at hf
    next hid =>
      obtain rfl := Option.some.inj hf
      rw [hsame]
      exact ⟨hid.symm, hj⟩
    next => exact hs.pending hf
  | superseded => exact hs
  | failed => exact ⟨hs.pending, hs.active⟩

end Released

/-- A settlement without the claim changes nothing; one with it takes the job back and lets it go. -/
inductive Settled (s : LaneState) (id : String) (token : Nat) (update : JobPayload → JobPayload) :
    Disposition → LaneState → Prop
  | stale (h : s.owns id token = false) : Settled s id token update .superseded s
  | released {a : ActiveJob} {job : QueuedJob} {d : Disposition} {s' : LaneState}
      (ha : s.active.find? id = some a) (ht : a.token = token)
      (hjob : job.payload = update a.job.payload) (h : Released (s.unclaim id) job d s') :
      Settled s id token update d s'

theorem fail_settled (s : LaneState) (clock : Clock) (id : String) (token : Nat) (error : String) :
    Settled s id token (fun p => p) (s.fail clock id token error).1
      (s.fail clock id token error).2 := by
  rcases fail_cases s clock id token error with ⟨h, heq⟩ | ⟨a, ha, ht, heq⟩
  · rw [heq]
    exact .stale h
  · rw [heq]
    exact .released ha ht rfl (consumeAttempt_released ..)

theorem retryLater_settled (s : LaneState) (now : Nat) (payload : JobPayload) (token : Nat)
    (delay : Timespan) :
    Settled s payload.id token (fun _ => payload) (s.retryLater now payload token delay).1
      (s.retryLater now payload token delay).2 := by
  rcases retryLater_cases s now payload token delay with ⟨h, heq⟩ | ⟨a, ha, ht, heq⟩
  · rw [heq]
    exact .stale h
  · rw [heq]
    have hr := requeue_released (s.unclaim payload.id) now { a.job with payload := payload } delay
    exact .released ha ht rfl hr

def stalledPayload (p : JobPayload) : JobPayload := { p with stalled := p.stalled + 1 }

theorem stalledPayload_sameWork (p : JobPayload) : p.SameWork (stalledPayload p) := ⟨rfl, rfl, rfl⟩

theorem recoverJob_of_active (clock : Clock) {s : LaneState} {id : String} {a : ActiveJob}
    (ha : s.active.find? id = some a) :
    ∃ d s', recoverJob clock s id = (some ⟨stalledPayload a.job.payload, d⟩, s') ∧
      ∃ job : QueuedJob, job.payload = stalledPayload a.job.payload ∧
        Released (s.unclaim id) job d s' := by
  simp only [recoverJob, ha]
  exact ⟨_, _, rfl, _, rfl, consumeAttempt_released ..⟩

/-- A stalled job is let go like one that has failed: what is different is its payload and its delay. -/
theorem recoverJob_eq (clock : Clock) {s : LaneState} {id : String} {a : ActiveJob}
    (ha : s.active.find? id = some a) :
    recoverJob clock s id =
      let taken := (s.unclaim id).consumeAttempt clock
        { a.job with payload := stalledPayload a.job.payload } stalledError .zero
      (some ⟨stalledPayload a.job.payload, taken.1⟩, taken.2) := by
  simp only [recoverJob, ha]
  rfl

theorem recoverJob_of_not_active (clock : Clock) {s : LaneState} {id : String}
    (ha : s.active.find? id = none) : recoverJob clock s id = (none, s) := by
  simp only [recoverJob, ha]

theorem mem_of_earlier {jobs : List QueuedJob} {best : Option QueuedJob} {job : QueuedJob}
    (h : jobs.foldl earlier best = some job) : best = some job ∨ job ∈ jobs := by
  induction jobs generalizing best with
  | nil => exact .inl h
  | cons j rest ih =>
    rcases ih h with hb | hm
    · cases best with
      | none => exact .inr (Option.some.inj hb ▸ List.mem_cons_self)
      | some b =>
        simp only [earlier] at hb
        split at hb
        · exact .inr (Option.some.inj hb ▸ List.mem_cons_self)
        · exact .inl hb
    · exact .inr (List.mem_cons_of_mem _ hm)

theorem isClaimable_of_nextJob {s : LaneState} {now : Nat} {job : QueuedJob}
    (h : s.nextJob now = some job) :
    job ∈ s.pending.rows ∧ job.readyAt ≤ now ∧ s.active.contains job.payload.id = false := by
  unfold nextJob at h
  rcases mem_of_earlier h with hb | hm
  · cases hb
  · obtain ⟨hrow, hclaim⟩ := List.mem_filter.1 hm
    simp only [isClaimable, Bool.and_eq_true, decide_eq_true_eq, Bool.not_eq_true'] at hclaim
    exact ⟨hrow, hclaim⟩

theorem nextJob_eq_some {P : JobPayload → Prop} {s : LaneState} (hs : s.Carries P) {now : Nat}
    {job : QueuedJob} (h : s.nextJob now = some job) :
    s.pending.find? job.payload.id = some job ∧ s.active.contains job.payload.id = false ∧
      job.readyAt ≤ now := by
  obtain ⟨hrow, hready, hfree⟩ := isClaimable_of_nextJob h
  obtain ⟨id, hid⟩ := Table.mem_rows.1 hrow
  have hkey := (hs.pending hid).1
  exact ⟨hkey ▸ hid, hfree, hready⟩

theorem nextJob_of_size_eq_zero {s : LaneState} (h : s.pending.size = 0) (now : Nat) :
    s.nextJob now = none := by
  have hrows : s.pending.rows = [] := List.eq_nil_of_length_eq_zero (s.pending.length_rows.trans h)
  unfold nextJob
  rw [hrows]
  rfl

theorem exists_of_earlier {jobs : List QueuedJob} {best : Option QueuedJob}
    (h : best ≠ none ∨ jobs ≠ []) : ∃ job, jobs.foldl earlier best = some job := by
  induction jobs generalizing best with
  | nil =>
    cases best with
    | none => simp at h
    | some job => exact ⟨job, rfl⟩
  | cons j rest ih =>
    refine ih (.inl ?_)
    cases best with
    | none => simp [earlier]
    | some b =>
      unfold earlier
      by_cases hfirst : precedes j b = true <;> simp [hfirst]

theorem exists_nextJob {s : LaneState} {now : Nat} (hactive : s.active.size = 0)
    (hready : ∀ job ∈ s.pending.rows, job.readyAt ≤ now) (hpending : s.pending.size ≠ 0) :
    ∃ job, s.nextJob now = some job := by
  have hall : s.pending.rows.filter (s.isClaimable now) = s.pending.rows := by
    refine List.filter_eq_self.2 fun job hjob => ?_
    simp [isClaimable, hready job hjob, Table.contains_of_size_eq_zero hactive]
  have hrows : s.pending.rows ≠ [] := by
    intro hnil
    rw [← Table.length_rows, hnil] at hpending
    exact hpending rfl
  unfold nextJob
  rw [hall]
  exact exists_of_earlier (.inr hrows)

def claimed (s : LaneState) (job : QueuedJob) (leaseUntil : Nat) : LaneState :=
  { s with
    seq := s.seq + 1
    pending := s.pending.erase job.payload.id
    active := s.active.insert job.payload.id ⟨job, s.seq + 1, leaseUntil⟩ }

theorem claim_of_nextJob {s : LaneState} {now : Nat} (lease : Timespan) {job : QueuedJob}
    (h : s.nextJob now = some job) :
    s.claim now lease = (some ⟨job.payload, s.seq + 1, job.attemptsMade, job.maxAttempts⟩,
      s.claimed job (now + lease.nanos)) := by
  simp only [claim, h, claimed]

theorem claim_of_idle {s : LaneState} {now : Nat} (lease : Timespan) (h : s.nextJob now = none) :
    s.claim now lease = (none, s) := by
  simp only [claim, h]

theorem complete_claimed {s : LaneState} {job : QueuedJob} (leaseUntil : Nat)
    (hactive : s.active.size = 0) (hpending : s.pending.contains job.payload.id = true) :
    ((s.claimed job leaseUntil).complete job.payload.id (s.seq + 1)).1 = true ∧
      ((s.claimed job leaseUntil).complete job.payload.id (s.seq + 1)).2.pending.size + 1 =
        s.pending.size ∧
      ((s.claimed job leaseUntil).complete job.payload.id (s.seq + 1)).2.active.size = 0 ∧
      ((s.claimed job leaseUntil).complete job.payload.id (s.seq + 1)).2.failed = s.failed := by
  have hfree := Table.contains_of_size_eq_zero hactive job.payload.id
  have hclaim : (s.claimed job leaseUntil).active.find? job.payload.id =
      some ⟨job, s.seq + 1, leaseUntil⟩ := by
    simp [claimed, Table.find?_insert]
  have hinsert := Table.size_insert (r := (⟨job, s.seq + 1, leaseUntil⟩ : ActiveJob)) hfree
  have hactive' : ((s.claimed job leaseUntil).active.erase job.payload.id).size + 1 =
      (s.claimed job leaseUntil).active.size :=
    Table.size_erase (Table.contains_eq_true.2 ⟨_, hclaim⟩)
  have hpending' := Table.size_erase hpending
  unfold complete
  rw [takeActive_of_owns hclaim rfl]
  refine ⟨rfl, hpending', ?_, rfl⟩
  change ((s.claimed job leaseUntil).active.erase job.payload.id).size = 0
  have hsize : (s.claimed job leaseUntil).active.size = s.active.size + 1 := hinsert
  omega

theorem add_carries {P : JobPayload → Prop} {s : LaneState} (hs : s.Carries P) {job : JobPayload}
    (hj : P job) (now : Nat) (options : LaneOptions) (delay : Timespan) :
    (s.add now job options delay).2.Carries P := by
  unfold add
  split
  · exact hs
  · refine ⟨fun {id j} hf => ?_, hs.active⟩
    rw [Table.find?_insert] at hf
    split at hf
    next hid =>
      obtain rfl := Option.some.inj hf
      exact ⟨hid.symm, hj⟩
    next => exact hs.pending hf

theorem defer_carries {P : JobPayload → Prop} {s : LaneState} (hP : AboutWork P)
    (hs : s.Carries P) (now : Nat) (id : String) (delay : Timespan) :
    (s.defer now id delay).2.Carries P := by
  unfold defer
  cases hfind : s.pending.find? id with
  | none => exact hs
  | some job =>
    refine ⟨fun {id' j} hf => ?_, hs.active⟩
    rw [Table.find?_modify] at hf
    split at hf
    next hid =>
      obtain ⟨j', hj', rfl⟩ := Option.map_eq_some_iff.1 hf
      obtain ⟨hkey, hp⟩ := hs.pending hj'
      have hsame : j'.payload.SameWork (deferJob now delay j').payload := ⟨rfl, rfl, rfl⟩
      exact ⟨hkey, hP hsame hp⟩
    next => exact hs.pending hf

theorem claim_carries {P : JobPayload → Prop} {s : LaneState} (hs : s.Carries P) (now : Nat)
    (lease : Timespan) : (s.claim now lease).2.Carries P := by
  cases h : s.nextJob now with
  | none => rw [claim_of_idle lease h]; exact hs
  | some job =>
    rw [claim_of_nextJob lease h]
    have hjob := hs.pending (nextJob_eq_some hs h).1
    refine ⟨fun {id j} hf => ?_, fun {id a} hf => ?_⟩
    · simp only [claimed, Table.find?_erase] at hf
      split at hf
      · cases hf
      · exact hs.pending hf
    · simp only [claimed, Table.find?_insert] at hf
      split at hf
      next hid =>
        obtain rfl := Option.some.inj hf
        exact ⟨hid.symm, hjob.2⟩
      next => exact hs.active hf

theorem unclaim_carries {P : JobPayload → Prop} {s : LaneState} (hs : s.Carries P) (id : String) :
    (s.unclaim id).Carries P := by
  refine ⟨hs.pending, fun {id' a} hf => ?_⟩
  simp only [unclaim, Table.find?_erase] at hf
  split at hf
  · cases hf
  · exact hs.active hf

theorem complete_carries {P : JobPayload → Prop} {s : LaneState} (hs : s.Carries P) (id : String)
    (token : Nat) : (s.complete id token).2.Carries P := by
  rcases complete_cases s id token with ⟨-, heq⟩ | ⟨a, -, -, heq⟩
  · rw [heq]
    exact hs
  · rw [heq]
    have hu := unclaim_carries hs id
    exact ⟨hu.pending, hu.active⟩

theorem Settled.carries {P : JobPayload → Prop} {s s' : LaneState} {id : String} {token : Nat}
    {update : JobPayload → JobPayload} {d : Disposition} (h : Settled s id token update d s')
    (hs : s.Carries P) (hupdate : ∀ p, p.id = id → P p → P (update p)) : s'.Carries P := by
  cases h with
  | stale => exact hs
  | released ha ht hjob h =>
    obtain ⟨hkey, hp⟩ := hs.active ha
    exact h.carries (unclaim_carries hs id) (hjob ▸ hupdate _ hkey hp)

theorem recoverJob_carries {P : JobPayload → Prop} (hP : AboutWork P) {s : LaneState}
    (hs : s.Carries P) (clock : Clock) (id : String) : (recoverJob clock s id).2.Carries P := by
  cases ha : s.active.find? id with
  | none => rw [recoverJob_of_not_active clock ha]; exact hs
  | some a =>
    obtain ⟨d, s', heq, job, hjob, hr⟩ := recoverJob_of_active clock ha
    rw [heq]
    exact hr.carries (unclaim_carries hs id)
      (hjob ▸ hP (stalledPayload_sameWork _) (hs.active ha).2)

theorem recoverAll_preserves {I : LaneState → Prop} {clock : Clock}
    (hstep : ∀ s id, I s → I (recoverJob clock s id).2) (ids : List String) {s : LaneState} (h : I s) :
    I (recoverAll clock s ids).2 := by
  induction ids generalizing s with
  | nil => exact h
  | cons id rest ih => exact ih (hstep s id h)

theorem recoverAll_carries {P : JobPayload → Prop} (hP : AboutWork P) (clock : Clock)
    (ids : List String) {s : LaneState} (hs : s.Carries P) :
    (recoverAll clock s ids).2.Carries P :=
  recoverAll_preserves (I := Carries P) (fun _ id hs => recoverJob_carries hP hs clock id) ids hs

end LaneState

end SyncCascade
