import SyncCascade.Proofs.Broker.Waiting

/-!
# The order of claims

Pending jobs are claimed in the order of the times at which they become ready, and of their numbers where
these are equal. No two pending jobs of a lane have the same number, so the order is strict, and whoever
looks at the pending jobs finds it, in whatever order they are looked at.
-/

namespace SyncCascade

namespace LaneState

def Before (a b : QueuedJob) : Prop := a.readyAt < b.readyAt ∨ a.readyAt = b.readyAt ∧ a.seq < b.seq

theorem precedes_iff {a b : QueuedJob} : precedes a b = true ↔ Before a b := by
  simp [precedes, Before]

def ordered (jobs : List QueuedJob) : List QueuedJob := jobs.mergeSort fun a b => !precedes b a

variable {s s' : LaneState} {jobs jobs' : List QueuedJob} {job : QueuedJob} {now : Nat}

theorem ordered_perm (jobs : List QueuedJob) : (ordered jobs).Perm jobs := List.mergeSort_perm ..

theorem pairwise_ordered (hdistinct : jobs.Pairwise fun a b => a.seq ≠ b.seq) :
    (ordered jobs).Pairwise Before := by
  have hsorted : (ordered jobs).Pairwise fun a b => (!precedes b a) = true := by
    refine List.pairwise_mergeSort ?_ ?_ jobs
    · intro a b c hab hbc
      rw [Bool.not_eq_true', ← Bool.not_eq_true, precedes_iff] at hab hbc ⊢
      unfold Before at *
      omega
    · intro a b
      rw [Bool.or_eq_true, Bool.not_eq_true', Bool.not_eq_true', ← Bool.not_eq_true,
        ← Bool.not_eq_true, precedes_iff, precedes_iff]
      unfold Before
      omega
  have hne := (ordered_perm jobs).symm.pairwise hdistinct Ne.symm
  refine (hsorted.and hne).imp fun ⟨hle, hseq⟩ => ?_
  rw [Bool.not_eq_true', ← Bool.not_eq_true, precedes_iff] at hle
  unfold Before at *
  omega

theorem eq_of_before (hperm : jobs.Perm jobs') (h : jobs.Pairwise Before) (h' : jobs'.Pairwise Before) :
    jobs = jobs' := by
  refine hperm.eq_of_pairwise (fun a b _ _ hab hba => ?_) h h'
  unfold Before at *
  omega

theorem before_irrefl (a : QueuedJob) : ¬ Before a a := by
  unfold Before
  omega

theorem not_before_trans {a b c : QueuedJob} (hab : ¬ Before a b) (hbc : ¬ Before b c) :
    ¬ Before a c := by
  unfold Before at *
  omega

theorem earlier_eq_some (best : Option QueuedJob) (first : QueuedJob) :
    ∃ b, earlier best first = some b ∧ ∀ j, best = some j ∨ first = j → ¬ Before j b := by
  cases best with
  | none =>
    refine ⟨first, rfl, fun j hj => ?_⟩
    exact hj.resolve_left nofun ▸ before_irrefl first
  | some b =>
    cases hfirst : precedes first b with
    | true =>
      refine ⟨first, if_pos hfirst, fun j hj => ?_⟩
      rw [precedes_iff] at hfirst
      rcases hj with hj | rfl
      · obtain rfl := Option.some.inj hj
        unfold Before at *
        omega
      · exact before_irrefl first
    | false =>
      refine ⟨b, if_neg (hfirst ▸ Bool.false_ne_true), fun j hj => ?_⟩
      rw [← Bool.not_eq_true, precedes_iff] at hfirst
      rcases hj with hj | rfl
      · exact Option.some.inj hj ▸ before_irrefl b
      · exact hfirst

/-- A search for the earliest job ends with one that comes after no other. -/
theorem not_before_of_earlier {best : Option QueuedJob} (h : jobs.foldl earlier best = some job)
    {j : QueuedJob} (hj : best = some j ∨ j ∈ jobs) : ¬ Before j job := by
  induction jobs generalizing best j with
  | nil =>
    obtain rfl : j = job := Option.some.inj ((hj.resolve_right List.not_mem_nil).symm.trans h)
    exact before_irrefl j
  | cons first rest ih =>
    obtain ⟨b, hb, hbest⟩ := earlier_eq_some best first
    rw [List.foldl_cons, hb] at h
    have hkept : ¬ Before b job := ih h (.inl rfl)
    rcases hj with hj | hj
    · exact not_before_trans (hbest j (.inl hj)) hkept
    · rcases List.mem_cons.1 hj with rfl | hj
      · exact not_before_trans (hbest j (.inr rfl)) hkept
      · exact ih h (.inr hj)

/-- The earliest of the jobs that are selected is the first one that is selected in the order of claims,
in whatever order they are looked at. -/
theorem earliest_eq_find? (hperm : jobs.Perm jobs') (h : jobs.Pairwise Before) (p : QueuedJob → Bool) :
    (jobs'.filter p).foldl earlier none = jobs.find? p := by
  cases hfind : jobs.find? p with
  | none =>
    have hnone : jobs'.filter p = [] := by
      refine List.filter_eq_nil_iff.2 fun j hj => ?_
      exact List.find?_eq_none.1 hfind j (hperm.mem_iff.2 hj)
    rw [hnone]
    rfl
  | some job =>
    obtain ⟨hp, before, after, rfl, hbefore⟩ := List.find?_eq_some_iff_append.1 hfind
    have hmem : job ∈ jobs'.filter p :=
      List.mem_filter.2 ⟨hperm.mem_iff.1 (List.mem_append_right _ List.mem_cons_self), hp⟩
    have hsome : ∃ j, (jobs'.filter p).foldl earlier none = some j :=
      exists_of_earlier (.inr (List.ne_nil_of_mem hmem))
    obtain ⟨j, hj⟩ := hsome
    rw [hj]
    -- `job` is not before the one that is found, so that one does not stand behind it in the list.
    have hno := not_before_of_earlier hj (.inr hmem)
    obtain ⟨hj', hpj⟩ := List.mem_filter.1 ((mem_of_earlier hj).resolve_left nofun)
    rcases List.mem_append.1 (hperm.mem_iff.2 hj') with hjbefore | hjafter
    · have hnot := hbefore j hjbefore
      rw [hpj] at hnot
      cases hnot
    · rcases List.mem_cons.1 hjafter with rfl | hjafter
      · rfl
      · have hlater := (List.pairwise_cons.1 (List.pairwise_append.1 h).2.1).1 j hjafter
        exact absurd hlater hno

/-- The pending jobs have different numbers, none beyond the last one drawn. -/
structure Numbered (s : LaneState) : Prop where
  drawn : ∀ {id q}, s.pending.find? id = some q → q.seq ≤ s.seq
  distinct : ∀ {id id' q q'}, s.pending.find? id = some q → s.pending.find? id' = some q' →
    q.seq = q'.seq → id = id'

namespace Numbered

theorem rows_distinct (h : s.Numbered) : s.pending.rows.Pairwise fun a b => a.seq ≠ b.seq := by
  rw [Table.rows, List.pairwise_map]
  refine s.pending.sorted.imp_of_mem fun {e e'} he he' hlt heq => Key.ne_of_lt hlt ?_
  exact h.distinct ((Table.find?_eq_some_iff ..).2 he) ((Table.find?_eq_some_iff ..).2 he') heq

theorem of_back (h : s.Numbered) (hseq : s.seq ≤ s'.seq)
    (hback : ∀ {id q'}, s'.pending.find? id = some q' → ∃ q, s.pending.find? id = some q ∧ q.seq = q'.seq) :
    s'.Numbered where
  drawn hq' := by
    obtain ⟨q, hq, heq⟩ := hback hq'
    exact heq ▸ Nat.le_trans (h.drawn hq) hseq
  distinct hq hq' heq := by
    obtain ⟨q₁, hq₁, heq₁⟩ := hback hq
    obtain ⟨q₂, hq₂, heq₂⟩ := hback hq'
    exact h.distinct hq₁ hq₂ (heq₁.trans (heq.trans heq₂.symm))

theorem of_pending_eq (h : s.Numbered) (hseq : s.seq ≤ s'.seq) (hpending : s'.pending = s.pending) :
    s'.Numbered :=
  h.of_back hseq fun hq' => ⟨_, hpending ▸ hq', rfl⟩

theorem insert (h : s.Numbered) (id : String) (hnumber : job.seq = s.seq + 1)
    (hseq : s'.seq = s.seq + 1) (hpending : s'.pending = s.pending.insert id job) : s'.Numbered where
  drawn {id' q} hq := by
    rw [hpending, Table.find?_insert] at hq
    split at hq
    · obtain rfl := Option.some.inj hq
      omega
    · have := h.drawn hq
      omega
  distinct {id₁ id₂ q₁ q₂} hq₁ hq₂ heq := by
    rw [hpending, Table.find?_insert] at hq₁ hq₂
    split at hq₁ <;> split at hq₂
    next h₁ h₂ => exact h₁.trans h₂.symm
    next =>
      have := h.drawn hq₂
      obtain rfl := Option.some.inj hq₁
      omega
    next =>
      have := h.drawn hq₁
      obtain rfl := Option.some.inj hq₂
      omega
    next => exact h.distinct hq₁ hq₂ heq

end Numbered

theorem numbered_empty : empty.Numbered where
  drawn h := nomatch h
  distinct h := nomatch h

theorem add_numbered (h : s.Numbered) (now : Nat) (job : JobPayload) (options : LaneOptions)
    (delay : Timespan) : (s.add now job options delay).2.Numbered := by
  unfold add
  split
  · exact h
  · exact h.insert job.id rfl rfl rfl

theorem defer_numbered (h : s.Numbered) (now : Nat) (id : String) (delay : Timespan) :
    (s.defer now id delay).2.Numbered := by
  unfold defer
  split
  · refine h.of_back (Nat.le_refl _) fun {id' q'} hq' => ?_
    rw [Table.find?_modify] at hq'
    split at hq'
    · obtain ⟨q, hq, rfl⟩ := Option.map_eq_some_iff.1 hq'
      exact ⟨q, hq, rfl⟩
    · exact ⟨q', hq', rfl⟩
  · exact h

theorem claim_numbered (h : s.Numbered) (now : Nat) (lease : Timespan) :
    (s.claim now lease).2.Numbered := by
  unfold claim
  split
  · exact h
  · refine h.of_back (Nat.le_succ _) fun {id' q'} hq' => ⟨q', ?_, rfl⟩
    rw [Table.find?_erase] at hq'
    split at hq'
    · cases hq'
    · exact hq'

theorem unclaim_numbered (h : s.Numbered) (id : String) : (s.unclaim id).Numbered :=
  h.of_pending_eq (Nat.le_refl _) rfl

theorem complete_numbered (h : s.Numbered) (id : String) (token : Nat) :
    (s.complete id token).2.Numbered := by
  rcases complete_cases s id token with ⟨-, heq⟩ | ⟨a, -, -, heq⟩
  · rw [heq]
    exact h
  · rw [heq]
    exact (unclaim_numbered h id).of_pending_eq (Nat.le_refl _) rfl

theorem requeue_numbered (h : s.Numbered) (now : Nat) (job : QueuedJob) (delay : Timespan) :
    (s.requeue now job delay).2.Numbered := by
  unfold requeue
  split
  · exact h
  · exact h.insert job.payload.id rfl rfl rfl

theorem consumeAttempt_numbered (h : s.Numbered) (clock : Clock) (job : QueuedJob) (error : String)
    (delay : Timespan) : (s.consumeAttempt clock job error delay).2.Numbered := by
  unfold consumeAttempt
  dsimp only
  split
  · exact requeue_numbered h ..
  · exact h.of_pending_eq (Nat.le_refl _) rfl

theorem fail_numbered (h : s.Numbered) (clock : Clock) (id : String) (token : Nat) (error : String) :
    (s.fail clock id token error).2.Numbered := by
  rcases fail_cases s clock id token error with ⟨-, heq⟩ | ⟨a, -, -, heq⟩
  · rw [heq]
    exact h
  · rw [heq]
    exact consumeAttempt_numbered (unclaim_numbered h id) ..

theorem retryLater_numbered (h : s.Numbered) (now : Nat) (payload : JobPayload) (token : Nat)
    (delay : Timespan) : (s.retryLater now payload token delay).2.Numbered := by
  rcases retryLater_cases s now payload token delay with ⟨-, heq⟩ | ⟨a, -, -, heq⟩
  · rw [heq]
    exact h
  · rw [heq]
    exact requeue_numbered (unclaim_numbered h _) ..

theorem recoverJob_numbered (h : s.Numbered) (clock : Clock) (id : String) :
    (recoverJob clock s id).2.Numbered := by
  cases ha : s.active.find? id with
  | none =>
    rw [recoverJob_of_not_active clock ha]
    exact h
  | some a =>
    rw [recoverJob_eq clock ha]
    exact consumeAttempt_numbered (unclaim_numbered h id) ..

theorem recoverAll_numbered (clock : Clock) (ids : List String) (h : s.Numbered) :
    (recoverAll clock s ids).2.Numbered :=
  recoverAll_preserves (I := Numbered) (fun _ id hs => recoverJob_numbered hs clock id) ids h

theorem pendingJobs_perm (s : LaneState) : s.pendingJobs.Perm s.pending.rows := ordered_perm _

theorem Numbered.pairwise_pendingJobs (h : s.Numbered) : s.pendingJobs.Pairwise Before :=
  pairwise_ordered h.rows_distinct

/-- The pending jobs are listed in the same order, in whatever order they are looked at. -/
theorem Numbered.ordered_eq (h : s.Numbered) (hperm : jobs.Perm s.pending.rows) :
    ordered jobs = s.pendingJobs :=
  eq_of_before ((ordered_perm jobs).trans (hperm.trans (pendingJobs_perm s).symm))
    (pairwise_ordered (hperm.symm.pairwise h.rows_distinct Ne.symm)) h.pairwise_pendingJobs

theorem Numbered.earliest_eq (h : s.Numbered) (hperm : jobs.Perm s.pending.rows)
    (p : QueuedJob → Bool) : (jobs.filter p).foldl earlier none = s.pendingJobs.find? p :=
  earliest_eq_find? ((pendingJobs_perm s).trans hperm.symm) h.pairwise_pendingJobs p

theorem Numbered.nextJob_eq (h : s.Numbered) (now : Nat) :
    s.nextJob now = s.pendingJobs.find? (s.isClaimable now) := h.earliest_eq (.refl _) _

/-- What a claim of the job hands out with the token. -/
def handedOut (job : QueuedJob) (token : Nat) : ClaimedJob :=
  ⟨job.payload, token, job.attemptsMade, job.maxAttempts⟩

theorem Numbered.claim_eq (h : s.Numbered) (now : Nat) (lease : Timespan) :
    (s.claim now lease).1 =
      (s.pendingJobs.find? (s.isClaimable now)).map fun job => handedOut job (s.seq + 1) := by
  rw [← h.nextJob_eq]
  unfold claim
  cases s.nextJob now <;> rfl

/-- No job is pending whose identifier is claimed. -/
def Unshadowed (s : LaneState) : Prop :=
  ∀ ⦃id⦄, s.pending.contains id = true → s.active.contains id = false

def readyJobs (s : LaneState) (now : Nat) : List QueuedJob :=
  s.pendingJobs.takeWhile fun job => job.readyAt ≤ now

/-- The lane after claims with these leases. -/
def claims (now : Nat) (s : LaneState) : List Timespan → LaneState
  | [] => s
  | lease :: rest => claims now (s.claim now lease).2 rest

variable {P : JobPayload → Prop}

theorem claimed_unshadowed (hfree : s.Unshadowed) (job : QueuedJob) (leaseUntil : Nat) :
    (s.claimed job leaseUntil).Unshadowed := by
  intro id hid
  simp only [claimed, Table.contains_erase, Bool.and_eq_true, Bool.not_eq_true',
    decide_eq_false_iff_not] at hid
  simp [claimed, hid.1, hfree hid.2]

theorem isClaimable_of_unshadowed (hs : s.Carries P) (hfree : s.Unshadowed)
    (hjob : job ∈ s.pendingJobs) (now : Nat) : s.isClaimable now job = decide (job.readyAt ≤ now) := by
  obtain ⟨id, hid⟩ := Table.mem_rows.1 ((pendingJobs_perm s).mem_iff.1 hjob)
  have hnot := hfree (Table.contains_eq_true.2 ⟨job, hid⟩)
  rw [← (hs.pending hid).1] at hnot
  simp [isClaimable, hnot]

/-- The first job of the order that is ready is the first one of all, or none is ready. -/
theorem find?_ready (h : jobs.Pairwise Before) (now : Nat) :
    jobs.find? (fun job => decide (job.readyAt ≤ now)) =
      (jobs.takeWhile fun job => job.readyAt ≤ now).head? := by
  cases jobs with
  | nil => rfl
  | cons first rest =>
    by_cases hready : first.readyAt ≤ now
    · simp [hready]
    · have hlate : ∀ j ∈ rest, ¬ j.readyAt ≤ now := by
        intro j hj
        have hbefore := (List.pairwise_cons.1 h).1 j hj
        unfold Before at hbefore
        omega
      simpa [hready] using hlate

theorem nextJob_of_unshadowed (hs : s.Carries P) (hn : s.Numbered) (hfree : s.Unshadowed) (now : Nat) :
    s.nextJob now = (s.readyJobs now).head? := by
  rw [hn.nextJob_eq, readyJobs, ← find?_ready hn.pairwise_pendingJobs, ← List.head?_filter,
    ← List.head?_filter]
  exact congrArg List.head? (List.filter_congr fun j hj => isClaimable_of_unshadowed hs hfree hj now)

theorem pendingJobs_claimed (hs : s.Carries P) (hn : s.Numbered) {rest : List QueuedJob}
    (hjobs : s.pendingJobs = job :: rest) {leaseUntil : Nat}
    (hn' : (s.claimed job leaseUntil).Numbered) :
    (s.claimed job leaseUntil).pendingJobs = rest := by
  have hordered := hn.pairwise_pendingJobs
  have hperm := pendingJobs_perm s
  rw [hjobs] at hordered hperm
  obtain ⟨id, hid⟩ := Table.mem_rows.1 (hperm.mem_iff.1 List.mem_cons_self)
  rw [← (hs.pending hid).1] at hid
  have hrest : rest.Perm (s.claimed job leaseUntil).pending.rows :=
    (hperm.trans (Table.rows_erase_perm hid)).cons_inv
  exact eq_of_before ((pendingJobs_perm _).trans hrest.symm) hn'.pairwise_pendingJobs
    (List.pairwise_cons.1 hordered).2

theorem readyJobs_claimed (hs : s.Carries P) (hn : s.Numbered) {rest : List QueuedJob}
    (hjobs : s.readyJobs now = job :: rest) {leaseUntil : Nat}
    (hn' : (s.claimed job leaseUntil).Numbered) :
    (s.claimed job leaseUntil).readyJobs now = rest := by
  unfold readyJobs at hjobs ⊢
  cases hall : s.pendingJobs with
  | nil =>
    rw [hall] at hjobs
    cases hjobs
  | cons first others =>
    rw [hall, List.takeWhile_cons] at hjobs
    split at hjobs
    · obtain ⟨rfl, rfl⟩ := List.cons.inj hjobs
      rw [pendingJobs_claimed hs hn hall hn']
    · cases hjobs

/-- Each claim hands out the next of the jobs that are ready, and when there are no more it hands out
none. -/
theorem claims_eq (hs : s.Carries P) (hn : s.Numbered) (hfree : s.Unshadowed) (now : Nat)
    (leases : List Timespan) (lease : Timespan) :
    ((s.claims now leases).claim now lease).1 =
      ((s.readyJobs now)[leases.length]?).map fun job => handedOut job (s.seq + leases.length + 1) := by
  induction leases generalizing s with
  | nil =>
    have hnext := nextJob_of_unshadowed hs hn hfree now
    rw [claims, List.length_nil, ← List.head?_eq_getElem?, ← hnext]
    unfold claim
    cases s.nextJob now <;> rfl
  | cons first rest ih =>
    have hnext := nextJob_of_unshadowed hs hn hfree now
    rw [claims, List.length_cons]
    cases hready : s.readyJobs now with
    | nil =>
      rw [hready] at hnext
      rw [claim_of_idle first hnext, ih hs hn hfree, hready]
      rfl
    | cons job others =>
      rw [hready] at hnext
      have hs' := claim_carries hs now first
      have hn' := claim_numbered hn now first
      rw [claim_of_nextJob first hnext] at hs' hn' ⊢
      have hseq : (s.claimed job (now + first.nanos)).seq = s.seq + 1 := rfl
      rw [ih hs' hn' (claimed_unshadowed hfree job _), readyJobs_claimed hs hn hready hn', hseq,
        List.getElem?_cons_succ, Nat.add_assoc s.seq 1, Nat.add_comm 1]

theorem requeue_waits {delay d : Timespan} (h : (s.requeue now job delay).1 = .retrying d) :
    (s.requeue now job delay).2.Waits job.payload.id (now + d.nanos) := by
  unfold requeue at h ⊢
  cases hpending : s.pending.contains job.payload.id with
  | true =>
    rw [hpending] at h
    cases h
  | false =>
    rw [hpending] at h
    cases h
    exact ⟨_, (Table.find?_insert ..).trans (if_pos rfl), Nat.le_refl _⟩

theorem consumeAttempt_waits {clock : Clock} {error : String} {delay d : Timespan}
    (h : (s.consumeAttempt clock job error delay).1 = .retrying d) :
    (s.consumeAttempt clock job error delay).2.Waits job.payload.id (clock.elapsed + d.nanos) := by
  unfold consumeAttempt at h ⊢
  by_cases hleft : job.attemptsMade + 1 < job.maxAttempts
  · simp only [if_pos hleft] at h ⊢
    exact requeue_waits h
  · simp only [if_neg hleft] at h
    cases h

theorem add_waits {job : JobPayload} {options : LaneOptions} {delay : Timespan}
    (h : (s.add now job options delay).1 = .added) :
    (s.add now job options delay).2.Waits job.id (now + delay.nanos) := by
  unfold add at h ⊢
  cases hpending : s.pending.contains job.id with
  | true =>
    rw [hpending] at h
    cases h
  | false => exact ⟨_, (Table.find?_insert ..).trans (if_pos rfl), Nat.le_refl _⟩

theorem defer_moves {id : String} {q : QueuedJob} (hq : s.pending.find? id = some q) (now : Nat)
    (delay : Timespan) : ∃ q', (s.defer now id delay).2.pending.find? id = some q' ∧
      q'.readyAt = max q.readyAt (now + delay.nanos) := by
  unfold defer
  rw [hq]
  refine ⟨deferJob now delay q, ?_, rfl⟩
  rw [Table.find?_modify, if_pos rfl, hq]
  rfl

theorem defer_waits {id : String} {delay : Timespan} {n : UInt32}
    (h : (s.defer now id delay).1 = .deferred n) :
    (s.defer now id delay).2.Waits id (now + delay.nanos) := by
  cases hq : s.pending.find? id with
  | none =>
    unfold defer at h
    rw [hq] at h
    cases h
  | some q =>
    obtain ⟨q', hq', hready⟩ := defer_moves hq now delay
    exact ⟨q', hq', hready ▸ Nat.le_max_right ..⟩

theorem fail_waits (hs : s.Carries P) {clock : Clock} {id : String} {token : Nat} {error : String}
    {d : Timespan} (h : (s.fail clock id token error).1 = .retrying d) :
    (s.fail clock id token error).2.Waits id (clock.elapsed + d.nanos) := by
  rcases fail_cases s clock id token error with ⟨-, heq⟩ | ⟨a, ha, -, heq⟩
  · rw [heq] at h
    cases h
  · rw [heq] at h ⊢
    have hwaits := consumeAttempt_waits h
    rwa [(hs.active ha).1] at hwaits

theorem retryLater_waits {payload : JobPayload} {token : Nat} {delay d : Timespan}
    (h : (s.retryLater now payload token delay).1 = .retrying d) :
    (s.retryLater now payload token delay).2.Waits payload.id (now + d.nanos) := by
  rcases retryLater_cases s now payload token delay with ⟨-, heq⟩ | ⟨a, -, -, heq⟩
  · rw [heq] at h
    cases h
  · rw [heq] at h ⊢
    exact requeue_waits h

theorem recoverJob_waits {clock : Clock} {id : String} {j : StalledJob} {d : Timespan}
    (hj : j ∈ (recoverJob clock s id).1.toList) (hd : j.disposition = .retrying d) :
    (recoverJob clock s id).2.Waits j.payload.id (clock.elapsed + d.nanos) := by
  cases ha : s.active.find? id with
  | none =>
    rw [recoverJob_of_not_active clock ha] at hj
    cases hj
  | some a =>
    rw [recoverJob_eq clock ha] at hj ⊢
    obtain rfl := List.mem_singleton.1 hj
    exact consumeAttempt_waits hd

theorem recoverAll_waits {clock : Clock} {ids : List String} {j : StalledJob} {d : Timespan}
    (hj : j ∈ (recoverAll clock s ids).1) (hd : j.disposition = .retrying d) :
    (recoverAll clock s ids).2.Waits j.payload.id (clock.elapsed + d.nanos) := by
  induction ids generalizing s with
  | nil => cases hj
  | cons id rest ih =>
    rw [recoverAll, List.mem_append] at hj
    rcases hj with hj | hj
    · exact (recoverAll_retains clock _ rest).waits (recoverJob_waits hj hd)
    · exact ih hj

end LaneState

/-- The answer leaves a job with the identifier pending, not to be claimed before the delay has passed. -/
def BrokerCall.Postpones (lane : Lane) (id : String) (delay : Timespan) : (c : BrokerCall) → c.Reply → Prop
  | add lane' job _ d, reply => lane' = lane ∧ job.id = id ∧ reply = .added ∧ d = delay
  | defer lane' id' d, reply => lane' = lane ∧ id' = id ∧ (∃ n, reply = .deferred n) ∧ d = delay
  | fail lane' id' _ _, reply => lane' = lane ∧ id' = id ∧ reply = .retrying delay
  | retryLater lane' payload _ _, reply => lane' = lane ∧ payload.id = id ∧ reply = .retrying delay
  | recoverStalled lane', reply =>
    lane' = lane ∧ ∃ j ∈ reply, j.payload.id = id ∧ j.disposition = .retrying delay
  | _, _ => False

/-- No clock goes back. -/
def Timely (history : List TimedCall) : Prop :=
  history.Pairwise fun e e' => e.clock.elapsed ≤ e'.clock.elapsed

namespace Lanes

variable {l : Lanes} {lane : Lane} {id : String}

/-- The pending jobs of every lane have different numbers. -/
def Numbered (l : Lanes) : Prop := ∀ lane, (l.get lane).Numbered

theorem numbered_set (h : l.Numbered) {s : LaneState} (hs : s.Numbered) : (l.set lane s).Numbered := by
  intro lane'
  rw [get_set]
  split
  · exact hs
  · exact h lane'

theorem numbered_apply (l : Lanes) (clock : Clock) (c : BrokerCall) (h : l.Numbered) :
    (l.apply clock c).2.Numbered := by
  cases c with
  | add lane job options delay => exact numbered_set h (LaneState.add_numbered (h lane) ..)
  | defer lane id delay => exact numbered_set h (LaneState.defer_numbered (h lane) ..)
  | claim lane lease => exact numbered_set h (LaneState.claim_numbered (h lane) ..)
  | complete lane id token => exact numbered_set h (LaneState.complete_numbered (h lane) ..)
  | fail lane id token error => exact numbered_set h (LaneState.fail_numbered (h lane) ..)
  | retryLater lane payload token delay =>
    exact numbered_set h (LaneState.retryLater_numbered (h lane) ..)
  | recoverStalled lane => exact numbered_set h (LaneState.recoverAll_numbered _ _ (h lane))
  | counts lane => exact h
  | failedJobs lane => exact h

theorem numbered_after (history : List TimedCall) : (empty.after history).Numbered := by
  refine after_preserves numbered_apply (fun lane => ?_) history
  rw [get_empty]
  exact LaneState.numbered_empty

theorem after_claims (clock : Clock) (leases : List Timespan) :
    (l.after (leases.map fun lease => ⟨clock, .claim lane lease⟩)).get lane =
      (l.get lane).claims clock.elapsed leases := by
  induction leases generalizing l with
  | nil => rfl
  | cons lease rest ih =>
    rw [List.map_cons, after, ih]
    simp only [apply, step_snd, get_set_self]
    rfl

theorem waits_of_postpones (hl : l.Keyed) {clock : Clock} {c : BrokerCall} {delay : Timespan}
    (h : c.Postpones lane id delay (l.apply clock c).1) :
    ((l.apply clock c).2.get lane).Waits id (clock.elapsed + delay.nanos) := by
  cases c with
  | add lane' job options d =>
    obtain ⟨rfl, rfl, hreply, rfl⟩ := h
    simp only [apply, step_snd, get_set_self]
    exact LaneState.add_waits hreply
  | defer lane' id' d =>
    obtain ⟨rfl, rfl, ⟨n, hreply⟩, rfl⟩ := h
    simp only [apply, step_snd, get_set_self]
    exact LaneState.defer_waits hreply
  | fail lane' id' token error =>
    obtain ⟨rfl, rfl, hreply⟩ := h
    simp only [apply, step_snd, get_set_self]
    exact LaneState.fail_waits (hl lane') hreply
  | retryLater lane' payload token d =>
    obtain ⟨rfl, rfl, hreply⟩ := h
    simp only [apply, step_snd, get_set_self]
    exact LaneState.retryLater_waits hreply
  | recoverStalled lane' =>
    obtain ⟨rfl, j, hj, rfl, hd⟩ := h
    simp only [apply, step_snd, get_set_self]
    exact LaneState.recoverAll_waits hj hd
  | claim | complete | counts | failedJobs => cases h

/-- As long as no clock goes back, no claim of a job that waits comes before it is due, nor does any
later claim of its identifier. -/
theorem due_of_claim (hl : l.Keyed) {due : Nat} (h : (l.get lane).Waits id due)
    {history : List TimedCall} {clock : Clock} {c : BrokerCall}
    (htimely : Timely (history ++ [⟨clock, c⟩]))
    (hclaim : c.claimCount lane id ((l.after history).apply clock c).1 = 1) : due ≤ clock.elapsed := by
  -- Either the identifier waits on after the first call, or that call claims it and is not early itself.
  induction history generalizing l with
  | nil => exact due_of_claimCount hl h hclaim
  | cons e rest ih =>
    obtain ⟨hfirst, hrest⟩ := List.pairwise_cons.1 htimely
    rcases apply_waits e.clock e.call h with hwaits | hnow
    · exact ih (keyed_apply l e.clock e.call hl) hwaits hrest hclaim
    · exact Nat.le_trans (due_of_claimCount hl h hnow)
        (hfirst _ (List.mem_append_right _ (List.mem_singleton.2 rfl)))

/-- After any history the pending jobs of a lane are listed by the times at which they become ready, and by
their numbers where these are equal, in whatever order the lane goes through them; and a claim hands out the
first job of the list that is ready and whose identifier is not claimed, or none if there is none. So where
nothing is claimed, claims at one time hand out the jobs that are ready one after another, and then none.
And as long as no clock goes back, no claim hands out an identifier before the delay has passed with which
its job was added, deferred or handed back; a deferral moves the time at which it becomes ready to a later
one only. -/
theorem claims_in_order (lane : Lane) (history : List TimedCall) :
    let l := empty.after history
    let s := l.get lane
    (s.pendingJobs.Perm s.pending.rows ∧ s.pendingJobs.Pairwise LaneState.Before) ∧
    (∀ (clock : Clock) (lease : Timespan) (looked : List QueuedJob), looked.Perm s.pending.rows →
      LaneState.ordered looked = s.pendingJobs ∧
      let claimable := fun job : QueuedJob =>
        decide (job.readyAt ≤ clock.elapsed) && !s.active.contains job.payload.id
      let next := (looked.filter claimable).foldl LaneState.earlier none
      next = s.pendingJobs.find? claimable ∧
      (l.apply clock (.claim lane lease)).1 =
        (next.map fun job => LaneState.handedOut job (s.seq + 1)) ∧
      ((l.apply clock (.claim lane lease)).1 = none ↔
        ∀ job ∈ s.pendingJobs, claimable job = false)) ∧
    (s.active.size = 0 → ∀ (clock : Clock) (leases : List Timespan) (lease : Timespan),
      let claims := leases.map fun lease => ⟨clock, .claim lane lease⟩
      let ready := s.pendingJobs.takeWhile fun job => job.readyAt ≤ clock.elapsed
      ((l.after claims).apply clock (.claim lane lease)).1 =
        (ready[leases.length]?).map fun job =>
          LaneState.handedOut job (s.seq + leases.length + 1)) ∧
    (∀ (clock : Clock) (c : BrokerCall) (id : String) (delay : Timespan),
      c.Postpones lane id delay (l.apply clock c).1 →
      ∀ (between : List TimedCall) (clock' : Clock) (c' : BrokerCall),
        Timely (⟨clock, c⟩ :: between ++ [⟨clock', c'⟩]) →
        c'.claimCount lane id (((l.apply clock c).2.after between).apply clock' c').1 = 1 →
        clock.elapsed + delay.nanos ≤ clock'.elapsed) ∧
    (∀ (clock : Clock) (id : String) (delay : Timespan) (q : QueuedJob),
      s.pending.find? id = some q →
      ∃ q', ((l.apply clock (.defer lane id delay)).2.get lane).pending.find? id = some q' ∧
        q'.readyAt = max q.readyAt (clock.elapsed + delay.nanos)) := by
  intro l s
  have hl : l.Keyed := keyed_after history
  have hn : s.Numbered := numbered_after history lane
  refine ⟨⟨s.pendingJobs_perm, hn.pairwise_pendingJobs⟩, fun clock lease looked hlooked => ?_,
    fun hactive clock leases lease => ?_, fun clock c id delay hpostpones between clock' c' htimely => ?_,
    fun clock id delay q hq => ?_⟩
  · have hnext := hn.earliest_eq hlooked (s.isClaimable clock.elapsed)
    have hclaim := hn.claim_eq clock.elapsed lease
    simp only [apply, step_fst]
    refine ⟨hn.ordered_eq hlooked, hnext, hclaim.trans (congrArg _ hnext.symm), ?_⟩
    rw [hclaim, Option.map_eq_none_iff, List.find?_eq_none]
    simp only [Bool.not_eq_true, LaneState.isClaimable]
  · have hfree : s.Unshadowed := fun id _ => Table.contains_of_size_eq_zero hactive id
    have hclaims := LaneState.claims_eq (hl lane) hn hfree clock.elapsed leases lease
    simp only [apply, step_fst]
    rwa [after_claims]
  · have hwaits := waits_of_postpones hl hpostpones
    exact due_of_claim (keyed_apply l clock c hl) hwaits (List.pairwise_cons.1 htimely).2
  · simp only [apply, step_snd, get_set_self]
    exact LaneState.defer_moves hq clock.elapsed delay

end Lanes

end SyncCascade
