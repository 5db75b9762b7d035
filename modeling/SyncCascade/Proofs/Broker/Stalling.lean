import Mathlib.Data.List.Nodup
import SyncCascade.Proofs.Broker.Keeping

/-!
# Stalled jobs

A recovery takes back one expired claim after another. What becomes of a job depends only on its own
attempts and on whether a newer job is pending under its identifier, and the recovery of one job changes
neither for another. So the claims may be visited in any order.
-/

namespace SyncCascade

abbrev ActiveJob.id (a : ActiveJob) : String := a.job.payload.id

namespace LaneState

variable {P : JobPayload → Prop} {s s' s'' : LaneState} {clock : Clock} {a : ActiveJob}
variable {jobs jobs' : List ActiveJob}

/-- What becomes of a claimed job that is taken back. -/
def fate (s : LaneState) (a : ActiveJob) : Disposition :=
  if a.job.attemptsMade + 1 < a.job.maxAttempts then
    if s.pending.contains a.id then .superseded else .retrying .zero
  else .failed

def stallReport (s : LaneState) (a : ActiveJob) : StalledJob := ⟨stalledPayload a.job.payload, s.fate a⟩

/-- The stalled job when it is pending again, under the given number. -/
def restarted (clock : Clock) (a : ActiveJob) (number : Nat) : QueuedJob where
  payload := stalledPayload a.job.payload
  attemptsMade := a.job.attemptsMade + 1
  maxAttempts := a.job.maxAttempts
  backoff := a.job.backoff
  readyAt := clock.elapsed
  seq := number

def stallRecord (clock : Clock) (a : ActiveJob) : FailedJob where
  payload := stalledPayload a.job.payload
  attemptsMade := a.job.attemptsMade + 1
  error := "job stalled"
  failedAt := clock.wall

theorem fate_cases (s : LaneState) (a : ActiveJob) :
    (s.fate a = .retrying .zero ∧ a.job.attemptsMade + 1 < a.job.maxAttempts ∧
      s.pending.contains a.id = false) ∨
    (s.fate a = .superseded ∧ a.job.attemptsMade + 1 < a.job.maxAttempts ∧
      s.pending.contains a.id = true) ∨
    (s.fate a = .failed ∧ a.job.maxAttempts ≤ a.job.attemptsMade + 1) := by
  unfold fate
  by_cases hleft : a.job.attemptsMade + 1 < a.job.maxAttempts
  · rw [if_pos hleft]
    cases htwin : s.pending.contains a.id with
    | false => exact .inl ⟨rfl, hleft, rfl⟩
    | true => exact .inr (.inl ⟨rfl, hleft, rfl⟩)
  · rw [if_neg hleft]
    exact .inr (.inr ⟨rfl, Nat.not_lt.1 hleft⟩)

theorem fate_congr (h : s'.pending.find? a.id = s.pending.find? a.id) : s'.fate a = s.fate a := by
  unfold fate Table.contains
  rw [h]

theorem consumeAttempt_stalled (s : LaneState) (clock : Clock) (a : ActiveJob) :
    s.consumeAttempt clock { a.job with payload := stalledPayload a.job.payload } stalledError .zero =
      (s.fate a, match s.fate a with
        | .retrying _ => { s with
            seq := s.seq + 1
            pending := s.pending.insert a.id (restarted clock a (s.seq + 1)) }
        | .superseded => s
        | .failed => { s with failed := s.failed ++ [stallRecord clock a] }) := by
  have hid : (stalledPayload a.job.payload).id = a.id := rfl
  unfold consumeAttempt
  rcases fate_cases s a with ⟨hfate, hleft, htwin⟩ | ⟨hfate, hleft, htwin⟩ | ⟨hfate, hspent⟩
  · simp only [hfate, if_pos hleft, requeue, hid, htwin]
    rfl
  · simp only [hfate, if_pos hleft, requeue, hid, htwin]
    rfl
  · simp only [hfate, if_neg (Nat.not_lt.2 hspent)]
    rfl

/-- On the way from `s` to `s'` exactly these claimed jobs were taken back. -/
structure Swept (clock : Clock) (s : LaneState) (jobs : List ActiveJob) (s' : LaneState) : Prop where
  active : ∀ id, s'.active.find? id =
    if id ∈ jobs.map ActiveJob.id then none else s.active.find? id
  restarts : ∀ a ∈ jobs, s.fate a = .retrying .zero → ∃ number, s.seq < number ∧ number ≤ s'.seq ∧
    s'.pending.find? a.id = some (restarted clock a number)
  others : ∀ id, (∀ a ∈ jobs, a.id = id → s.fate a ≠ .retrying .zero) →
    s'.pending.find? id = s.pending.find? id
  failed : s'.failed = s.failed ++ (jobs.filter fun a => s.fate a = .failed).map (stallRecord clock)
  completed : s'.completed = s.completed
  seq : s'.seq = s.seq + jobs.countP fun a => s.fate a = .retrying .zero

theorem swept_nil : s.Swept clock [] s := by
  constructor <;> simp

theorem recoverJob_swept (ha : s.active.find? a.id = some a) :
    (recoverJob clock s a.id).1 = some (s.stallReport a) ∧
      s.Swept clock [a] (recoverJob clock s a.id).2 := by
  have hunclaim : ∀ id, (s.unclaim a.id).active.find? id =
      if id ∈ [a].map ActiveJob.id then none else s.active.find? id := by
    intro id
    simp only [unclaim, Table.find?_erase, List.map_cons, List.map_nil, List.mem_singleton]
  have hsame : (s.unclaim a.id).fate a = s.fate a := rfl
  rw [recoverJob_eq clock ha, consumeAttempt_stalled, hsame]
  refine ⟨rfl, ?_⟩
  rcases fate_cases s a with ⟨hfate, -, -⟩ | ⟨hfate, -, -⟩ | ⟨hfate, -⟩
  · rw [hfate]
    constructor
    case active => exact hunclaim
    case restarts =>
      rintro b hb -
      obtain rfl := List.mem_singleton.1 hb
      refine ⟨s.seq + 1, Nat.lt_succ_self _, Nat.le_refl _, ?_⟩
      exact (Table.find?_insert ..).trans (if_pos rfl)
    case others =>
      intro id hid
      have hne : id ≠ a.id := fun h => hid a List.mem_cons_self h.symm hfate
      exact (Table.find?_insert ..).trans (if_neg hne)
    all_goals simp [unclaim, hfate]
  · rw [hfate]
    constructor
    case active => exact hunclaim
    all_goals simp [unclaim, hfate]
  · rw [hfate]
    constructor
    case active => exact hunclaim
    all_goals simp [unclaim, hfate]

theorem Swept.fate_eq (h : s.Swept clock jobs s') (hnot : a.id ∉ jobs.map ActiveJob.id) :
    s'.fate a = s.fate a :=
  fate_congr (h.others a.id fun _ hb hid => absurd (hid ▸ List.mem_map_of_mem hb) hnot)

theorem Swept.cons (h : s.Swept clock [a] s') (h' : s'.Swept clock jobs s'')
    (hnot : a.id ∉ jobs.map ActiveJob.id) : s.Swept clock (a :: jobs) s'' := by
  -- The first recovery touches no identifier but its own, so the fates of the others are as before.
  have hfate : ∀ b ∈ jobs, s'.fate b = s.fate b := by
    intro b hb
    refine h.fate_eq fun hmem => hnot ?_
    exact List.mem_singleton.1 hmem ▸ List.mem_map_of_mem hb
  have hseq := h.seq
  have hseq' := h'.seq
  constructor
  case active =>
    intro id
    rw [h'.active, h.active]
    simp only [List.map_cons, List.map_nil, List.mem_cons, List.not_mem_nil, or_false]
    by_cases hid : id = a.id <;> simp [hid]
  case restarts =>
    intro b hb hretry
    rcases List.mem_cons.1 hb with rfl | hb
    · obtain ⟨number, hlow, hhigh, hpending⟩ := h.restarts b List.mem_cons_self hretry
      refine ⟨number, hlow, by omega, ?_⟩
      rw [h'.others b.id fun c hc hid => absurd (hid ▸ List.mem_map_of_mem hc) hnot, hpending]
    · obtain ⟨number, hlow, hhigh, hpending⟩ := h'.restarts b hb ((hfate b hb).trans hretry)
      exact ⟨number, by omega, hhigh, hpending⟩
  case others =>
    intro id hid
    rw [h'.others id fun b hb heq => hfate b hb ▸ hid b (List.mem_cons_of_mem _ hb) heq]
    exact h.others id fun b hb heq => hid b (List.mem_singleton.1 hb ▸ List.mem_cons_self) heq
  case failed =>
    have hrest : (jobs.filter fun b => s'.fate b = .failed) = jobs.filter fun b => s.fate b = .failed :=
      List.filter_congr fun _ hb => by rw [hfate _ hb]
    rw [h'.failed, h.failed, hrest, List.append_assoc, ← List.map_append, ← List.filter_append,
      List.singleton_append]
  case completed => exact h'.completed.trans h.completed
  case seq =>
    have hrest : (jobs.countP fun b => s'.fate b = .retrying .zero) =
        jobs.countP fun b => s.fate b = .retrying .zero :=
      List.countP_congr fun _ hb => by rw [hfate _ hb]
    have hsplit : (a :: jobs).countP (fun b => s.fate b = .retrying .zero) =
        [a].countP (fun b => s.fate b = .retrying .zero) +
          jobs.countP fun b => s.fate b = .retrying .zero := by
      rw [← List.countP_append, List.singleton_append]
    omega

/-- A recovery of claimed jobs reports each of them and takes back exactly these. -/
theorem recoverAll_swept (hs : s.Carries fun _ => True) (hnodup : (jobs.map ActiveJob.id).Nodup)
    (hjobs : ∀ a ∈ jobs, s.active.find? a.id = some a) :
    (recoverAll clock s (jobs.map ActiveJob.id)).1 = jobs.map s.stallReport ∧
      s.Swept clock jobs (recoverAll clock s (jobs.map ActiveJob.id)).2 := by
  induction jobs generalizing s with
  | nil => exact ⟨rfl, swept_nil⟩
  | cons a rest ih =>
    obtain ⟨hnot, hrest⟩ := List.nodup_cons.1 hnodup
    obtain ⟨hreport, hswept⟩ : _ ∧ s.Swept clock [a] _ := recoverJob_swept (hjobs a List.mem_cons_self)
    have hs' := recoverJob_carries aboutWork_true hs clock a.id
    have hne : ∀ b ∈ rest, b.id ∉ [a].map ActiveJob.id := by
      intro b hb hmem
      exact hnot (List.mem_singleton.1 hmem ▸ List.mem_map_of_mem hb)
    obtain ⟨hreports, hswept'⟩ := ih hs' hrest fun b hb => by
      rw [hswept.active, if_neg (hne b hb)]
      exact hjobs b (List.mem_cons_of_mem _ hb)
    refine ⟨?_, hswept.cons hswept' hnot⟩
    have hlater : rest.map (recoverJob clock s a.id).2.stallReport = rest.map s.stallReport :=
      List.map_congr_left fun b hb => by rw [stallReport, hswept.fate_eq (hne b hb), stallReport]
    have hboth : (recoverAll clock s ((a :: rest).map ActiveJob.id)).1 =
        (recoverJob clock s a.id).1.toList ++
          (recoverAll clock (recoverJob clock s a.id).2 (rest.map ActiveJob.id)).1 := rfl
    rw [hboth, hreport, hreports, hlater]
    rfl

/-- The claimed jobs whose lease has run out, in the order in which the claims are visited. -/
def expiredJobs (now : Nat) (visited : List (String × ActiveJob)) : List ActiveJob :=
  (visited.filter fun e => e.2.leaseUntil ≤ now).map Prod.snd

theorem expiredJobs_entries (s : LaneState) (now : Nat) :
    expiredJobs now s.active.entries = s.active.rows.filter fun a => a.leaseUntil ≤ now := by
  unfold expiredJobs Table.rows
  rw [List.filter_map]
  rfl

theorem Carries.map_id_expiredJobs (hs : s.Carries P) {visited : List (String × ActiveJob)}
    (hvisited : visited.Perm s.active.entries) (now : Nat) :
    (expiredJobs now visited).map ActiveJob.id =
      (visited.filter fun e => e.2.leaseUntil ≤ now).map Prod.fst := by
  rw [expiredJobs, List.map_map]
  refine List.map_congr_left fun e he => ?_
  have hmem : e ∈ s.active.entries := hvisited.mem_iff.1 (List.mem_of_mem_filter he)
  exact (hs.active ((Table.find?_eq_some_iff ..).2 hmem)).1

theorem Carries.find?_expiredJobs (hs : s.Carries P) {visited : List (String × ActiveJob)}
    (hvisited : visited.Perm s.active.entries) {now : Nat} (ha : a ∈ expiredJobs now visited) :
    s.active.find? a.id = some a ∧ a.leaseUntil ≤ now := by
  obtain ⟨⟨key, a'⟩, he, rfl⟩ := List.mem_map.1 ha
  obtain ⟨hmem, hexpired⟩ := List.mem_filter.1 he
  have hfind := (Table.find?_eq_some_iff ..).2 (hvisited.mem_iff.1 hmem)
  exact ⟨(hs.active hfind).1.symm ▸ hfind, of_decide_eq_true hexpired⟩

theorem Carries.nodup_expiredJobs (hs : s.Carries P) {visited : List (String × ActiveJob)}
    (hvisited : visited.Perm s.active.entries) (now : Nat) :
    ((expiredJobs now visited).map ActiveJob.id).Nodup := by
  rw [hs.map_id_expiredJobs hvisited]
  have hkeys : (visited.map Prod.fst).Nodup := by
    refine (hvisited.map Prod.fst).nodup_iff.2 ?_
    rw [List.nodup_iff_pairwise_ne, List.pairwise_map]
    exact s.active.sorted.imp Key.ne_of_lt
  exact hkeys.sublist (List.filter_sublist.map _)

theorem sweep (hs : s.Carries fun _ => True) {visited : List (String × ActiveJob)}
    (hvisited : visited.Perm s.active.entries) (clock : Clock) :
    let swept := recoverAll clock s
      ((visited.filter fun e => e.2.leaseUntil ≤ clock.elapsed).map Prod.fst)
    swept.1 = (expiredJobs clock.elapsed visited).map s.stallReport ∧
      s.Swept clock (expiredJobs clock.elapsed visited) swept.2 := by
  rw [← hs.map_id_expiredJobs hvisited]
  exact recoverAll_swept hs (hs.nodup_expiredJobs hvisited _) fun a ha =>
    (hs.find?_expiredJobs hvisited ha).1

/-- The lanes differ in the numbers of these pending jobs, and in the order of the failed ones, at most. -/
structure Alike (jobs : List ActiveJob) (s s' : LaneState) : Prop where
  active : ∀ id, s.active.find? id = s'.active.find? id
  pending : ∀ id, s.pending.find? id = s'.pending.find? id ∨
    ∃ a ∈ jobs, a.id = id ∧ ∃ q number, s.pending.find? id = some q ∧
      s'.pending.find? id = some { q with seq := number }
  failed : s.failed.Perm s'.failed
  completed : s.completed = s'.completed
  seq : s.seq = s'.seq

theorem Swept.alike {s₁ s₂ : LaneState} (h : s.Swept clock jobs s₁) (h' : s.Swept clock jobs' s₂)
    (hperm : jobs.Perm jobs') :
    Alike (jobs.filter fun a => s.fate a = .retrying .zero) s₁ s₂ where
  active id := by
    rw [h.active, h'.active]
    simp only [(hperm.map ActiveJob.id).mem_iff]
  pending id := by
    by_cases hretried : ∃ a ∈ jobs, a.id = id ∧ s.fate a = .retrying .zero
    · obtain ⟨a, ha, rfl, hfate⟩ := hretried
      obtain ⟨number, -, -, hpending⟩ := h.restarts a ha hfate
      obtain ⟨number', -, -, hpending'⟩ := h'.restarts a (hperm.mem_iff.1 ha) hfate
      refine .inr ⟨a, List.mem_filter.2 ⟨ha, decide_eq_true hfate⟩, rfl, ?_⟩
      exact ⟨_, number', hpending, hpending'⟩
    · have hnone : ∀ a ∈ jobs, a.id = id → s.fate a ≠ .retrying .zero :=
        fun a ha hid hfate => hretried ⟨a, ha, hid, hfate⟩
      have hnone' : ∀ a ∈ jobs', a.id = id → s.fate a ≠ .retrying .zero :=
        fun a ha => hnone a (hperm.mem_iff.2 ha)
      exact .inl ((h.others id hnone).trans (h'.others id hnone').symm)
  failed := by
    rw [h.failed, h'.failed]
    exact ((hperm.filter _).map _).append_left _
  completed := h.completed.trans h'.completed.symm
  seq := by rw [h.seq, h'.seq, hperm.countP_eq]

/-- What has become of a claimed job that is taken back, on the way from `s` to `s'`. -/
inductive TakenBack (clock : Clock) (s s' : LaneState) (a : ActiveJob) : Disposition → Prop
  /-- It is pending again and ready. -/
  | retrying (hleft : a.job.attemptsMade + 1 < a.job.maxAttempts)
      (hfree : s.pending.contains a.id = false) (number : Nat)
      (hfresh : s.seq < number ∧ number ≤ s'.seq)
      (hpending : s'.pending.find? a.id = some (restarted clock a number)) :
      TakenBack clock s s' a (.retrying .zero)
  /-- The newer job with its identifier is the same as before. -/
  | superseded (hleft : a.job.attemptsMade + 1 < a.job.maxAttempts) (twin : QueuedJob)
      (htwin : s.pending.find? a.id = some twin) (hkept : s'.pending.find? a.id = some twin) :
      TakenBack clock s s' a .superseded
  | failed (hspent : a.job.maxAttempts ≤ a.job.attemptsMade + 1)
      (hrecord : ∃ records, s'.failed = s.failed ++ records ∧ stallRecord clock a ∈ records)
      (hkept : s'.pending.find? a.id = s.pending.find? a.id) :
      TakenBack clock s s' a .failed

theorem Swept.takenBack (h : s.Swept clock jobs s') (hnodup : (jobs.map ActiveJob.id).Nodup)
    (ha : a ∈ jobs) : TakenBack clock s s' a (s.fate a) := by
  have hself : ∀ b ∈ jobs, b.id = a.id → b = a := fun b hb hid =>
    List.inj_on_of_nodup_map hnodup hb ha hid
  have hkept (hfate : s.fate a ≠ .retrying .zero) : s'.pending.find? a.id = s.pending.find? a.id :=
    h.others a.id fun b hb hid => hself b hb hid ▸ hfate
  rcases fate_cases s a with ⟨hfate, hleft, hfree⟩ | ⟨hfate, hleft, htwin⟩ | ⟨hfate, hspent⟩
  · obtain ⟨number, hlow, hhigh, hpending⟩ := h.restarts a ha hfate
    rw [hfate]
    exact .retrying hleft hfree number ⟨hlow, hhigh⟩ hpending
  · obtain ⟨twin, htwin⟩ := Table.contains_eq_true.1 htwin
    have hkept := hkept (hfate ▸ nofun)
    rw [hfate]
    exact .superseded hleft twin htwin (hkept.trans htwin)
  · have hkept := hkept (hfate ▸ nofun)
    rw [hfate]
    refine .failed hspent ⟨_, h.failed, ?_⟩ hkept
    exact List.mem_map_of_mem (List.mem_filter.2 ⟨ha, decide_eq_true hfate⟩)

theorem Swept.active_eq_filter (hs : s.Carries P)
    (h : s.Swept clock (expiredJobs clock.elapsed s.active.entries) s') (id : String) :
    s'.active.find? id = (s.active.find? id).filter fun a => clock.elapsed < a.leaseUntil := by
  rw [h.active]
  cases ha : s.active.find? id with
  | none => exact ite_self _
  | some a =>
    have hkey := (hs.active ha).1
    by_cases hexpired : a.leaseUntil ≤ clock.elapsed
    · have hmem : a ∈ expiredJobs clock.elapsed s.active.entries := by
        rw [expiredJobs_entries]
        exact List.mem_filter.2 ⟨Table.mem_rows.2 ⟨id, ha⟩, decide_eq_true hexpired⟩
      rw [if_pos (List.mem_map.2 ⟨a, hmem, hkey⟩), Option.filter_some_neg]
      simpa using hexpired
    · have hnot : id ∉ (expiredJobs clock.elapsed s.active.entries).map ActiveJob.id := by
        intro hmem
        obtain ⟨b, hb, hid⟩ := List.mem_map.1 hmem
        obtain ⟨hfind, hlease⟩ := hs.find?_expiredJobs (.refl _) hb
        rw [hid, ha] at hfind
        exact hexpired (Option.some.inj hfind ▸ hlease)
      rw [if_neg hnot, Option.filter_some_pos]
      simpa using hexpired

/-- Whatever is claimed was claimed before, by the same token and until the same time. -/
def ClaimsNoMore (s s' : LaneState) : Prop :=
  ∀ ⦃id a⦄, s'.active.find? id = some a → s.active.find? id = some a

theorem claimsNoMore_of_active_eq (h : s'.active = s.active) : s.ClaimsNoMore s' :=
  fun _ _ ha => h ▸ ha

theorem ClaimsNoMore.trans (h : s.ClaimsNoMore s') (h' : s'.ClaimsNoMore s'') : s.ClaimsNoMore s'' :=
  fun _ _ ha => h (h' ha)

theorem unclaim_claimsNoMore (s : LaneState) (id : String) : s.ClaimsNoMore (s.unclaim id) := by
  intro id' a ha
  rw [unclaim, Table.find?_erase] at ha
  split at ha
  · cases ha
  · exact ha

theorem complete_claimsNoMore (s : LaneState) (id : String) (token : Nat) :
    s.ClaimsNoMore (s.complete id token).2 := by
  rcases complete_cases s id token with ⟨-, heq⟩ | ⟨a, -, -, heq⟩
  · rw [heq]
    exact claimsNoMore_of_active_eq rfl
  · rw [heq]
    exact unclaim_claimsNoMore s id

theorem Settled.claimsNoMore {id : String} {token : Nat} {update : JobPayload → JobPayload}
    {d : Disposition} (h : Settled s id token update d s') : s.ClaimsNoMore s' := by
  cases h with
  | stale => exact claimsNoMore_of_active_eq rfl
  | released ha ht hjob hr =>
    exact (unclaim_claimsNoMore s id).trans (claimsNoMore_of_active_eq hr.active_eq)

theorem recoverAll_claimsNoMore (clock : Clock) (ids : List String) :
    s.ClaimsNoMore (recoverAll clock s ids).2 :=
  recoverAll_preserves (I := s.ClaimsNoMore) (fun _ _ h => h.trans fun _ _ => recoverJob_active_of) ids
    (claimsNoMore_of_active_eq rfl)

theorem recoverStalled_of_leased (h : ∀ id a, s.active.find? id = some a → clock.elapsed < a.leaseUntil) :
    (s.recoverStalled clock).1 = [] := by
  have hnone : s.expired clock.elapsed = [] := by
    unfold expired
    rw [List.map_eq_nil_iff, List.filter_eq_nil_iff]
    intro e he
    have hlease := h e.1 e.2 ((Table.find?_eq_some_iff ..).2 he)
    simpa using hlease
  unfold recoverStalled
  rw [hnone]
  rfl

end LaneState

namespace Lanes

variable {l : Lanes} {lane : Lane}

theorem apply_claimsNoMore (l : Lanes) (clock : Clock) {c : BrokerCall}
    (h : ∀ lease, c ≠ .claim lane lease) :
    (l.get lane).ClaimsNoMore ((l.apply clock c).2.get lane) := by
  by_cases hlane : lane = c.lane
  · subst hlane
    cases c with
    | add lane job options delay =>
      simp only [apply, step_snd, BrokerCall.lane, get_set_self]
      refine LaneState.claimsNoMore_of_active_eq ?_
      unfold LaneState.add
      split <;> rfl
    | defer lane id delay =>
      simp only [apply, step_snd, BrokerCall.lane, get_set_self]
      refine LaneState.claimsNoMore_of_active_eq ?_
      unfold LaneState.defer
      split <;> rfl
    | claim lane lease => exact absurd rfl (h lease)
    | complete lane id token =>
      simp only [apply, step_snd, BrokerCall.lane, get_set_self]
      exact LaneState.complete_claimsNoMore ..
    | fail lane id token error =>
      simp only [apply, step_snd, BrokerCall.lane, get_set_self]
      exact (LaneState.fail_settled ..).claimsNoMore
    | retryLater lane payload token delay =>
      simp only [apply, step_snd, BrokerCall.lane, get_set_self]
      exact (LaneState.retryLater_settled ..).claimsNoMore
    | recoverStalled lane =>
      simp only [apply, step_snd, BrokerCall.lane, get_set_self]
      exact LaneState.recoverAll_claimsNoMore ..
    | counts lane => exact LaneState.claimsNoMore_of_active_eq rfl
    | failedJobs lane => exact LaneState.claimsNoMore_of_active_eq rfl
  · exact LaneState.claimsNoMore_of_active_eq (by rw [apply_get_of_ne l clock hlane])

theorem after_claimsNoMore {history : List TimedCall}
    (h : ∀ e ∈ history, ∀ lease, e.call ≠ .claim lane lease) :
    (l.get lane).ClaimsNoMore ((l.after history).get lane) := by
  induction history generalizing l with
  | nil => exact LaneState.claimsNoMore_of_active_eq rfl
  | cons e rest ih =>
    exact (apply_claimsNoMore l e.clock (h e List.mem_cons_self)).trans
      (ih fun e' he' => h e' (List.mem_cons_of_mem _ he'))

/-- After any history a recovery takes back exactly the claims whose lease has run out, and reports each job
once with one more stall. A reported job has used up one attempt: it is pending again and ready at once, or
at the end of the failed ones, or gone where a newer job is pending with its identifier, which stays as it
is. All other claims, all other pending jobs and the other lanes stay as they are. If the claims are visited
in another order, the reports are the same ones, and the lane differs at most in the numbers of the jobs
that are pending again and in the order of the new failed ones. Until the next claim of the lane, another
recovery at the same time reports nothing. -/
theorem recovery_exact (lane : Lane) (history : List TimedCall) (clock : Clock) :
    let l := empty.after history
    let s := l.get lane
    let recovery := l.apply clock (.recoverStalled lane)
    let s' := recovery.2.get lane
    let stalled := s.active.rows.filter fun a => a.leaseUntil ≤ clock.elapsed
    let restarting := stalled.filter fun a => s.fate a = .retrying .zero
    let failing := stalled.filter fun a => s.fate a = .failed
    ((∀ id, s'.active.find? id =
        (s.active.find? id).filter fun a => clock.elapsed < a.leaseUntil) ∧
      recovery.1 = stalled.map (fun a => ⟨LaneState.stalledPayload a.job.payload, s.fate a⟩) ∧
      (recovery.1.map fun j => j.payload.id).Nodup) ∧
    (∀ a ∈ stalled, LaneState.TakenBack clock s s' a (s.fate a)) ∧
    ((∀ id, (∀ a ∈ restarting, a.id ≠ id) → s'.pending.find? id = s.pending.find? id) ∧
      s'.failed = s.failed ++ failing.map (LaneState.stallRecord clock) ∧
      s'.completed = s.completed ∧
      ∀ lane', lane' ≠ lane → recovery.2.get lane' = l.get lane') ∧
    (∀ visited : List (String × ActiveJob), visited.Perm s.active.entries →
      let keys := (visited.filter fun e => e.2.leaseUntil ≤ clock.elapsed).map Prod.fst
      let other := LaneState.recoverAll clock s keys
      other.1.Perm recovery.1 ∧ LaneState.Alike restarting s' other.2 ∧
        ∃ records, other.2.failed = s.failed ++ records ∧
          records.Perm (failing.map (LaneState.stallRecord clock))) ∧
    (∀ (between : List TimedCall) (clock' : Clock),
      (∀ e ∈ between, ∀ lease, e.call ≠ .claim lane lease) → clock'.elapsed = clock.elapsed →
      ((recovery.2.after between).apply clock' (.recoverStalled lane)).1 = []) := by
  intro l s recovery s' stalled restarting failing
  have hs : s.Carries fun _ => True := keyed_after history lane
  have hstate : s' = (s.recoverStalled clock).2 := get_set_self ..
  have hexpired : LaneState.expiredJobs clock.elapsed s.active.entries = stalled :=
    LaneState.expiredJobs_entries ..
  obtain ⟨hreports, hswept⟩ := LaneState.sweep hs (.refl _) clock
  have hnodup := hs.nodup_expiredJobs (.refl _) clock.elapsed
  change recovery.1 = _ at hreports
  change s.Swept clock _ (s.recoverStalled clock).2 at hswept
  rw [← hstate] at hswept
  have hactive := hswept.active_eq_filter hs
  rw [hexpired] at hreports hswept hnodup
  refine ⟨⟨hactive, hreports, ?_⟩, fun a ha => hswept.takenBack hnodup ha,
    ⟨fun id hid => ?_, hswept.failed, hswept.completed, fun lane' hne => ?_⟩, fun visited hvisited => ?_,
    fun between clock' hbetween helapsed => ?_⟩
  · rw [hreports, List.map_map]
    exact hnodup
  · refine hswept.others id fun a ha heq hfate => ?_
    exact hid a (List.mem_filter.2 ⟨ha, decide_eq_true hfate⟩) heq
  · exact apply_get_of_ne l clock hne
  · obtain ⟨hreports', hswept'⟩ := LaneState.sweep hs hvisited clock
    have hperm : (LaneState.expiredJobs clock.elapsed visited).Perm stalled := by
      rw [← hexpired]
      exact (hvisited.filter _).map _
    refine ⟨?_, hswept.alike hswept' hperm.symm, _, hswept'.failed, (hperm.filter _).map _⟩
    rw [hreports', hreports]
    exact hperm.map _
  · have hleased : (((recovery.2.after between).get lane).recoverStalled clock').1 = [] := by
      refine LaneState.recoverStalled_of_leased fun id a ha => ?_
      have hkept := hactive id
      rw [after_claimsNoMore hbetween ha, eq_comm, Option.filter_eq_some_iff] at hkept
      exact helapsed ▸ of_decide_eq_true hkept.2
    exact hleased

end Lanes

end SyncCascade
