import Mathlib.Data.List.Basic
import SyncCascade.Proofs.Broker.Keeping

/-!
# Tokens

Claims draw their tokens from the growing sequence of their lane, so no two are equal. `Passes` keeps
the account of a lane over any calls: the tokens issued since and those that stood before are the
tokens taken back since and those that stand now. A token is taken back by a completion, a failure or
a repetition that owns its job, or by a recovery that reports it. Where a token owns no job, a
settlement with it leaves everything as it was.
-/

namespace SyncCascade

namespace LaneState

def tokens (s : LaneState) : List Nat := s.active.rows.map ActiveJob.token

def pendingIds (s : LaneState) : List String := s.pending.rows.map fun j => j.payload.id

def activeIds (s : LaneState) : List String := s.active.rows.map fun a => a.job.payload.id

/-- The tokens that owned the stalled jobs of a reply. -/
def stalledTokens (s : LaneState) (jobs : List StalledJob) : List Nat :=
  jobs.filterMap fun j => (s.active.find? j.payload.id).map ActiveJob.token

theorem tokens_unclaim {s : LaneState} {id : String} {a : ActiveJob}
    (ha : s.active.find? id = some a) : s.tokens.Perm (a.token :: (s.unclaim id).tokens) :=
  (Table.rows_erase_perm ha).map ActiveJob.token

theorem tokens_claimed {s : LaneState} {job : QueuedJob}
    (hfree : s.active.contains job.payload.id = false) (leaseUntil : Nat) :
    (s.claimed job leaseUntil).tokens.Perm ((s.seq + 1) :: s.tokens) :=
  (Table.rows_insert_perm hfree).map ActiveJob.token

theorem mem_tokens_of_owns {s : LaneState} {id : String} {token : Nat}
    (h : s.owns id token = true) : token ∈ s.tokens := by
  obtain ⟨a, ha, rfl⟩ := owns_eq_true.1 h
  exact List.mem_map_of_mem (Table.mem_rows.2 ⟨id, ha⟩)

variable {P : JobPayload → Prop} {s s' s'' : LaneState}

theorem Carries.pendingIds_nodup (hs : s.Carries P) : s.pendingIds.Nodup :=
  Table.nodup_map_rows fun _ _ hj => (hs.pending hj).1

theorem Carries.activeIds_nodup (hs : s.Carries P) : s.activeIds.Nodup :=
  Table.nodup_map_rows fun _ _ ha => (hs.active ha).1

theorem Carries.contains_of_mem_activeIds (hs : s.Carries P) {id : String}
    (h : id ∈ s.activeIds) : s.active.contains id = true := by
  obtain ⟨a, ha, rfl⟩ := List.mem_map.1 h
  obtain ⟨key, hkey⟩ := Table.mem_rows.1 ha
  exact Table.contains_eq_true.2 ⟨a, (hs.active hkey).1 ▸ hkey⟩

/-- On the way from `s` to `s'` the lane issued and took back these tokens. -/
structure Passes (s : LaneState) (issued taken : List Nat) (s' : LaneState) : Prop where
  seq_le : s.seq ≤ s'.seq
  /-- A new token is beyond all numbers drawn before. -/
  fresh : ∀ t ∈ issued, s.seq < t ∧ t ≤ s'.seq
  ordered : issued.Pairwise (· < ·)
  balance : (issued ++ s.tokens).Perm (taken ++ s'.tokens)

theorem passes_of_active_eq (hactive : s'.active = s.active) (hseq : s.seq ≤ s'.seq) :
    s.Passes [] [] s' where
  seq_le := hseq
  fresh _ h := by cases h
  ordered := .nil
  balance := by
    unfold tokens
    rw [hactive]

theorem Passes.refl (s : LaneState) : s.Passes [] [] s := passes_of_active_eq rfl (Nat.le_refl _)

theorem Passes.trans {issued issued' taken taken' : List Nat} (h : s.Passes issued taken s')
    (h' : s'.Passes issued' taken' s'') :
    s.Passes (issued ++ issued') (taken ++ taken') s'' where
  seq_le := Nat.le_trans h.seq_le h'.seq_le
  fresh t ht := by
    rcases List.mem_append.1 ht with ht | ht
    · exact ⟨(h.fresh t ht).1, Nat.le_trans (h.fresh t ht).2 h'.seq_le⟩
    · exact ⟨Nat.lt_of_le_of_lt h.seq_le (h'.fresh t ht).1, (h'.fresh t ht).2⟩
  ordered := by
    refine List.pairwise_append.2 ⟨h.ordered, h'.ordered, fun t ht t' ht' => ?_⟩
    exact Nat.lt_of_le_of_lt (h.fresh t ht).2 (h'.fresh t' ht').1
  balance := by
    rw [List.perm_iff_count]
    intro t
    have hcount := h.balance.count_eq t
    have hcount' := h'.balance.count_eq t
    simp only [List.count_append] at hcount hcount' ⊢
    omega

theorem add_passes (s : LaneState) (now : Nat) (job : JobPayload) (options : LaneOptions)
    (delay : Timespan) : s.Passes [] [] (s.add now job options delay).2 := by
  unfold add
  split
  · exact .refl s
  · exact passes_of_active_eq rfl (Nat.le_succ _)

theorem defer_passes (s : LaneState) (now : Nat) (id : String) (delay : Timespan) :
    s.Passes [] [] (s.defer now id delay).2 := by
  unfold defer
  split
  · exact passes_of_active_eq rfl (Nat.le_refl _)
  · exact .refl s

theorem claim_passes (hs : s.Carries P) (now : Nat) (lease : Timespan) :
    s.Passes ((s.claim now lease).1.map ClaimedJob.token).toList [] (s.claim now lease).2 := by
  cases h : s.nextJob now with
  | none =>
    rw [claim_of_idle lease h]
    exact .refl s
  | some job =>
    rw [claim_of_nextJob lease h]
    constructor
    case seq_le => exact Nat.le_succ _
    case fresh =>
      intro t ht
      obtain rfl := List.mem_singleton.1 ht
      exact ⟨Nat.lt_succ_self _, Nat.le_refl _⟩
    case ordered => exact List.pairwise_singleton _ _
    case balance => exact (tokens_claimed (nextJob_eq_some hs h).2.1 _).symm

theorem passes_unclaim {id : String} {a : ActiveJob} (ha : s.active.find? id = some a) :
    s.Passes [] [a.token] (s.unclaim id) where
  seq_le := Nat.le_refl _
  fresh _ h := by cases h
  ordered := .nil
  balance := tokens_unclaim ha

theorem complete_passes (s : LaneState) (id : String) (token : Nat) :
    s.Passes [] (if (s.complete id token).1 = true then [token] else []) (s.complete id token).2 := by
  rcases complete_cases s id token with ⟨-, heq⟩ | ⟨a, ha, rfl, heq⟩
  · rw [heq]
    exact .refl s
  · rw [heq]
    exact (passes_unclaim ha).trans (passes_of_active_eq rfl (Nat.le_refl _))

theorem Released.passes {job : QueuedJob} {d : Disposition} (h : Released s job d s') :
    s.Passes [] [] s' := by
  refine passes_of_active_eq h.active_eq ?_
  cases h with
  | retrying => exact Nat.le_succ _
  | superseded => exact Nat.le_refl _
  | failed => exact Nat.le_refl _

theorem Settled.passes {id : String} {token : Nat} {update : JobPayload → JobPayload}
    {d : Disposition} (h : Settled s id token update d s') :
    s.Passes [] (if s.owns id token = true then [token] else []) s' := by
  cases h with
  | stale h =>
    rw [h]
    exact .refl s
  | released ha ht hjob h =>
    rw [if_pos (owns_eq_true.2 ⟨_, ha, ht⟩), ← ht]
    exact (passes_unclaim ha).trans h.passes

theorem recoverJob_passes (clock : Clock) (hs : s.Carries P) (id : String) :
    s.Passes [] (s.stalledTokens (recoverJob clock s id).1.toList) (recoverJob clock s id).2 := by
  cases ha : s.active.find? id with
  | none =>
    rw [recoverJob_of_not_active clock ha]
    exact .refl s
  | some a =>
    obtain ⟨d, s', heq, job, -, hr⟩ := recoverJob_of_active clock ha
    have htoken : s.stalledTokens [⟨stalledPayload a.job.payload, d⟩] = [a.token] := by
      have hkey : (stalledPayload a.job.payload).id = id := (hs.active ha).1
      simp [stalledTokens, hkey, ha]
    rw [heq]
    simp only [Option.toList_some, htoken]
    exact (passes_unclaim ha).trans hr.passes

theorem recoverJob_reports (clock : Clock) (hs : s.Carries P) {id : String} {j : StalledJob}
    (hj : j ∈ (recoverJob clock s id).1.toList) : ∃ a, s.active.find? j.payload.id = some a := by
  cases ha : s.active.find? id with
  | none =>
    rw [recoverJob_of_not_active clock ha] at hj
    cases hj
  | some a =>
    obtain ⟨d, s', heq, -⟩ := recoverJob_of_active clock ha
    rw [heq] at hj
    obtain rfl := List.mem_singleton.1 hj
    have hkey : (stalledPayload a.job.payload).id = id := (hs.active ha).1
    exact ⟨a, hkey ▸ ha⟩

theorem recoverAll_reports (clock : Clock) (ids : List String) (hs : s.Carries fun _ => True)
    {j : StalledJob} (hj : j ∈ (recoverAll clock s ids).1) :
    ∃ a, s.active.find? j.payload.id = some a := by
  induction ids generalizing s with
  | nil => cases hj
  | cons id rest ih =>
    rw [recoverAll, List.mem_append] at hj
    rcases hj with hj | hj
    · exact recoverJob_reports clock hs hj
    · obtain ⟨a, ha⟩ := ih (recoverJob_carries aboutWork_true hs clock id) hj
      exact ⟨a, recoverJob_active_of ha⟩

/-- What is still claimed after another recovery was claimed by the same token before. -/
theorem stalledTokens_congr {jobs : List StalledJob}
    (hkept : ∀ {id a}, s'.active.find? id = some a → s.active.find? id = some a)
    (hjobs : ∀ j ∈ jobs, ∃ a, s'.active.find? j.payload.id = some a) :
    s.stalledTokens jobs = s'.stalledTokens jobs := by
  refine List.filterMap_congr fun j hj => ?_
  obtain ⟨a, ha⟩ := hjobs j hj
  rw [ha, hkept ha]

theorem recoverAll_passes (clock : Clock) (ids : List String) (hs : s.Carries fun _ => True) :
    s.Passes [] (s.stalledTokens (recoverAll clock s ids).1) (recoverAll clock s ids).2 := by
  induction ids generalizing s with
  | nil => exact .refl s
  | cons id rest ih =>
    have hs' := recoverJob_carries aboutWork_true hs clock id
    have hrest : s.stalledTokens (recoverAll clock (recoverJob clock s id).2 rest).1 = _ :=
      stalledTokens_congr recoverJob_active_of fun j hj => recoverAll_reports clock rest hs' hj
    have hsplit : s.stalledTokens (recoverAll clock s (id :: rest)).1 =
        s.stalledTokens (recoverJob clock s id).1.toList ++
          s.stalledTokens (recoverAll clock (recoverJob clock s id).2 rest).1 :=
      List.filterMap_append
    rw [hsplit, hrest]
    exact (recoverJob_passes clock hs id).trans (ih hs')

end LaneState

namespace BrokerCall

def issued (lane : Lane) : (c : BrokerCall) → c.Reply → List Nat
  | claim lane' _, reply => if lane' = lane then (reply.map ClaimedJob.token).toList else []
  | _, _ => []

end BrokerCall

namespace Lanes

/-- The tokens whose claimed jobs the call takes out of the lane: by a completion that is
acknowledged, a failure or a repetition that owns its job, or a recovery that reports it. -/
def taken (l : Lanes) (lane : Lane) : (c : BrokerCall) → c.Reply → List Nat
  | .complete lane' _ token, reply => if lane' = lane ∧ reply = true then [token] else []
  | .fail lane' id token _, _ =>
    if lane' = lane ∧ (l.get lane).owns id token = true then [token] else []
  | .retryLater lane' payload token _, _ =>
    if lane' = lane ∧ (l.get lane).owns payload.id token = true then [token] else []
  | .recoverStalled lane', reply => if lane' = lane then (l.get lane).stalledTokens reply else []
  | _, _ => []

def issuedOver (lane : Lane) (l : Lanes) : List TimedCall → List Nat
  | [] => []
  | e :: rest => e.call.issued lane (l.apply e.clock e.call).1 ++
      issuedOver lane (l.apply e.clock e.call).2 rest

def takenOver (lane : Lane) (l : Lanes) : List TimedCall → List Nat
  | [] => []
  | e :: rest => l.taken lane e.call (l.apply e.clock e.call).1 ++
      takenOver lane (l.apply e.clock e.call).2 rest

theorem apply_passes {l : Lanes} (hl : l.Keyed) (lane : Lane) (clock : Clock) (c : BrokerCall) :
    (l.get lane).Passes (c.issued lane (l.apply clock c).1) (l.taken lane c (l.apply clock c).1)
      ((l.apply clock c).2.get lane) := by
  by_cases hlane : lane = c.lane
  · subst hlane
    cases c with
    | add lane job options delay =>
      simp only [BrokerCall.lane, apply, step_snd, get_set_self]
      exact LaneState.add_passes ..
    | defer lane id delay =>
      simp only [BrokerCall.lane, apply, step_snd, get_set_self]
      exact LaneState.defer_passes ..
    | claim lane lease =>
      simp only [BrokerCall.lane, apply, step_fst, step_snd, get_set_self, BrokerCall.issued,
        if_true]
      exact LaneState.claim_passes (hl lane) ..
    | complete lane id token =>
      simp only [BrokerCall.lane, apply, step_fst, step_snd, get_set_self, taken, true_and]
      exact LaneState.complete_passes ..
    | fail lane id token error =>
      simp only [BrokerCall.lane, apply, step_snd, get_set_self, taken, true_and]
      exact ((l.get lane).fail_settled clock id token error).passes
    | retryLater lane payload token delay =>
      simp only [BrokerCall.lane, apply, step_snd, get_set_self, taken, true_and]
      exact ((l.get lane).retryLater_settled clock.elapsed payload token delay).passes
    | recoverStalled lane =>
      simp only [BrokerCall.lane, apply, step_fst, step_snd, get_set_self, taken, if_true]
      exact LaneState.recoverAll_passes clock _ (hl lane)
    | counts lane => exact .refl _
    | failedJobs lane => exact .refl _
  · have hnone : c.issued lane (l.apply clock c).1 = [] ∧ l.taken lane c (l.apply clock c).1 = [] := by
      have hne := Ne.symm hlane
      cases c <;> simp only [BrokerCall.lane] at hne <;> simp [taken, BrokerCall.issued, hne]
    rw [apply_get_of_ne l clock hlane, hnone.1, hnone.2]
    exact .refl _

theorem after_passes {l : Lanes} (hl : l.Keyed) (lane : Lane) (history : List TimedCall) :
    (l.get lane).Passes (issuedOver lane l history) (takenOver lane l history)
      ((l.after history).get lane) := by
  induction history generalizing l with
  | nil => exact .refl _
  | cons e rest ih =>
    exact (apply_passes hl lane e.clock e.call).trans (ih (keyed_apply l e.clock e.call hl))

/-- What was issued on a fresh lane has been taken back or still stands. -/
theorem issuedOver_perm (lane : Lane) (history : List TimedCall) :
    (issuedOver lane empty history).Perm
      (takenOver lane empty history ++ ((empty.after history).get lane).tokens) := by
  have hbalance := (after_passes keyed_empty lane history).balance
  have hnone : (empty.get lane).tokens = [] := by
    rw [get_empty]
    rfl
  rwa [hnone, List.append_nil] at hbalance

theorem issuedOver_nodup (lane : Lane) (history : List TimedCall) :
    (issuedOver lane empty history).Nodup :=
  (after_passes keyed_empty lane history).ordered.imp Nat.ne_of_lt

/-- A token owns no job unless a claim gave it and no call has taken its job. -/
theorem owns_after {lane : Lane} {history : List TimedCall} {id : String} {token : Nat}
    (h : ((empty.after history).get lane).owns id token = true) :
    token ∈ issuedOver lane empty history ∧ token ∉ takenOver lane empty history := by
  have hstands := LaneState.mem_tokens_of_owns h
  have hperm := issuedOver_perm lane history
  have hnodup := hperm.nodup_iff.1 (issuedOver_nodup lane history)
  refine ⟨hperm.mem_iff.2 (List.mem_append_right _ hstands), fun htaken => ?_⟩
  exact (List.nodup_append.1 hnodup).2.2 token htaken token hstands rfl

theorem not_contains_of_claim {l : Lanes} {lane : Lane} {P : JobPayload → Prop}
    (hs : (l.get lane).Carries P) {clock : Clock} {lease : Timespan} {job : ClaimedJob}
    (hclaim : (l.apply clock (.claim lane lease)).1 = some job) :
    (l.get lane).active.contains job.payload.id = false := by
  simp only [apply, step_fst] at hclaim
  cases hnext : (l.get lane).nextJob clock.elapsed with
  | none =>
    rw [LaneState.claim_of_idle lease hnext] at hclaim
    cases hclaim
  | some queued =>
    rw [LaneState.claim_of_nextJob lease hnext] at hclaim
    obtain rfl := Option.some.inj hclaim
    exact (LaneState.nextJob_eq_some hs hnext).2.1

section Stale

variable {l : Lanes} {lane : Lane} {id : String} {token : Nat}

theorem complete_of_not_owns (clock : Clock) (h : (l.get lane).owns id token = false) :
    l.apply clock (.complete lane id token) = (false, l) := by
  simp only [apply, step, LaneState.complete, LaneState.takeActive_of_not_owns h, set_get]

theorem fail_of_not_owns (clock : Clock) (error : String)
    (h : (l.get lane).owns id token = false) :
    l.apply clock (.fail lane id token error) = (.superseded, l) := by
  simp only [apply, step, LaneState.fail, LaneState.takeActive_of_not_owns h, set_get]

theorem retryLater_of_not_owns (clock : Clock) {payload : JobPayload} (delay : Timespan)
    (h : (l.get lane).owns payload.id token = false) :
    l.apply clock (.retryLater lane payload token delay) = (.superseded, l) := by
  simp only [apply, step, LaneState.retryLater, LaneState.takeActive_of_not_owns h, set_get]

end Stale

/-- After any history of a fresh broker: the tokens that claims gave are all different; an identifier
has one pending and one claimed job at most, and a claim hands out none that is claimed; of every
token the job was taken once, or it is still claimed, and then no call took it; and a settlement with
a token that does not own the job, whatever became of the job since, is refused and changes nothing. -/
theorem only_owner_settles (lane : Lane) (history : List TimedCall) :
    let l := empty.after history
    (issuedOver lane empty history).Nodup ∧
    (l.get lane).pendingIds.Nodup ∧ (l.get lane).activeIds.Nodup ∧
    (∀ clock lease job, (l.apply clock (.claim lane lease)).1 = some job →
      job.payload.id ∉ (l.get lane).activeIds) ∧
    (takenOver lane empty history).Nodup ∧
    (issuedOver lane empty history).Perm (takenOver lane empty history ++ (l.get lane).tokens) ∧
    (∀ id token, (l.get lane).owns id token = true →
      token ∈ issuedOver lane empty history ∧ token ∉ takenOver lane empty history) ∧
    (∀ clock id token, (l.get lane).owns id token = false →
      l.apply clock (.complete lane id token) = (false, l) ∧
      (∀ error, l.apply clock (.fail lane id token error) = (.superseded, l)) ∧
      ∀ payload delay, payload.id = id →
        l.apply clock (.retryLater lane payload token delay) = (.superseded, l)) := by
  intro l
  have hl : l.Keyed := keyed_after history
  have hissued := issuedOver_nodup lane history
  have hperm := issuedOver_perm lane history
  have htaken := (List.nodup_append.1 (hperm.nodup_iff.1 hissued)).1
  refine ⟨hissued, (hl lane).pendingIds_nodup, (hl lane).activeIds_nodup, ?_, htaken, hperm,
    fun id token => owns_after, fun clock id token hnot => ⟨?_, fun error => ?_, ?_⟩⟩
  · intro clock lease job hclaim hmem
    have hclaimed := not_contains_of_claim (hl lane) hclaim
    rw [(hl lane).contains_of_mem_activeIds hmem] at hclaimed
    cases hclaimed
  · exact complete_of_not_owns clock hnot
  · exact fail_of_not_owns clock error hnot
  · rintro payload delay rfl
    exact retryLater_of_not_owns clock delay hnot

end Lanes

end SyncCascade
