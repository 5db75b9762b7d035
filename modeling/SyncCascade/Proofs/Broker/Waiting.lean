import SyncCascade.Proofs.Broker.Conservation
import SyncCascade.Proofs.Broker.History

/-!
# How long a pending job waits

A pending job goes away only by a claim, and a claim comes only when the job is ready. Until then no
call makes it ready earlier. So a job that is not ready before some time is not claimed before it,
whatever else is called meanwhile.
-/

namespace SyncCascade

/-- One if the call claimed a job with the identifier. -/
def BrokerCall.claimCount (lane : Lane) (id : String) : (c : BrokerCall) → c.Reply → Nat
  | claim lane' _, reply =>
    if lane' = lane ∧ (reply.any fun j => decide (j.payload.id = id)) = true then 1 else 0
  | _, _ => 0

namespace LaneState

variable {s s' : LaneState} {id : String} {q : QueuedJob}

theorem add_retains (s : LaneState) (now : Nat) (job : JobPayload) (options : LaneOptions)
    (delay : Timespan) : s.Retains (s.add now job options delay).2 := by
  unfold add
  cases hfree : s.pending.contains job.id with
  | true => exact .refl s
  | false => exact retains_of_free hfree rfl

theorem defer_retains (s : LaneState) (now : Nat) (id : String) (delay : Timespan) :
    s.Retains (s.defer now id delay).2 := by
  unfold defer
  cases hfind : s.pending.find? id with
  | none => exact .refl s
  | some job =>
    intro id' q hq
    dsimp only
    rw [Table.find?_modify, hq]
    split
    · exact ⟨_, rfl, Nat.le_max_left ..⟩
    · exact ⟨q, rfl, Nat.le_refl _⟩

theorem complete_pending (s : LaneState) (id : String) (token : Nat) :
    (s.complete id token).2.pending = s.pending := by
  rcases complete_cases s id token with ⟨-, heq⟩ | ⟨a, -, -, heq⟩
  · rw [heq]
  · rw [heq]
    rfl

theorem Settled.retains {token : Nat} {update : JobPayload → JobPayload} {d : Disposition}
    (h : Settled s id token update d s') : s.Retains s' := by
  cases h with
  | stale => exact .refl s
  | released ha ht hjob hr => exact hr.retains

theorem claim_retains (now : Nat) (lease : Timespan) (hq : s.pending.find? id = some q) :
    (s.claim now lease).2.pending.find? id = some q ∨
      ((s.claim now lease).1.any fun j => decide (j.payload.id = id)) = true := by
  cases hn : s.nextJob now with
  | none =>
    rw [claim_of_idle lease hn]
    exact .inl hq
  | some job =>
    rw [claim_of_nextJob lease hn]
    by_cases hid : id = job.payload.id
    · exact .inr (by simp [hid])
    · refine .inl ?_
      change (s.pending.erase job.payload.id).find? id = some q
      rw [Table.find?_erase, if_neg hid]
      exact hq

theorem ready_of_claim {P : JobPayload → Prop} (hs : s.Carries P) {now : Nat} {lease : Timespan}
    (hq : s.pending.find? id = some q)
    (h : ((s.claim now lease).1.any fun j => decide (j.payload.id = id)) = true) :
    q.readyAt ≤ now := by
  cases hn : s.nextJob now with
  | none =>
    rw [claim_of_idle lease hn] at h
    cases h
  | some job =>
    rw [claim_of_nextJob lease hn] at h
    obtain rfl : job.payload.id = id := of_decide_eq_true h
    obtain ⟨hjob, -, hready⟩ := nextJob_eq_some hs hn
    rw [hq] at hjob
    exact Option.some.inj hjob ▸ hready

/-- A job with the identifier is pending and not ready before `due`. -/
def Waits (s : LaneState) (id : String) (due : Nat) : Prop :=
  ∃ q, s.pending.find? id = some q ∧ due ≤ q.readyAt

theorem Retains.waits (h : s.Retains s') {due : Nat} (hs : s.Waits id due) : s'.Waits id due := by
  obtain ⟨q, hq, hdue⟩ := hs
  obtain ⟨q', hq', hle⟩ := h hq
  exact ⟨q', hq', Nat.le_trans hdue hle⟩

theorem waits_of_contains (h : s.pending.contains id = true) : s.Waits id 0 := by
  obtain ⟨q, hq⟩ := Table.contains_eq_true.1 h
  exact ⟨q, hq, Nat.zero_le _⟩

theorem Waits.contains {due : Nat} (h : s.Waits id due) : s.pending.contains id = true :=
  Table.contains_eq_true.2 (h.imp fun _ hq => hq.1)

end LaneState

namespace Lanes

variable {l : Lanes} {lane : Lane} {id : String} {due : Nat} {history : List TimedCall}

/-- A job that waits goes on waiting, or the call claimed it. -/
theorem apply_waits (clock : Clock) (c : BrokerCall) (h : (l.get lane).Waits id due) :
    ((l.apply clock c).2.get lane).Waits id due ∨
      c.claimCount lane id (l.apply clock c).1 = 1 := by
  by_cases hlane : lane = c.lane
  · subst hlane
    cases c with
    | claim lane lease =>
      obtain ⟨q, hq, hdue⟩ := h
      simp only [BrokerCall.lane, apply, step_fst, step_snd, get_set_self, BrokerCall.claimCount,
        true_and]
      exact (LaneState.claim_retains clock.elapsed lease hq).imp (fun hq' => ⟨q, hq', hdue⟩)
        fun hclaim => if_pos hclaim
    | add lane job options delay =>
      simp only [BrokerCall.lane, apply, step_snd, get_set_self]
      exact .inl ((LaneState.add_retains ..).waits h)
    | defer lane id' delay =>
      simp only [BrokerCall.lane, apply, step_snd, get_set_self]
      exact .inl ((LaneState.defer_retains ..).waits h)
    | complete lane id' token =>
      simp only [BrokerCall.lane, apply, step_snd, get_set_self]
      exact .inl ((LaneState.retains_of_pending_eq (LaneState.complete_pending ..)).waits h)
    | fail lane id' token error =>
      simp only [BrokerCall.lane, apply, step_snd, get_set_self]
      exact .inl ((LaneState.fail_settled ..).retains.waits h)
    | retryLater lane payload token delay =>
      simp only [BrokerCall.lane, apply, step_snd, get_set_self]
      exact .inl ((LaneState.retryLater_settled ..).retains.waits h)
    | recoverStalled lane =>
      simp only [BrokerCall.lane, apply, step_snd, get_set_self]
      exact .inl ((LaneState.recoverAll_retains ..).waits h)
    | counts lane => exact .inl h
    | failedJobs lane => exact .inl h
  · rw [apply_get_of_ne l clock hlane]
    exact .inl h

theorem apply_pending (clock : Clock) (c : BrokerCall)
    (h : (l.get lane).pending.contains id = true) :
    ((l.apply clock c).2.get lane).pending.contains id = true ∨
      c.claimCount lane id (l.apply clock c).1 = 1 :=
  (apply_waits clock c (LaneState.waits_of_contains h)).imp_left LaneState.Waits.contains

theorem due_of_claimCount (hl : l.Keyed) {clock : Clock} {c : BrokerCall}
    (h : (l.get lane).Waits id due) (hclaim : c.claimCount lane id (l.apply clock c).1 = 1) :
    due ≤ clock.elapsed := by
  cases c with
  | claim lane' lease =>
    simp only [BrokerCall.claimCount, ite_eq_left_iff, Nat.zero_ne_one, imp_false,
      Decidable.not_not] at hclaim
    obtain ⟨rfl, hclaim⟩ := hclaim
    obtain ⟨q, hq, hdue⟩ := h
    exact Nat.le_trans hdue (LaneState.ready_of_claim (hl lane') hq hclaim)
  | _ => cases hclaim

def Unclaimed (lane : Lane) (id : String) (l : Lanes) : List TimedCall → Prop
  | [] => True
  | e :: rest =>
    e.call.claimCount lane id (l.apply e.clock e.call).1 = 0 ∧
      Unclaimed lane id (l.apply e.clock e.call).2 rest

theorem after_waits (hhistory : Unclaimed lane id l history) (h : (l.get lane).Waits id due) :
    ((l.after history).get lane).Waits id due := by
  induction history generalizing l with
  | nil => exact h
  | cons e rest ih =>
    obtain ⟨hfirst, hrest⟩ := hhistory
    refine ih hrest ((apply_waits e.clock e.call h).resolve_right fun hclaim => ?_)
    rw [hclaim] at hfirst
    exact Nat.one_ne_zero hfirst

theorem due_of_first_claim (hl : l.Keyed) (h : (l.get lane).Waits id due)
    (hhistory : Unclaimed lane id l history) {clock : Clock} {c : BrokerCall}
    (hclaim : c.claimCount lane id ((l.after history).apply clock c).1 = 1) :
    due ≤ clock.elapsed :=
  due_of_claimCount (after_preserves keyed_apply hl history) (after_waits hhistory h) hclaim

end Lanes

end SyncCascade
