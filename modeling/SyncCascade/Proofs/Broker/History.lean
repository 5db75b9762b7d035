import SyncCascade.Broker.Memory
import SyncCascade.Proofs.Broker.Lane

/-!
# Histories of the broker in memory

A history is any list of calls, each with the clock its client had. So it covers any number of
clients in any order, with tokens that are current, stale or invented.
-/

namespace SyncCascade

/-- A call and the clock of its client at that moment. -/
structure TimedCall where
  clock : Clock
  call : BrokerCall

def BrokerCall.lane : BrokerCall → Lane
  | add lane .. => lane
  | defer lane .. => lane
  | claim lane _ => lane
  | complete lane .. => lane
  | fail lane .. => lane
  | retryLater lane .. => lane
  | recoverStalled lane => lane
  | counts lane => lane
  | failedJobs lane => lane

def BrokerCall.brings : BrokerCall → Option JobPayload
  | add _ job _ _ => some job
  | retryLater _ payload _ _ => some payload
  | _ => none

namespace Lanes

theorem get_set (l : Lanes) (lane lane' : Lane) (s : LaneState) :
    (l.set lane s).get lane' = if lane' = lane then s else l.get lane' := by
  cases lane <;> cases lane' <;> rfl

@[simp] theorem get_set_self (l : Lanes) (lane : Lane) (s : LaneState) :
    (l.set lane s).get lane = s := by
  rw [get_set, if_pos rfl]

theorem get_set_of_ne (l : Lanes) {lane lane' : Lane} (s : LaneState) (h : lane' ≠ lane) :
    (l.set lane s).get lane' = l.get lane' := by
  rw [get_set, if_neg h]

@[simp] theorem set_get (l : Lanes) (lane : Lane) : l.set lane (l.get lane) = l := by
  cases lane <;> rfl

@[simp] theorem set_set (l : Lanes) (lane : Lane) (s s' : LaneState) :
    (l.set lane s).set lane s' = l.set lane s' := by
  cases lane <;> rfl

@[simp] theorem get_empty (lane : Lane) : empty.get lane = .empty := by
  cases lane <;> rfl

theorem step_fst {α : Type} (l : Lanes) (lane : Lane) (f : LaneState → α × LaneState) :
    (l.step lane f).1 = (f (l.get lane)).1 := rfl

theorem step_snd {α : Type} (l : Lanes) (lane : Lane) (f : LaneState → α × LaneState) :
    (l.step lane f).2 = l.set lane (f (l.get lane)).2 := rfl

theorem apply_get_of_ne (l : Lanes) (clock : Clock) {c : BrokerCall} {lane : Lane}
    (h : lane ≠ c.lane) : (l.apply clock c).2.get lane = l.get lane := by
  cases c <;> first | exact get_set_of_ne _ _ h | rfl

def after (l : Lanes) : List TimedCall → Lanes
  | [] => l
  | e :: rest => after (l.apply e.clock e.call).2 rest

theorem after_append (l : Lanes) (first second : List TimedCall) :
    l.after (first ++ second) = (l.after first).after second := by
  induction first generalizing l with
  | nil => rfl
  | cons e rest ih => exact ih _

theorem after_preserves {P : Lanes → Prop}
    (hstep : ∀ l clock c, P l → P (l.apply clock c).2) {l : Lanes} (hl : P l)
    (history : List TimedCall) : P (l.after history) := by
  induction history generalizing l with
  | nil => exact hl
  | cons e rest ih => exact ih (hstep l e.clock e.call hl)

/-- The jobs of every lane stand under their own identifiers, and their payloads are in `P`. -/
def Carries (P : Lane → JobPayload → Prop) (l : Lanes) : Prop :=
  ∀ lane, (l.get lane).Carries (P lane)

variable {P : Lane → JobPayload → Prop}

theorem carries_empty : empty.Carries P := fun lane => by
  rw [get_empty]
  exact LaneState.carries_empty _

theorem carries_set {l : Lanes} (h : l.Carries P) {lane : Lane} {s : LaneState}
    (hs : s.Carries (P lane)) : (l.set lane s).Carries P := by
  intro lane'
  rw [get_set]
  split
  next heq =>
    subst heq
    exact hs
  next => exact h lane'

theorem carries_apply {l : Lanes} (hP : ∀ lane, AboutWork (P lane)) (h : l.Carries P)
    (clock : Clock) {c : BrokerCall} (hc : ∀ p, c.brings = some p → P c.lane p) :
    (l.apply clock c).2.Carries P := by
  cases c with
  | add lane job options delay =>
    exact carries_set h (LaneState.add_carries (h lane) (hc _ rfl) _ _ _)
  | defer lane id delay => exact carries_set h (LaneState.defer_carries (hP lane) (h lane) ..)
  | claim lane lease => exact carries_set h (LaneState.claim_carries (h lane) ..)
  | complete lane id token => exact carries_set h (LaneState.complete_carries (h lane) ..)
  | fail lane id token error =>
    exact carries_set h ((LaneState.fail_settled ..).carries (h lane) fun _ _ hp => hp)
  | retryLater lane payload token delay =>
    exact carries_set h ((LaneState.retryLater_settled ..).carries (h lane) fun _ _ _ => hc _ rfl)
  | recoverStalled lane =>
    exact carries_set h (LaneState.recoverAll_carries (hP lane) _ _ (h lane))
  | counts lane => exact h
  | failedJobs lane => exact h

theorem after_carries {l : Lanes} (hP : ∀ lane, AboutWork (P lane)) (h : l.Carries P)
    {history : List TimedCall} (hbrings : ∀ e ∈ history, ∀ p, e.call.brings = some p → P e.call.lane p) :
    (l.after history).Carries P := by
  induction history generalizing l with
  | nil => exact h
  | cons e rest ih =>
    exact ih (carries_apply hP h e.clock (hbrings e List.mem_cons_self))
      fun e' he' => hbrings e' (List.mem_cons_of_mem e he')

theorem claim_of_idle {l : Lanes} {clock : Clock} {lane : Lane} (lease : Timespan)
    (h : (l.get lane).nextJob clock.elapsed = none) :
    l.apply clock (.claim lane lease) = (none, l) := by
  simp only [apply, step, LaneState.claim_of_idle lease h, set_get]

theorem claim_of_nextJob {l : Lanes} {clock : Clock} {lane : Lane} (lease : Timespan)
    {job : QueuedJob} (h : (l.get lane).nextJob clock.elapsed = some job) :
    l.apply clock (.claim lane lease) =
      (some ⟨job.payload, (l.get lane).seq + 1, job.attemptsMade, job.maxAttempts⟩,
        l.set lane ((l.get lane).claimed job (clock.elapsed + lease.nanos))) := by
  simp only [apply, step, LaneState.claim_of_nextJob lease h]

theorem payload_of_claim {l : Lanes} (h : l.Carries P) {clock : Clock} {lane : Lane}
    {lease : Timespan} {job : ClaimedJob}
    (hclaim : (l.apply clock (.claim lane lease)).1 = some job) : P lane job.payload := by
  simp only [apply, step_fst] at hclaim
  cases hnext : (l.get lane).nextJob clock.elapsed with
  | none =>
    rw [LaneState.claim_of_idle lease hnext] at hclaim
    cases hclaim
  | some queued =>
    rw [LaneState.claim_of_nextJob lease hnext] at hclaim
    obtain rfl := Option.some.inj hclaim
    exact ((h lane).pending (LaneState.nextJob_eq_some (h lane) hnext).1).2

/-- Every job of every lane stands under its own identifier. -/
def Keyed : Lanes → Prop := Carries fun _ _ => True

theorem keyed_empty : Keyed empty := carries_empty

theorem keyed_apply (l : Lanes) (clock : Clock) (c : BrokerCall) (h : l.Keyed) :
    (l.apply clock c).2.Keyed :=
  carries_apply (fun _ => aboutWork_true) h clock fun _ _ => trivial

theorem Carries.keyed {l : Lanes} (h : l.Carries P) : l.Keyed := fun lane =>
  (h lane).mono fun _ _ => trivial

theorem keyed_after (history : List TimedCall) : (empty.after history).Keyed :=
  after_preserves keyed_apply keyed_empty history

end Lanes

end SyncCascade
