import SyncCascade.Proofs.Broker.Answers
import SyncCascade.Worker

/-!
# One turn of a worker

A worker over the lanes in memory claims a job, runs its handler and tells the lanes how it ended. The
lanes answer every call, so a turn never fails, whatever the handler does. What a turn ensures follows
from what is ensured after the one call that settles the job; the journal and the metrics change in
between, so nothing may be said of them.
-/

namespace SyncCascade

def World.drawn {σ : Type} (w : World σ Lanes) (seed : Nat) : World σ Lanes := { w with seed := seed }

theorem World.Standing.drawn {σ : Type} {w : World σ Lanes} {P : σ → Prop} {l : Lanes} {clock : Clock}
    (h : w.Standing P l clock) (seed : Nat) : (w.drawn seed).Standing P l clock := h

namespace Worker

open SyncCascade.Action

variable {σ : Type} {W : Worker σ Lanes} {w : World σ Lanes} {job : ClaimedJob}
  {R : JobOutcome → World σ Lanes → Prop} {F : Failure → World σ Lanes → Prop}

abbrev claimCall (W : Worker σ Lanes) : BrokerCall := .claim W.lane W.config.lease

abbrev completeCall (W : Worker σ Lanes) (job : ClaimedJob) : BrokerCall :=
  .complete W.lane job.payload.id job.token

abbrev failCall (W : Worker σ Lanes) (job : ClaimedJob) (e : Failure) : BrokerCall :=
  .fail W.lane job.payload.id job.token e.message

abbrev retryCall (W : Worker σ Lanes) (job : ClaimedJob) (delay : Timespan) : BrokerCall :=
  .retryLater W.lane
    { job.payload with transactionFailures := job.payload.transactionFailures + 1 } job.token delay

theorem request_rule {α : Type} (hB : W.broker = Lanes.broker) {c : BrokerCall}
    {k : c.Reply → Action σ Lanes α} {R : α → World σ Lanes → Prop}
    (h : (k (w.answer c)).Ensures (w.told c) R F) : (W.request c >>= k).Ensures w R F := by
  unfold request
  rw [hB]
  exact Queue.request_rule h

section Settling

variable (hB : W.broker = Lanes.broker) (hR : ∀ o, World.Blind (R o))

include hB hR

theorem settleSuccess_rule (value : Json) (duration : Timespan)
    (h : R (if w.answer (W.completeCall job) then .completed job.payload.id value
      else .leaseLost job.payload.id) (w.told (W.completeCall job))) :
    (W.settleSuccess job value duration).Ensures w R F := by
  unfold settleSuccess
  refine request_rule hB ?_
  cases hreply : w.answer (W.completeCall job) with
  | true =>
    rw [hreply] at h
    refine ensures_record_bind (hR _) h fun w₁ h₁ => ?_
    exact ensures_note_bind (hR _) h₁ fun w₂ h₂ => h₂
  | false =>
    rw [hreply] at h
    exact ensures_note_bind (hR _) h fun w₁ h₁ => h₁

theorem settleTransactionFailure_rule (error : Failure) (duration : Timespan)
    (h : ∀ delay seed, R
      (.transactionFailed job.payload.id delay ((w.drawn seed).answer (W.retryCall job delay)))
      ((w.drawn seed).told (W.retryCall job delay))) :
    (W.settleTransactionFailure job error duration).Ensures w R F := by
  unfold settleTransactionFailure drawDelay
  refine ensures_bind.2 (ensures_bind.2 (ensures_bind.2 (ensures_bind.1 ?_)))
  refine request_rule hB ?_
  refine ensures_record_bind (hR _) (h _ _) fun w₁ h₁ => ?_
  refine ensures_record_bind (hR _) h₁ fun w₂ h₂ => ?_
  exact ensures_note_bind (hR _) h₂ fun w₃ h₃ => h₃

theorem settleFailure_rule (error : Failure) (duration : Timespan)
    (h : R (.failed job.payload.id error (w.answer (W.failCall job error)))
      (w.told (W.failCall job error))) :
    (W.settleFailure job error duration).Ensures w R F := by
  unfold settleFailure
  refine request_rule hB ?_
  refine ensures_record_bind (hR _) h fun w₁ h₁ => ?_
  split
  · refine ensures_record_bind (hR _) h₁ fun w₂ h₂ => ?_
    exact ensures_note_bind (hR _) h₂ fun w₃ h₃ => h₃
  · exact ensures_note_bind (hR _) h₁ fun w₂ h₂ => h₂

/-- What is to be shown of a turn: that it is ensured where there is no job, and that the handler of a
job leads to where the call that settles the job ensures it. -/
theorem processNext_rule
    (hidle : w.answer W.claimCall = none → R .idle (w.told W.claimCall))
    (hjob : ∀ job journal metrics, w.answer W.claimCall = some job →
      (W.handler job.payload).Ensures ((w.told W.claimCall).observed journal metrics)
        (fun value w' => R (if w'.answer (W.completeCall job) then .completed job.payload.id value
          else .leaseLost job.payload.id) (w'.told (W.completeCall job)))
        fun e w' =>
          (e.isTransaction = true → ∀ delay seed, R
            (.transactionFailed job.payload.id delay ((w'.drawn seed).answer (W.retryCall job delay)))
            ((w'.drawn seed).told (W.retryCall job delay))) ∧
          (e.isTransaction = false →
            R (.failed job.payload.id e (w'.answer (W.failCall job e)))
              (w'.told (W.failCall job e)))) :
    W.processNext.Ensures w R F := by
  unfold processNext
  refine request_rule hB ?_
  cases hreply : w.answer W.claimCall with
  | none => exact hidle hreply
  | some job =>
    refine ensures_bind.2 (ensures_bind.2 (ensures_bind.2 (ensures_attempt.2 ?_)))
    refine (hjob job _ _ hreply).mono (fun value w' h => ?_) fun e w' h => ?_
    · exact ensures_bind.2 (settleSuccess_rule hB hR value _ h)
    · refine ensures_bind.2 ?_
      cases htransaction : e.isTransaction with
      | true =>
        simp only [htransaction, if_true]
        exact settleTransactionFailure_rule hB hR e _ (h.1 htransaction)
      | false =>
        simp only [htransaction, Bool.false_eq_true, if_false]
        exact settleFailure_rule hB hR e _ (h.2 htransaction)

end Settling

theorem reportStalled_rule {P : World σ Lanes → Prop} (hP : World.Blind P) (jobs : List StalledJob)
    (h : P w) : (W.reportStalled jobs).Ensures w (fun _ w' => P w') F := by
  induction jobs generalizing w with
  | nil => exact h
  | cons job rest ih =>
    unfold Worker.reportStalled
    refine ensures_record_bind hP h fun w₁ h₁ => ?_
    split
    · refine ensures_record_bind hP h₁ fun w₂ h₂ => ?_
      exact ensures_note_bind hP h₂ fun w₃ h₃ => ih h₃
    · exact ensures_note_bind hP h₁ fun w₂ h₂ => ih h₂

theorem recoverStalled_rule (hB : W.broker = Lanes.broker) {P : World σ Lanes → Prop}
    (hP : World.Blind P) (h : P (w.told (.recoverStalled W.lane))) :
    W.recoverStalled.Ensures w (fun _ w' => P w') F := by
  unfold recoverStalled
  exact request_rule hB (ensures_bind.2 (reportStalled_rule hP _ h))

end Worker

end SyncCascade
