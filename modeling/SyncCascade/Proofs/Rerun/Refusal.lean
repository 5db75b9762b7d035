import SyncCascade.Proofs.Rerun.Attempt

/-!
# Why a rerun fails

A rerun in memory fails as a client's mistake if the committed database refuses it, and otherwise only
because its commits fail or no number is left. No commit is reached by a rerun that is refused, so it does
not matter then how many of them are to fail. Under a policy that allows no attempt nothing is looked at.
-/

namespace SyncCascade

namespace Database

variable {db db' : Database} {base id : SyncId} {now : Timestamp} {request : RerunRequest}
  {outcome : RerunOutcome}

/-- No rerun of the base with this identifier can be made. -/
def Refused (db : Database) (base id : SyncId) : Prop := ∃ e, db.Refuses base id e

theorem Admits.not_refused {row : SyncRun} (h : db.Admits base id row) : ¬ db.Refused base id := by
  rintro ⟨e, hrefuses⟩
  cases hrefuses with
  | missing hmissing => cases hmissing.symm.trans h.row_eq
  | barred hrow hbarred =>
    cases hrow.symm.trans h.row_eq
    cases hbarred.symm.trans h.clear
  | taken _ _ htaken => cases htaken.symm.trans h.free

theorem Attempted.not_refused (h : db.Attempted now base request outcome db') :
    ¬ db.Refused base request.id := by
  cases h with
  | notCreated hadmits => exact hadmits.not_refused
  | created hadmits => exact hadmits.not_refused

theorem Refuses.isClientError {e : Failure} (h : db.Refuses base id e) :
    e.kind.isClientError = true := by
  cases h with
  | missing | taken => rfl
  | barred _ hbarred =>
    rw [Rerun.obstacle_kind hbarred]
    rfl

end Database

namespace Rerun

open SyncCascade.Action SyncCascade.Session

variable {β : Type} {db : Database} {b : β} {clock : Clock} {w : World Session β} {base : SyncId}
  {request : RerunRequest}

/-- A refused rerun fails as the database refuses it. Any other can fail by its commits or for want of a
number only. -/
theorem create_fails {config : TransactionConfig} (hallowed : 0 < config.retry.attempts)
    (h : World.Standing (Has db) b clock w) :
    (create storage config base request).Ensures w (fun _ _ => ¬ db.Refused base request.id)
      fun e w' => (db.Refuses base request.id e ∨ ¬ db.Refused base request.id ∧
          (e.kind = .transaction ∨ e.kind = .retriesExceeded ∨ e.kind = .overflow)) ∧
        World.Standing (Has db) b clock w' := by
  unfold create
  refine Ensures.announcing ?_ fun _ _ _ _ h => h
  rw [ensures_bind]
  refine (Transaction.withRetries_rule (fun hnone => absurd hnone (Nat.ne_of_gt hallowed))
    (Transaction.repeating_rule (P := fun _ => World.Standing (Has db) b clock)
    (R := fun _ _ => ¬ db.Refused base request.id) (fun _ => World.standing_blind) (fun _ _ _ _ h => h)
    (fun remaining w hw => ?_) _ _ 1 h)).mono (fun outcome w' h => ?_) fun _ _ h => h
  · refine Transaction.once_ensures ((start_ensures ⟨⟨hw.1, rfl⟩, hw.2⟩ _).mono (fun _ w₁ h₁ => ?_)
      fun _ _ h => h.elim)
    refine (attempt_ensures h₁).mono ?_ ?_
    · -- Work that ends with an outcome was admitted, so if its commit fails, no refusal is hidden by it.
      rintro outcome w₂ ⟨view, hattempted, h₂⟩
      refine (commit_ensures h₂).mono (fun _ _ _ => hattempted.not_refused) ?_
      rintro e w₃ ⟨rfl, m, -, h₃⟩
      have hstanding := standing_has h₃
      split
      · cases remaining with
        | zero => exact ⟨.inr ⟨hattempted.not_refused, .inr (.inl rfl)⟩, hstanding⟩
        | succ => exact hstanding
      · exact ⟨.inr ⟨hattempted.not_refused, .inl rfl⟩, hstanding⟩
    · rintro e w₂ ⟨hdenies, h₂⟩
      rw [denies_not_transaction hdenies, Bool.false_and, if_neg Bool.false_ne_true]
      refine ⟨?_, standing_has h₂⟩
      cases hdenies with
      | refused hrefuses => exact .inl hrefuses
      | unnumbered hadmits _ hnumber =>
        rw [nextNumber_eq_error hnumber]
        exact .inr ⟨hadmits.not_refused, .inr (.inr rfl)⟩
  · cases outcome with
    | created sync => exact h
    | notCreated closed => exact ensures_note_bind (fun _ _ _ h => h) h fun _ h => h

end Rerun

end SyncCascade
