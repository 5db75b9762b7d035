import SyncCascade.Proofs.Transaction
import SyncCascade.Rerun

/-!
# Actions that keep to the store

A transaction works on the storage and reports in the journal. If its work does no more, the broker, the
metrics and the clock stand after it as they stood before, however often it was repeated and whatever
the storage answered. A rerun is such a transaction.
-/

namespace SyncCascade

variable {σ β α γ : Type}

namespace Action

/-- The action changes nothing but the store and the journal. -/
def Confined (a : Action σ β α) : Prop :=
  ∀ w, ∃ r store journal, a.run w = (r, { w with store := store, journal := journal })

variable {a : Action σ β α}

theorem Confined.ensures (h : a.Confined) (w : World σ β) :
    a.Ensures w (fun _ w' => w'.broker = w.broker ∧ w'.metrics = w.metrics)
      fun _ w' => w'.broker = w.broker ∧ w'.metrics = w.metrics := by
  obtain ⟨r, store, journal, hrun⟩ := h w
  unfold Ensures
  rw [hrun]
  cases r <;> exact ⟨rfl, rfl⟩

theorem confined_pure (r : α) : (pure r : Action σ β α).Confined :=
  fun w => ⟨.ok r, w.store, w.journal, rfl⟩

theorem confined_fail (e : Failure) : (fail e : Action σ β α).Confined :=
  fun w => ⟨.error e, w.store, w.journal, rfl⟩

theorem confined_note (n : Notice) : (note n : Action σ β Unit).Confined :=
  fun w => ⟨.ok (), w.store, w.journal.push n, rfl⟩

theorem confined_ofExcept (r : Except Failure α) : (ofExcept r : Action σ β α).Confined := by
  cases r with
  | ok r => exact confined_pure r
  | error e => exact confined_fail e

theorem confined_onStore (f : Clock → σ → Except Failure α × σ) :
    (onStore f : Action σ β α).Confined :=
  fun w => ⟨(f w.clock w.store).1, (f w.clock w.store).2, w.journal, rfl⟩

theorem Confined.bind {k : α → Action σ β γ} (ha : a.Confined) (hk : ∀ r, (k r).Confined) :
    (a >>= k).Confined := by
  intro w
  obtain ⟨r, store, journal, hrun⟩ := ha w
  rw [run_bind, hrun]
  cases r with
  | error e => exact ⟨.error e, store, journal, rfl⟩
  | ok r =>
    obtain ⟨r', store', journal', hrun'⟩ := hk r { w with store := store, journal := journal }
    exact ⟨r', store', journal', hrun'⟩

theorem Confined.attempt (h : a.Confined) : a.attempt.Confined := by
  intro w
  obtain ⟨r, store, journal, hrun⟩ := h w
  rw [run_attempt, hrun]
  exact ⟨.ok r, store, journal, rfl⟩

theorem Confined.announcing (h : a.Confined) : a.announcing.Confined := by
  intro w
  obtain ⟨r, store, journal, hrun⟩ := h w
  rw [run_announcing, hrun]
  cases r with
  | error e => exact ⟨.error e, store, journal.push (.failure e), rfl⟩
  | ok r => exact ⟨.ok r, store, journal, rfl⟩

theorem Confined.announcingIf (h : a.Confined) (b : Bool) : (a.announcingIf b).Confined := by
  unfold Action.announcingIf
  split
  · exact h.announcing
  · exact h

end Action

namespace Transaction

open SyncCascade.Action

variable {S : Storage σ} {work : Action σ β α}

theorem confined_query (c : StoreCall) : (query S c : Action σ β c.Reply).Confined :=
  (confined_onStore _).announcingIf _

theorem confined_once (level : IsolationLevel) (h : work.Confined) :
    (once S level work).Confined := by
  unfold once
  refine ((confined_onStore _).announcingIf _).bind fun _ => h.attempt.bind fun r => ?_
  cases r with
  | ok r => exact (confined_onStore _).bind fun _ => confined_pure r
  | error e =>
    have hrollback : (rollback S : Action σ β Unit).Confined :=
      fun w => ⟨.ok (), S.rollback w.store, w.journal, rfl⟩
    exact hrollback.bind fun _ => confined_fail e

theorem confined_repeating (policy : RetryPolicy) (context : WorkContext) (h : work.Confined)
    (remaining attempt : Nat) : (repeating policy context work remaining attempt).Confined := by
  induction remaining generalizing attempt with
  | zero =>
    intro w
    obtain ⟨r, store, journal, hrun⟩ := h w
    rw [run_repeating_zero, hrun]
    cases r with
    | ok r => exact ⟨.ok r, store, journal, rfl⟩
    | error e =>
      dsimp only
      split
      · exact ⟨_, store, journal.push (.retriesExhausted context attempt e), rfl⟩
      · exact ⟨.error e, store, journal, rfl⟩
  | succ remaining ih =>
    intro w
    obtain ⟨r, store, journal, hrun⟩ := h w
    rw [run_repeating_succ, hrun]
    cases r with
    | ok r => exact ⟨.ok r, store, journal, rfl⟩
    | error e =>
      dsimp only
      split
      · obtain ⟨r', store', journal', hrun'⟩ := ih (attempt + 1)
          { w with store := store, journal := journal.push (.transactionRepeated context attempt e) }
        exact ⟨r', store', journal', hrun'⟩
      · exact ⟨.error e, store, journal, rfl⟩

theorem confined_withRetries (policy : RetryPolicy) (context : WorkContext) (h : work.Confined) :
    (withRetries policy context work).Confined := by
  unfold withRetries
  split
  · exact confined_repeating policy context h _ _
  · exact confined_fail _

theorem confined_run (config : TransactionConfig) (context : WorkContext) (h : work.Confined) :
    (run S config context work).Confined :=
  confined_withRetries config.retry context (confined_once config.isolation h)

end Transaction

namespace Rerun

open SyncCascade.Action SyncCascade.Transaction

variable (S : Storage σ)

theorem confined_checkLatest (base : SyncId) (row : SyncRun) (latest : Option SyncRun) :
    (checkLatest base row latest : Action σ β Unit).Confined := by
  unfold checkLatest
  split
  · exact confined_fail _
  · exact confined_pure ()

theorem confined_insertNext (base : SyncId) (row : SyncRun) (latest : Option SyncRun)
    (totalFiles : Option Int32) (request : RerunRequest) (report : SyncRun → Notice) :
    (insertNext S base row latest totalFiles request report : Action σ β RerunOutcome).Confined :=
  (confined_ofExcept _).bind fun _ => (confined_query _).bind fun _ => (confined_note _).bind fun _ =>
    confined_pure _

theorem confined_build (base : SyncId) (row : SyncRun) (latest : Option SyncRun) (deleted : Nat)
    (request : RerunRequest) :
    (build S base row latest deleted request : Action σ β RerunOutcome).Confined := by
  unfold build
  refine (confined_query _).bind fun archived => (confined_query _).bind fun reopened =>
    (confined_query _).bind fun reset => ?_
  dsimp only
  split
  · exact (confined_pure _).bind fun totalFiles => confined_insertNext S base row latest _ request _
  · exact (confined_query _).bind fun reread => (confined_pure _).bind fun totalFiles =>
      confined_insertNext S base row latest _ request _

theorem confined_attempt (base : SyncId) (request : RerunRequest) :
    (attempt S base request : Action σ β RerunOutcome).Confined := by
  unfold attempt
  refine (confined_query _).bind fun row => ?_
  cases row with
  | none => exact confined_fail _
  | some row =>
    refine (confined_checkLatest base row none).bind fun _ => (confined_query _).bind fun latest =>
      (confined_checkLatest base row latest).bind fun _ => (confined_query _).bind fun taken => ?_
    split
    · exact confined_fail _
    · refine (confined_query _).bind fun deleted => ?_
      split
      · exact confined_build S base row latest deleted request
      · refine (confined_query _).bind fun _ => (confined_query _).bind fun closed => ?_
        split
        · exact confined_build S base row latest deleted request
        · exact confined_pure _

theorem confined_create (config : TransactionConfig) (base : SyncId) (request : RerunRequest) :
    (create S config base request : Action σ β RerunOutcome).Confined := by
  unfold create
  refine ((confined_run config _ (confined_attempt S base request)).bind fun outcome => ?_).announcing
  cases outcome with
  | created sync => exact confined_pure _
  | notCreated closed => exact (confined_note _).bind fun _ => confined_pure _

end Rerun

end SyncCascade
