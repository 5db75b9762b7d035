import SyncCascade.Closure
import SyncCascade.Proofs.Broker.Reports
import SyncCascade.Proofs.Transaction
import SyncCascade.Rerun
import SyncCascade.Worker

/-!
# Actions over two storages

An action that is built from the steps of a storage does the same over every storage that answers
alike. For a relation `Q` between the states of two storages, `Storage.Mirrors Q S T` asks that the
steps of `S` and `T` answer the same and keep the states related. Everything the tracker does is such
an action, so it then gives the same results over both and keeps their states related too.
-/

namespace SyncCascade

variable {σ τ β α γ : Type} {Q : σ → τ → Prop}

/-- The world with another store, perhaps of another kind. -/
def World.withStore (w : World σ β) (t : τ) : World τ β :=
  ⟨t, w.broker, w.metrics, w.clock, w.journal, w.seed⟩

/-- Two steps that answer the same and keep `Q`. -/
def StepMirrors {ρ : Type} (Q : σ → τ → Prop) (f : σ → ρ × σ) (g : τ → ρ × τ) : Prop :=
  ∀ s t, Q s t → (g t).1 = (f s).1 ∧ Q (f s).2 (g t).2

structure Storage.Mirrors (Q : σ → τ → Prop) (S : Storage σ) (T : Storage τ) : Prop where
  start : ∀ clock level, StepMirrors Q (S.start clock level) (T.start clock level)
  call : ∀ clock c, StepMirrors Q (S.call clock c) (T.call clock c)
  commit : ∀ clock, StepMirrors Q (S.commit clock) (T.commit clock)
  rollback : ∀ s t, Q s t → Q (S.rollback s) (T.rollback t)
  announcesStart : T.announcesStart = S.announcesStart
  announces : T.announces = S.announces

/-- `b` gives the same result as `a`, changes the rest of the world in the same way and keeps `Q`. -/
def Action.Mirrors (Q : σ → τ → Prop) (a : Action σ β α) (b : Action τ β α) : Prop :=
  ∀ w t, Q w.store t → ∃ t', b.run (w.withStore t) = ((a.run w).1, (a.run w).2.withStore t') ∧
    Q (a.run w).2.store t'

namespace Action.Mirrors

theorem pure (r : α) : Mirrors Q (pure r : Action σ β α) (pure r : Action τ β α) :=
  fun _ t h => ⟨t, rfl, h⟩

theorem fail (e : Failure) : Mirrors Q (fail e : Action σ β α) (fail e : Action τ β α) :=
  fun _ t h => ⟨t, rfl, h⟩

theorem note (n : Notice) : Mirrors Q (note n : Action σ β Unit) (note n) :=
  fun _ t h => ⟨t, rfl, h⟩

theorem record (lane : Lane) (s : LaneMetrics.Sample) :
    Mirrors Q (record lane s : Action σ β Unit) (record lane s) :=
  fun _ t h => ⟨t, rfl, h⟩

theorem reseed (f : Nat → Nat) :
    Mirrors Q (update fun w => { w with seed := f w.seed } : Action σ β Unit)
      (update fun w => { w with seed := f w.seed }) :=
  fun _ t h => ⟨t, rfl, h⟩

theorem ofExcept (r : Except Failure α) :
    Mirrors Q (ofExcept r : Action σ β α) (ofExcept r : Action τ β α) := by
  cases r with
  | ok r => exact pure r
  | error e => exact fail e

theorem bind {a : Action σ β γ} {b : Action τ β γ} {k : γ → Action σ β α} {l : γ → Action τ β α}
    (h : Mirrors Q a b) (hk : ∀ r, Mirrors Q (k r) (l r)) : Mirrors Q (a >>= k) (b >>= l) := by
  intro w t hwt
  obtain ⟨t', hrun, ht'⟩ := h w t hwt
  simp only [run_bind, hrun]
  generalize a.run w = out at hrun ht' ⊢
  obtain ⟨r | r, w'⟩ := out
  · exact ⟨t', rfl, ht'⟩
  · exact hk r w' t' ht'

theorem world_bind {k : World σ β → Action σ β α} {l : World τ β → Action τ β α}
    (hk : ∀ w t, Mirrors Q (k w) (l (w.withStore t))) :
    Mirrors Q (world >>= k) (world >>= l) :=
  fun w t h => hk w t w t h

theorem attempt {a : Action σ β α} {b : Action τ β α} (h : Mirrors Q a b) :
    Mirrors Q a.attempt b.attempt := by
  intro w t hwt
  obtain ⟨t', hrun, ht'⟩ := h w t hwt
  exact ⟨t', by rw [run_attempt, hrun, run_attempt], ht'⟩

theorem announcing {a : Action σ β α} {b : Action τ β α} (h : Mirrors Q a b) :
    Mirrors Q a.announcing b.announcing := by
  intro w t hwt
  obtain ⟨t', hrun, ht'⟩ := h w t hwt
  simp only [run_announcing, hrun]
  generalize a.run w = out at hrun ht' ⊢
  obtain ⟨r | r, w'⟩ := out
  · exact ⟨t', rfl, ht'⟩
  · exact ⟨t', rfl, ht'⟩

theorem announcingIf {a : Action σ β α} {b : Action τ β α} (h : Mirrors Q a b) (c : Bool) :
    Mirrors Q (a.announcingIf c) (b.announcingIf c) := by
  unfold Action.announcingIf
  split
  · exact h.announcing
  · exact h

theorem onStore {f : Clock → σ → Except Failure α × σ} {g : Clock → τ → Except Failure α × τ}
    (h : ∀ clock, StepMirrors Q (f clock) (g clock)) :
    Mirrors Q (onStore f : Action σ β α) (onStore g) := by
  intro w t hwt
  obtain ⟨hreply, hstate⟩ := h w.clock w.store t hwt
  refine ⟨(g w.clock t).2, ?_, hstate⟩
  simp only [run_onStore, ← hreply]
  rfl

theorem onBroker (f : Clock → β → Except Failure α × β) :
    Mirrors Q (onBroker f : Action σ β α) (onBroker f : Action τ β α) :=
  fun _ t h => ⟨t, rfl, h⟩

end Action.Mirrors

/-- What the steps of one storage preserve is what keeps the storage alike to itself. -/
theorem Storage.mirrors_of_invariant {S : Storage σ} {I : σ → Prop}
    (hstart : ∀ clock level s, I s → I (S.start clock level s).2)
    (hcall : ∀ clock c s, I s → I (S.call clock c s).2)
    (hcommit : ∀ clock s, I s → I (S.commit clock s).2) (hrollback : ∀ s, I s → I (S.rollback s)) :
    S.Mirrors (fun s t => s = t ∧ I s) S where
  start clock level := by
    rintro s _ ⟨rfl, h⟩
    exact ⟨rfl, rfl, hstart clock level s h⟩
  call clock c := by
    rintro s _ ⟨rfl, h⟩
    exact ⟨rfl, rfl, hcall clock c s h⟩
  commit clock := by
    rintro s _ ⟨rfl, h⟩
    exact ⟨rfl, rfl, hcommit clock s h⟩
  rollback := by
    rintro s _ ⟨rfl, h⟩
    exact ⟨rfl, hrollback s h⟩
  announcesStart := rfl
  announces := rfl

theorem Action.Mirrors.invariant {I : σ → Prop} {a : Action σ β α}
    (h : Mirrors (fun s t => s = t ∧ I s) a a) {w : World σ β} (hw : I w.store) :
    I (a.run w).2.store := by
  obtain ⟨t, -, -, hI⟩ := h w w.store ⟨rfl, hw⟩
  exact hI

open SyncCascade.Action

namespace Transaction

variable {S : Storage σ} {T : Storage τ}

theorem repeating_mirrors {a : Action σ β α} {b : Action τ β α} (h : Mirrors Q a b)
    (policy : RetryPolicy) (context : WorkContext) (remaining attempt : Nat) :
    Mirrors Q (repeating policy context a remaining attempt)
      (repeating policy context b remaining attempt) := by
  intro w t hwt
  induction remaining generalizing attempt w t with
  | zero =>
    obtain ⟨t', hrun, ht'⟩ := h w t hwt
    simp only [run_repeating_zero, hrun]
    generalize a.run w = out at ht' ⊢
    obtain ⟨e | r, w'⟩ := out
    · by_cases hrepeat : (e.isTransaction && policy.enabled) = true
      · simp only [if_pos hrepeat]
        exact ⟨t', rfl, ht'⟩
      · simp only [if_neg hrepeat]
        exact ⟨t', rfl, ht'⟩
    · exact ⟨t', rfl, ht'⟩
  | succ remaining ih =>
    obtain ⟨t', hrun, ht'⟩ := h w t hwt
    simp only [run_repeating_succ, hrun]
    generalize a.run w = out at ht' ⊢
    obtain ⟨e | r, w'⟩ := out
    · by_cases hrepeat : (e.isTransaction && policy.enabled) = true
      · simp only [if_pos hrepeat]
        exact ih (attempt + 1) { w' with journal := w'.journal.push _ } t' ht'
      · simp only [if_neg hrepeat]
        exact ⟨t', rfl, ht'⟩
    · exact ⟨t', rfl, ht'⟩

theorem withRetries_mirrors {a : Action σ β α} {b : Action τ β α} (h : Mirrors Q a b)
    (policy : RetryPolicy) (context : WorkContext) :
    Mirrors Q (withRetries policy context a) (withRetries policy context b) := by
  unfold withRetries
  split
  · exact repeating_mirrors h policy context _ _
  · exact .fail _

variable (hS : Storage.Mirrors Q S T)
include hS

theorem query_mirrors (c : StoreCall) :
    Mirrors Q (query S c : Action σ β c.Reply) (query T c) := by
  unfold query
  rw [hS.announces]
  exact .announcingIf (.onStore fun clock => hS.call clock c) _

theorem start_mirrors (level : IsolationLevel) :
    Mirrors Q (start S level : Action σ β Unit) (start T level) := by
  unfold start
  rw [hS.announcesStart]
  exact .announcingIf (.onStore fun clock => hS.start clock level) _

theorem rollback_mirrors : Mirrors Q (rollback S : Action σ β Unit) (rollback T) :=
  fun w t h => ⟨T.rollback t, rfl, hS.rollback w.store t h⟩

theorem once_mirrors {a : Action σ β α} {b : Action τ β α} (h : Mirrors Q a b)
    (level : IsolationLevel) : Mirrors Q (once S level a) (once T level b) := by
  unfold once
  refine .bind (start_mirrors hS level) fun _ => .bind h.attempt fun r => ?_
  cases r with
  | ok r => exact .bind (.onStore hS.commit) fun _ => .pure r
  | error e => exact .bind (rollback_mirrors hS) fun _ => .fail e

theorem run_mirrors {a : Action σ β α} {b : Action τ β α} (h : Mirrors Q a b)
    (config : TransactionConfig) (context : WorkContext) :
    Mirrors Q (run S config context a) (run T config context b) :=
  withRetries_mirrors (once_mirrors hS h config.isolation) config.retry context

end Transaction

namespace Queue

variable (B : Broker β)

theorem request_mirrors (c : BrokerCall) :
    Mirrors Q (request B c : Action σ β c.Reply) (request B c : Action τ β c.Reply) :=
  .announcingIf (.onBroker _) _

theorem enqueue_mirrors (options : LaneOptions) (lane : Lane) (job : JobPayload) (rounds : Nat) :
    Mirrors Q (enqueue B options lane job rounds : Action σ β Bool)
      (enqueue B options lane job rounds) := by
  induction rounds with
  | zero => exact .fail _
  | succ rounds ih =>
    refine .bind (request_mirrors B _) fun outcome => ?_
    cases outcome with
    | added => exact .pure true
    | «exists» =>
      refine .bind (request_mirrors B _) fun outcome => ?_
      cases outcome with
      | deferred n => exact .bind (.record _ _) fun _ => .bind (.note _) fun _ => .pure false
      | missing => exact ih

theorem publish_mirrors (options : LaneOptions) (lane : Lane) (report : PushReport)
    (jobs : List JobPayload) :
    Mirrors Q (publish B options lane report jobs : Action σ β PushReport)
      (publish B options lane report jobs) := by
  induction jobs generalizing report with
  | nil => exact .pure report
  | cons job rest ih =>
    rw [publish_cons, publish_cons]
    exact .bind (enqueue_mirrors B options lane job maxRounds) fun _ => ih _

theorem push_mirrors (config : QueueConfig) (kind : JobKind) (ids : List String) :
    Mirrors Q (push B config kind ids : Action σ β PushReport) (push B config kind ids) :=
  .announcing (publish_mirrors B _ _ _ _)

end Queue

namespace Engine

variable {E : Engine σ β} {T : Storage τ} (hS : Storage.Mirrors Q E.storage T)
include hS

theorem query_mirrors (c : StoreCall) : Mirrors Q (E.query c) (({ E with storage := T }).query c) :=
  Transaction.query_mirrors hS c

theorem closeChangesets_mirrors (ids : List ChangesetId) (correlationId : String) :
    Mirrors Q (E.closeChangesets ids correlationId)
      (({ E with storage := T }).closeChangesets ids correlationId) := by
  unfold closeChangesets
  refine .announcing (.bind (Transaction.run_mirrors hS ?_ _ _) fun files => ?_)
  · exact .bind (query_mirrors hS _) fun _ => .bind (.note _) fun _ => query_mirrors hS _
  · dsimp only
    split
    · exact .bind (.bind (Queue.push_mirrors _ _ _ _) fun _ => .pure _) fun _ => .pure _
    · exact .pure _

theorem closeFile_mirrors (id : FileId) (correlationId : String) :
    Mirrors Q (E.closeFile id correlationId)
      (({ E with storage := T }).closeFile id correlationId) := by
  unfold closeFile
  refine .announcing (.bind (Transaction.run_mirrors hS (query_mirrors hS _) _ _) fun owner => ?_)
  cases owner with
  | none => exact .pure _
  | some sync =>
    exact .bind (.note _) fun _ => .bind (.bind (Queue.push_mirrors _ _ _ _) fun _ => .pure _)
      fun _ => .pure _

theorem closeSync_mirrors (id : SyncId) (correlationId : String) :
    Mirrors Q (E.closeSync id correlationId)
      (({ E with storage := T }).closeSync id correlationId) := by
  unfold closeSync
  refine .announcing (.bind (Transaction.run_mirrors hS (query_mirrors hS _) _ _) fun closed => ?_)
  dsimp only
  split
  · exact .bind (.note _) fun _ => .pure _
  · exact .pure _

omit hS in
theorem each_mirrors {ι ρ : Type} {f : ι → Action σ β ρ} {g : ι → Action τ β ρ}
    (h : ∀ a, Mirrors Q (f a) (g a)) (as : List ι) : Mirrors Q (each f as) (each g as) := by
  induction as with
  | nil => exact .pure _
  | cons a rest ih => exact .bind (h a) fun _ => .bind ih fun _ => .pure _

theorem handle_mirrors (job : JobPayload) :
    Mirrors Q (E.handle job) (({ E with storage := T }).handle job) := by
  unfold handle
  cases job.kind with
  | changesetClosure =>
    exact .bind (.ofExcept _) fun ids => .bind (closeChangesets_mirrors hS ids _) fun _ => .pure _
  | fileClosure =>
    exact .bind (.ofExcept _) fun ids =>
      .bind (each_mirrors (fun id => closeFile_mirrors hS id _) ids) fun _ => .pure _
  | syncClosure =>
    exact .bind (.ofExcept _) fun ids =>
      .bind (each_mirrors (fun id => closeSync_mirrors hS id _) ids) fun _ => .pure _

end Engine

namespace Rerun

theorem checkBase_mirrors (base : SyncId) (row : SyncRun) :
    Mirrors Q (checkBase base row : Action σ β Unit) (checkBase base row) := by
  unfold checkBase
  split
  · exact .fail _
  · exact .pure _

theorem checkLatest_mirrors (base : SyncId) (row : SyncRun) (latest : Option SyncRun) :
    Mirrors Q (checkLatest base row latest : Action σ β Unit) (checkLatest base row latest) := by
  unfold checkLatest
  split
  · exact .fail _
  · exact .pure _

variable {S : Storage σ} {T : Storage τ} (hS : Storage.Mirrors Q S T)
include hS

theorem insertNext_mirrors (base : SyncId) (row : SyncRun) (latest : Option SyncRun)
    (totalFiles : Option Int32) (request : RerunRequest) (report : SyncRun → Notice) :
    Mirrors Q (insertNext S base row latest totalFiles request report : Action σ β RerunOutcome)
      (insertNext T base row latest totalFiles request report) :=
  .bind (.ofExcept _) fun _ => .bind (Transaction.query_mirrors hS _) fun _ => .bind (.note _) fun _ =>
    .pure _

theorem build_mirrors (base : SyncId) (row : SyncRun) (latest : Option SyncRun) (deleted : Nat)
    (request : RerunRequest) :
    Mirrors Q (build S base row latest deleted request : Action σ β RerunOutcome)
      (build T base row latest deleted request) := by
  have hquery := Transaction.query_mirrors (β := β) hS
  unfold build
  refine .bind (hquery _) fun archived => .bind (hquery _) fun reopened =>
    .bind (hquery _) fun reset => ?_
  dsimp only
  split
  · exact .bind (.pure _) fun total => insertNext_mirrors hS base row latest total request _
  · exact .bind (hquery _) fun reread => .bind (.pure _) fun total =>
      insertNext_mirrors hS base row latest total request _

theorem attempt_mirrors (base : SyncId) (request : RerunRequest) :
    Mirrors Q (attempt S base request : Action σ β RerunOutcome) (attempt T base request) := by
  have hquery := Transaction.query_mirrors (β := β) hS
  unfold attempt
  refine .bind (hquery _) fun found => ?_
  cases found with
  | none => exact .fail _
  | some row =>
    refine .bind (checkBase_mirrors base row) fun _ => .bind (hquery _) fun latest =>
      .bind (checkLatest_mirrors base row latest) fun _ => .bind (hquery _) fun taken => ?_
    split
    · exact .fail _
    refine .bind (hquery _) fun deleted => ?_
    split
    · exact build_mirrors hS base row latest deleted request
    refine .bind (hquery _) fun _ => .bind (hquery _) fun closed => ?_
    split
    · exact build_mirrors hS base row latest deleted request
    · exact .pure _

theorem create_mirrors (config : TransactionConfig) (base : SyncId) (request : RerunRequest) :
    Mirrors Q (create S config base request : Action σ β RerunOutcome)
      (create T config base request) := by
  unfold create
  refine .announcing (.bind (Transaction.run_mirrors hS (attempt_mirrors hS base request) _ _)
    fun outcome => ?_)
  cases outcome with
  | created sync => exact .pure _
  | notCreated closed => exact .bind (.note _) fun _ => .pure _

end Rerun

namespace Worker

variable (W : Worker σ β) {V : Worker τ β}

theorem settleSuccess_mirrors {handler : JobPayload → Action τ β Json} (job : ClaimedJob)
    (result : Json) (duration : Timespan) :
    Mirrors Q (W.settleSuccess job result duration)
      (Worker.settleSuccess ⟨W.lane, W.broker, handler, W.config⟩ job result duration) := by
  unfold settleSuccess
  refine .bind (Queue.request_mirrors _ _) fun owned => ?_
  cases owned with
  | true => exact .bind (.record _ _) fun _ => .bind (.note _) fun _ => .pure _
  | false => exact .bind (.note _) fun _ => .pure _

theorem drawDelay_mirrors {handler : JobPayload → Action τ β Json} :
    Mirrors Q W.drawDelay (Worker.drawDelay ⟨W.lane, W.broker, handler, W.config⟩) := by
  unfold drawDelay
  refine .world_bind fun w t => .bind ?_ fun _ => .pure _
  exact .reseed fun seed => (seed * 6364136223846793005 + 1442695040888963407) % Word.limit 64

theorem settleTransactionFailure_mirrors {handler : JobPayload → Action τ β Json}
    (job : ClaimedJob) (error : Failure) (duration : Timespan) :
    Mirrors Q (W.settleTransactionFailure job error duration)
      (Worker.settleTransactionFailure ⟨W.lane, W.broker, handler, W.config⟩ job error
        duration) := by
  unfold settleTransactionFailure
  exact .bind (drawDelay_mirrors W) fun _ => .bind (Queue.request_mirrors _ _) fun _ =>
    .bind (.record _ _) fun _ => .bind (.record _ _) fun _ => .bind (.note _) fun _ => .pure _

theorem settleFailure_mirrors {handler : JobPayload → Action τ β Json} (job : ClaimedJob)
    (error : Failure) (duration : Timespan) :
    Mirrors Q (W.settleFailure job error duration)
      (Worker.settleFailure ⟨W.lane, W.broker, handler, W.config⟩ job error duration) := by
  unfold settleFailure
  refine .bind (Queue.request_mirrors _ _) fun disposition => .bind (.record _ _) fun _ => ?_
  dsimp only
  split
  · exact .bind (.record _ _) fun _ => .bind (.note _) fun _ => .pure _
  · exact .bind (.note _) fun _ => .pure _

theorem processNext_mirrors {handler : JobPayload → Action τ β Json}
    (h : ∀ job, Mirrors Q (W.handler job) (handler job)) :
    Mirrors Q W.processNext (Worker.processNext ⟨W.lane, W.broker, handler, W.config⟩) := by
  unfold processNext
  refine .bind (Queue.request_mirrors _ _) fun claimed => ?_
  cases claimed with
  | none => exact .pure _
  | some job =>
    refine .bind (.note _) fun _ => .world_bind fun before _ =>
      .bind (h job.payload).attempt fun result => .world_bind fun after _ => ?_
    cases result with
    | ok value => exact settleSuccess_mirrors W job value _
    | error e =>
      dsimp only
      split
      · exact settleTransactionFailure_mirrors W job e _
      · exact settleFailure_mirrors W job e _

theorem reportStalled_mirrors {handler : JobPayload → Action τ β Json} (jobs : List StalledJob) :
    Mirrors Q (W.reportStalled jobs)
      (Worker.reportStalled ⟨W.lane, W.broker, handler, W.config⟩ jobs) := by
  induction jobs with
  | nil => exact .pure _
  | cons job rest ih =>
    refine .bind (.record _ _) fun _ => ?_
    dsimp only
    split
    · exact .bind (.record _ _) fun _ => .bind (.note _) fun _ => ih
    · exact .bind (.note _) fun _ => ih

theorem recoverStalled_mirrors {handler : JobPayload → Action τ β Json} :
    Mirrors Q W.recoverStalled (Worker.recoverStalled ⟨W.lane, W.broker, handler, W.config⟩) := by
  unfold recoverStalled
  exact .bind (Queue.request_mirrors _ _) fun stalled =>
    .bind (reportStalled_mirrors W stalled) fun _ => .pure _

end Worker

end SyncCascade
