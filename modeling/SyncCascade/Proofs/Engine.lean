import SyncCascade.Proofs.Broker.Reports
import SyncCascade.Proofs.Closure
import SyncCascade.Proofs.Store.Session
import SyncCascade.Proofs.SyncHistory

/-!
# The closure engine in memory, over any broker

Each operation of the engine is one transaction and then perhaps a push. Nothing that a broker answers
reaches the database: an operation that fails left the database as it was, or it failed after its
transaction was committed. A transaction fails for want of attempts only.
-/

namespace SyncCascade

/-- What `P` says of the store, at this time. Of the broker nothing is said. -/
def World.At {σ β : Type} (P : σ → Prop) (clock : Clock) (w : World σ β) : Prop :=
  P w.store ∧ w.clock = clock

section At

variable {σ β : Type} {P : σ → Prop} {b : β} {clock : Clock} {w : World σ β}

theorem World.at_blind : World.Blind (World.At (β := β) P clock) := fun _ _ _ h => h

theorem World.Standing.at (h : World.Standing P b clock w) : w.At P clock := ⟨h.1, h.2.2⟩

open SyncCascade.Action

namespace Queue

variable (B : Broker β)

theorem request_at (c : BrokerCall) (h : w.At P clock) :
    (request B c).Ensures w (fun _ w' => w'.At P clock) fun _ w' => w'.At P clock := by
  unfold request
  refine Ensures.announcingIf (ensures_onBroker.2 ?_) (fun _ => World.at_blind) _
  obtain ⟨answer | answer, b⟩ := B.call w.clock c w.broker <;> exact h

theorem enqueue_at (options : LaneOptions) (lane : Lane) (job : JobPayload) (rounds : Nat)
    (h : w.At P clock) :
    (enqueue B options lane job rounds).Ensures w (fun _ w' => w'.At P clock)
      fun _ w' => w'.At P clock := by
  induction rounds generalizing w with
  | zero => exact h
  | succ rounds ih =>
    unfold enqueue
    rw [ensures_bind]
    refine (request_at B _ h).mono (fun outcome w₁ h₁ => ?_) fun _ _ h => h
    cases outcome with
    | added => exact h₁
    | «exists» =>
      rw [ensures_bind]
      refine (request_at B _ h₁).mono (fun outcome w₂ h₂ => ?_) fun _ _ h => h
      cases outcome with
      | deferred n =>
        exact ensures_record_bind World.at_blind h₂ fun w₃ h₃ =>
          ensures_note_bind World.at_blind h₃ fun _ h₄ => h₄
      | missing => exact ih h₂

theorem publish_at (options : LaneOptions) (lane : Lane) (report : PushReport)
    (jobs : List JobPayload) (h : w.At P clock) :
    (publish B options lane report jobs).Ensures w (fun _ w' => w'.At P clock)
      fun _ w' => w'.At P clock := by
  induction jobs generalizing w report with
  | nil => exact h
  | cons job rest ih =>
    rw [publish_cons, ensures_bind]
    exact (enqueue_at B _ _ _ _ h).mono (fun _ _ h' => ih _ h') fun _ _ h => h

theorem push_at (config : QueueConfig) (kind : JobKind) (ids : List String) (h : w.At P clock) :
    (push B config kind ids).Ensures w (fun _ w' => w'.At P clock) fun _ w' => w'.At P clock :=
  (publish_at B _ _ _ _ h).announcing fun _ => World.at_blind

end Queue

end At

namespace Engine

open SyncCascade.Action SyncCascade.Session

section Rules

variable {β : Type} {B : Broker β} {transaction : TransactionConfig} {queue : QueueConfig}
  {db : Database} {n : Nat} {b : β} {clock : Clock} {w : World Session β}

theorem transact_query {c : StoreCall} {reply : c.Reply} {db' : Database}
    (happly : db.apply clock.wall c = .ok (reply, db')) (operation correlationId : String)
    (h : World.Standing (Awaits db n) b clock w) :
    ((plainEngine B transaction queue).transact operation correlationId
        ((plainEngine B transaction queue).query c)).Ensures w
      (fun r w' => r = reply ∧ World.Standing (Has db') b clock w')
      fun _ w' => transaction.retry.attempts ≤ n ∧ World.Standing (Has db) b clock w' := by
  refine (run_counted (Q := fun r view => r = reply ∧ view = db') (E := fun _ => False)
    (fun _ he => he.elim) (fun n w hw => ?_) _ h).mono ?_ ?_
  · refine (query_views hw happly).mono ?_ fun _ _ h => h.elim
    rintro _ w' ⟨rfl, h'⟩
    exact ⟨db', ⟨rfl, rfl⟩, h'⟩
  · rintro _ w' ⟨_, ⟨rfl, rfl⟩, h'⟩
    exact ⟨rfl, h'⟩
  · rintro e w' ⟨hfail, h'⟩
    exact ⟨hfail.resolve_left id, h'⟩

section Close

variable {R : FileClosure → World Session β → Prop} {F : Failure → World Session β → Prop}

/-- The rule for closing a file: what is to be shown of the push that follows the transaction. -/
theorem closeFile_rule {id : FileId} {owner : Option SyncId} {db' : Database}
    (hclose : db.tryCloseFile clock.wall id = (owner, db')) (hF : ∀ e, World.Blind (F e))
    (hnone : ∀ w', owner = none → World.Standing (Has db') b clock w' → R ⟨id, none⟩ w')
    (hsome : ∀ sync w', owner = some sync → World.Standing (Has db') b clock w' →
      ((plainEngine B transaction queue).push .syncClosure [sync.uuid.text]).Ensures w'
        (fun _ w'' => R ⟨id, some sync⟩ w'') F)
    (hfail : ∀ e w', transaction.retry.attempts ≤ n → World.Standing (Has db) b clock w' → F e w')
    (correlationId : String) (h : World.Standing (Awaits db n) b clock w) :
    ((plainEngine B transaction queue).closeFile id correlationId).Ensures w R F := by
  have happly : db.apply clock.wall (.tryCloseFile id) = .ok (owner, db') := congrArg Except.ok hclose
  refine closeFile_of_transact ((transact_query happly _ _ h).mono (fun _ _ h => h)
    fun e w' h' => hfail e w' h'.1 h'.2) (fun _ _ _ _ h => h) hF ?_ ?_
  · rintro w' ⟨rfl, h'⟩
    exact hnone w' rfl h'
  · rintro sync w' ⟨rfl, h'⟩
    exact hsome sync w' rfl h'

end Close

theorem closeFile_ensures (id : FileId) (correlationId : String)
    (h : World.Standing (Awaits db n) b clock w) :
    ((plainEngine B transaction queue).closeFile id correlationId).Ensures w
      (fun _ w' => w'.At (Has (db.tryCloseFile clock.wall id).2) clock)
      fun _ w' => w'.At (Has (db.tryCloseFile clock.wall id).2) clock ∨
        transaction.retry.attempts ≤ n ∧ w'.At (Has db) clock := by
  have hclose : db.tryCloseFile clock.wall id =
      ((db.tryCloseFile clock.wall id).1, (db.tryCloseFile clock.wall id).2) := rfl
  refine closeFile_rule hclose (fun _ _ _ _ h => h) (fun w' _ h' => h'.at) (fun sync w' _ h' => ?_)
    (fun e w' hfail h' => .inr ⟨hfail, h'.at⟩) correlationId h
  exact (Queue.push_at B queue _ _ h'.at).mono (fun _ _ h => h) fun _ _ h => .inl h

theorem closeChangesets_ensures (ids : List ChangesetId) (correlationId : String)
    (h : World.Standing (Awaits db n) b clock w) :
    ((plainEngine B transaction queue).closeChangesets ids correlationId).Ensures w
      (fun _ w' => w'.At (Has (db.markCompleted ids).2) clock)
      fun _ w' => w'.At (Has (db.markCompleted ids).2) clock ∨
        transaction.retry.attempts ≤ n ∧ w'.At (Has db) clock := by
  refine closeChangesets_of_transact (P := fun _ w' => w'.At (Has (db.markCompleted ids).2) clock)
    ?_ (fun _ _ _ _ h => h) (fun _ h' => h') fun files w' h' =>
      (Queue.push_at B queue _ _ h').mono (fun _ _ h => h) fun _ _ h => .inl h
  refine (run_counted (Q := fun _ db' => db' = (db.markCompleted ids).2) (E := fun _ => False)
    (fun _ he => he.elim) (fun n w hw => ?_) _ h).mono ?_ ?_
  · refine query_bind hw rfl fun w₁ h₁ => ?_
    refine ensures_note_bind World.standing_blind h₁ fun w₂ h₂ => ?_
    refine (query_views h₂ rfl).mono ?_ fun _ _ h => h.elim
    exact fun files w₃ h₃ => ⟨_, rfl, h₃.2⟩
  · rintro files w' ⟨_, rfl, h'⟩
    exact h'.at
  · exact fun e w' h' => .inr ⟨h'.1.resolve_left id, h'.2.at⟩

theorem closeSync_ensures (id : SyncId) (correlationId : String)
    (h : World.Standing (Awaits db n) b clock w) :
    ((plainEngine B transaction queue).closeSync id correlationId).Ensures w
      (fun r w' => r.closed = (db.tryCloseSync clock.wall id).1 ∧
        w'.At (Has (db.tryCloseSync clock.wall id).2) clock)
      fun _ w' => transaction.retry.attempts ≤ n ∧ w'.At (Has db) clock := by
  have happly : db.apply clock.wall (.tryCloseSync id) =
      .ok ((db.tryCloseSync clock.wall id).1, (db.tryCloseSync clock.wall id).2) := rfl
  refine closeSync_of_transact ((transact_query happly _ _ h).mono (fun _ _ h => h)
    fun _ _ h' => ⟨h'.1, h'.2.at⟩) (fun _ _ _ _ h => h) (fun _ _ _ _ h => h) ?_
  rintro _ w' ⟨rfl, h'⟩
  exact ⟨rfl, h'.at⟩

end Rules

end Engine

end SyncCascade
