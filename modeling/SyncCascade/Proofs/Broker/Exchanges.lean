import SyncCascade.Proofs.Action
import SyncCascade.Proofs.Broker.Reports

/-!
# What a broker was asked and answered

Any broker can be logged: beside its state stand the calls that it got, with its answers, and nothing
else changes. A job reaches a lane exactly if the broker says so, by adding it or by moving back a
pending job with its identifier.
-/

namespace SyncCascade

/-- The answer says that the lane now holds the job. -/
def BrokerCall.takes (lane : Lane) (job : JobPayload) :
    (c : BrokerCall) → Except Failure c.Reply → Bool
  | add lane' job' _ _, .ok .added => decide (lane' = lane ∧ job' = job)
  | defer lane' id _, .ok (.deferred _) => decide (lane' = lane ∧ id = job.id)
  | _, _ => false

/-- A call and the answer to it. -/
structure Exchange where
  call : BrokerCall
  answer : Except Failure call.Reply

def Exchange.takes (lane : Lane) (job : JobPayload) (x : Exchange) : Bool :=
  x.call.takes lane job x.answer

/-- The state of a broker and the exchanges with it, the first one first. -/
structure Logged (β : Type) where
  state : β
  exchanges : List Exchange

/-- The broker with its exchanges written down. -/
def Broker.logged {β : Type} (B : Broker β) : Broker (Logged β) where
  call clock c l :=
    let (answer, b) := B.call clock c l.state
    (answer, ⟨b, l.exchanges ++ [⟨c, answer⟩]⟩)
  announces := B.announces

def World.Heard {σ β : Type} (exchanges : List Exchange) (w : World σ (Logged β)) : Prop :=
  w.broker.exchanges = exchanges

theorem World.heard_blind {σ β : Type} {exchanges : List Exchange} :
    World.Blind (World.Heard (σ := σ) (β := β) exchanges) := fun _ _ _ h => h

def World.unlogged {σ β : Type} (w : World σ (Logged β)) : World σ β :=
  ⟨w.store, w.broker.state, w.metrics, w.clock, w.journal, w.seed⟩

/-- `b` does without the log what `a` does with it. -/
def Action.Unlogs {σ β α : Type} (a : Action σ (Logged β) α) (b : Action σ β α) : Prop :=
  ∀ w, b.run w.unlogged = ((a.run w).1, (a.run w).2.unlogged)

namespace Action.Unlogs

variable {σ β α γ : Type} {a : Action σ (Logged β) α} {b : Action σ β α}

theorem bind {k : α → Action σ (Logged β) γ} {l : α → Action σ β γ} (h : a.Unlogs b)
    (hk : ∀ r, (k r).Unlogs (l r)) : (a >>= k).Unlogs (b >>= l) := by
  intro w
  simp only [run_bind, h w]
  generalize a.run w = out
  obtain ⟨r | r, w'⟩ := out
  · rfl
  · exact hk r w'

theorem announcing (h : a.Unlogs b) : a.announcing.Unlogs b.announcing := by
  intro w
  simp only [run_announcing, h w]
  generalize a.run w = out
  obtain ⟨r | r, w'⟩ := out <;> rfl

theorem announcingIf (h : a.Unlogs b) (c : Bool) : (a.announcingIf c).Unlogs (b.announcingIf c) := by
  unfold Action.announcingIf
  split
  · exact h.announcing
  · exact h

end Action.Unlogs

namespace Queue

section Unlogged

variable {σ β : Type} (B : Broker β)

theorem request_unlogs (c : BrokerCall) :
    (request B.logged c : Action σ (Logged β) c.Reply).Unlogs (request B c) :=
  Action.Unlogs.announcingIf (fun _ => rfl) _

theorem enqueue_unlogs (options : LaneOptions) (lane : Lane) (job : JobPayload) (rounds : Nat) :
    (enqueue B.logged options lane job rounds : Action σ (Logged β) Bool).Unlogs
      (enqueue B options lane job rounds) := by
  induction rounds with
  | zero => exact fun _ => rfl
  | succ rounds ih =>
    refine (request_unlogs B _).bind fun outcome => ?_
    cases outcome with
    | added => exact fun _ => rfl
    | «exists» =>
      refine (request_unlogs B _).bind fun outcome => ?_
      cases outcome with
      | deferred n => exact fun _ => rfl
      | missing => exact ih

theorem publish_unlogs (options : LaneOptions) (lane : Lane) (report : PushReport)
    (jobs : List JobPayload) :
    (publish B.logged options lane report jobs : Action σ (Logged β) PushReport).Unlogs
      (publish B options lane report jobs) := by
  induction jobs generalizing report with
  | nil => exact fun _ => rfl
  | cons job rest ih =>
    rw [publish_cons, publish_cons]
    exact (enqueue_unlogs B options lane job maxRounds).bind fun _ => ih _

/-- A push does the same whether or not its broker is logged. -/
theorem push_unlogs (config : QueueConfig) (kind : JobKind) (ids : List String) :
    (push B.logged config kind ids : Action σ (Logged β) PushReport).Unlogs
      (push B config kind ids) :=
  (publish_unlogs B _ _ _ _).announcing

end Unlogged

open SyncCascade.Action

variable {σ β : Type} (B : Broker β) {w : World σ (Logged β)} {before : List Exchange}

theorem request_heard (c : BrokerCall) (h : w.Heard before) :
    (request B.logged c).Ensures w
      (fun reply w' => w'.Heard (before ++ [⟨c, .ok reply⟩]))
      fun e w' => w'.Heard (before ++ [⟨c, .error e⟩]) := by
  unfold request
  refine Ensures.announcingIf (ensures_onBroker.2 ?_) (fun _ => World.heard_blind) _
  unfold World.Heard at h ⊢
  dsimp only [Broker.logged]
  rw [h]
  generalize (B.call w.clock c w.broker.state).1 = answer
  cases answer <;> rfl

/-- Of the exchanges since `before` some or none took the job, as `taken` says. -/
def Offered (lane : Lane) (job : JobPayload) (before : List Exchange) (taken : Bool)
    (w : World σ (Logged β)) : Prop :=
  ∃ more, w.Heard (before ++ more) ∧ more.any (Exchange.takes lane job) = taken

theorem offered_blind {lane : Lane} {job : JobPayload} {taken : Bool} :
    World.Blind (Offered (σ := σ) (β := β) lane job before taken) := fun _ _ _ h => h

theorem Offered.trans {lane : Lane} {job : JobPayload} {more : List Exchange} {taken : Bool}
    (hmore : more.any (Exchange.takes lane job) = false)
    (h : Offered lane job (before ++ more) taken w) : Offered lane job before taken w := by
  obtain ⟨more', hheard, htaken⟩ := h
  refine ⟨more ++ more', ?_, ?_⟩
  · rwa [← List.append_assoc]
  · rw [List.any_append, hmore, Bool.false_or, htaken]

end Queue

end SyncCascade
