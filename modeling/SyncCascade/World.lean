import SyncCascade.Clock
import SyncCascade.Journal
import SyncCascade.Metrics

/-!
# The world of an action

An action works on a store, a broker, the metrics, the clock and the journal. It gives a result or a
failure, and what it did before a failure stays done: undoing is the work of transactions.
-/

namespace SyncCascade

structure World (σ β : Type) where
  store : σ
  broker : β
  metrics : Metrics
  clock : Clock
  /-- The oldest notice first. -/
  journal : Array Notice
  /-- From which random delays are drawn. -/
  seed : Nat

/-- Nothing has happened yet, and the clock stands at the epoch. -/
def World.initial {σ β : Type} (store : σ) (broker : β) : World σ β :=
  ⟨store, broker, .empty, ⟨⟨0, 0⟩, 0⟩, #[], 0⟩

/-- An action over a store in state `σ` and a broker in state `β`. -/
abbrev Action (σ β α : Type) := ExceptT Failure (StateM (World σ β)) α

namespace Action

variable {σ β α : Type}

def run (a : Action σ β α) (w : World σ β) : Except Failure α × World σ β := a w

def ofFunction (f : World σ β → Except Failure α × World σ β) : Action σ β α := f

def world : Action σ β (World σ β) := ofFunction fun w => (.ok w, w)

def update (f : World σ β → World σ β) : Action σ β Unit := ofFunction fun w => (.ok (), f w)

def fail (e : Failure) : Action σ β α := ofFunction fun w => (.error e, w)

def note (n : Notice) : Action σ β Unit :=
  update fun w => { w with journal := w.journal.push n }

def record (lane : Lane) (s : LaneMetrics.Sample) : Action σ β Unit :=
  update fun w => { w with metrics := w.metrics.record lane.name s }

def touch (lane : Lane) : Action σ β Unit :=
  update fun w => { w with metrics := w.metrics.touch lane.name }

/-- A failure becomes a result. -/
def attempt (a : Action σ β α) : Action σ β (Except Failure α) :=
  ofFunction fun w => (.ok (a w).1, (a w).2)

def ofExcept : Except Failure α → Action σ β α
  | .ok a => pure a
  | .error e => fail e

/-- Reports a failure of the action in the journal. -/
def announcing (a : Action σ β α) : Action σ β α :=
  ofFunction fun w =>
    match a w with
    | (.ok r, w) => (.ok r, w)
    | (.error e, w) => (.error e, { w with journal := w.journal.push (.failure e) })

def announcingIf (b : Bool) (a : Action σ β α) : Action σ β α := if b then announcing a else a

def onStore (f : Clock → σ → Except Failure α × σ) : Action σ β α :=
  ofFunction fun w =>
    match f w.clock w.store with
    | (r, s) => (r, { w with store := s })

def onBroker (f : Clock → β → Except Failure α × β) : Action σ β α :=
  ofFunction fun w =>
    match f w.clock w.broker with
    | (r, b) => (r, { w with broker := b })

end Action

end SyncCascade
