import SyncCascade.Broker.Memory
import SyncCascade.Proofs.Action
import SyncCascade.Queue

/-!
# What the lanes in memory answer

The lanes answer every call, and nothing else in the world changes by it.
-/

namespace SyncCascade

namespace World

variable {σ : Type} {w : World σ Lanes}

def answer (w : World σ Lanes) (c : BrokerCall) : c.Reply := (w.broker.apply w.clock c).1

def told (w : World σ Lanes) (c : BrokerCall) : World σ Lanes :=
  { w with broker := (w.broker.apply w.clock c).2 }

namespace Standing

variable {P : σ → Prop} {l : Lanes} {clock : Clock}

theorem answer (h : w.Standing P l clock) (c : BrokerCall) : w.answer c = (l.apply clock c).1 := by
  obtain ⟨-, rfl, rfl⟩ := h
  rfl

theorem told (h : w.Standing P l clock) (c : BrokerCall) :
    (w.told c).Standing P (l.apply clock c).2 clock := by
  obtain ⟨hstore, rfl, rfl⟩ := h
  exact ⟨hstore, rfl, rfl⟩

end Standing

end World

theorem Queue.request_rule {σ α : Type} {w : World σ Lanes} {c : BrokerCall}
    {k : c.Reply → Action σ Lanes α} {R : α → World σ Lanes → Prop}
    {F : Failure → World σ Lanes → Prop} (h : (k (w.answer c)).Ensures (w.told c) R F) :
    (request Lanes.broker c >>= k).Ensures w R F :=
  Action.ensures_bind.2 h

end SyncCascade
