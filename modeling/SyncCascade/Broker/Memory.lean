import SyncCascade.Broker.LaneState

/-!
# The broker in memory

Three lanes that share nothing.
-/

namespace SyncCascade

structure Lanes where
  changesets : LaneState
  files : LaneState
  syncs : LaneState
deriving DecidableEq

namespace Lanes

def empty : Lanes := ⟨.empty, .empty, .empty⟩

def get (l : Lanes) : Lane → LaneState
  | .changesets => l.changesets
  | .files => l.files
  | .syncs => l.syncs

def set (l : Lanes) (lane : Lane) (s : LaneState) : Lanes :=
  match lane with
  | .changesets => { l with changesets := s }
  | .files => { l with files := s }
  | .syncs => { l with syncs := s }

def step {α : Type} (l : Lanes) (lane : Lane) (f : LaneState → α × LaneState) : α × Lanes :=
  match f (l.get lane) with
  | (a, s) => (a, l.set lane s)

/-- The reply to a call and the lanes after it; no call fails. -/
def apply (clock : Clock) (l : Lanes) : (c : BrokerCall) → c.Reply × Lanes
  | .add lane job options delay => l.step lane fun s => s.add clock.elapsed job options delay
  | .defer lane id delay => l.step lane fun s => s.defer clock.elapsed id delay
  | .claim lane lease => l.step lane fun s => s.claim clock.elapsed lease
  | .complete lane id token => l.step lane fun s => s.complete id token
  | .fail lane id token error => l.step lane fun s => s.fail clock id token error
  | .retryLater lane payload token delay =>
    l.step lane fun s => s.retryLater clock.elapsed payload token delay
  | .recoverStalled lane => l.step lane fun s => s.recoverStalled clock
  | .counts lane => ((l.get lane).counts clock.elapsed, l)
  | .failedJobs lane => ((l.get lane).failed, l)

def broker : Broker Lanes where
  call clock c l :=
    match l.apply clock c with
    | (reply, l) => (.ok reply, l)
  announces _ := false

end Lanes

end SyncCascade
