import SyncCascade.Closure
import SyncCascade.Rerun
import SyncCascade.Settings
import SyncCascade.Worker.Crew

/-!
# The service

The closure cascade, reruns and workers over one storage and one broker, as the settings say.
-/

namespace SyncCascade

structure Service (σ β : Type) where
  storage : Storage σ
  broker : Broker β
  settings : Settings

namespace Service

variable {σ β : Type} (S : Service σ β)

def engine : Engine σ β where
  storage := S.storage
  broker := S.broker
  transaction := S.settings.transaction
  queue := S.settings.queue

def createRerun (base : SyncId) (request : RerunRequest) : Action σ β RerunOutcome :=
  Rerun.create S.storage S.settings.transaction base request

def ping : Action σ β Unit := .onStore fun _ s => S.storage.ping s

def countLanes : List Lane → Action σ β (List (Lane × LaneCounts))
  | [] => pure []
  | lane :: rest => do
    let counts ← Queue.request S.broker (.counts lane)
    let others ← countLanes rest
    pure ((lane, counts) :: others)

def worker (lane : Lane) : Worker σ β where
  lane := lane
  broker := S.broker
  handler := S.engine.handle
  config := S.settings.worker

/-- Lets a worker for each lane run for a time, then stops them and lets go of the storage. -/
def run (millis : Nat) : Action σ β Unit := do
  Crew.work (Lane.all.map S.worker) millis
  .update fun w => { w with store := S.storage.release w.store }
  .note .servicesStopped

end Service

end SyncCascade
