import SyncCascade.Json
import SyncCascade.Table
import SyncCascade.Timespan
import SyncCascade.Word

/-!
# Metrics of the lanes

Every lane counts what became of its jobs and sorts the time each job took into buckets of whole
milliseconds. A lane appears in the registry when it is first used.
-/

namespace SyncCascade

structure Histogram where
  /-- One number for each bound and one for what exceeds them all. -/
  buckets : List Nat
  count : Nat
  sumMillis : Nat
deriving DecidableEq, Repr

namespace Histogram

/-- The greatest whole milliseconds of each bucket but the last. -/
def bounds : List Nat := [10, 50, 100, 250, 500, 1000, 2500, 5000, 10000]

def empty : Histogram := ⟨List.replicate (bounds.length + 1) 0, 0, 0⟩

def slot (millis : Nat) : Nat := (bounds.findIdx? fun bound => millis ≤ bound).getD bounds.length

def observe (h : Histogram) (duration : Timespan) : Histogram :=
  let millis := duration.wholeMillis % Word.limit 64
  ⟨h.buckets.modify (slot millis) (· + 1), h.count + 1, h.sumMillis + millis⟩

end Histogram

structure LaneMetrics where
  completed : Nat
  failed : Nat
  stalled : Nat
  transactionFailures : Nat
  /-- Jobs handed back to the broker for another delivery. -/
  retries : Nat
  duplicates : Nat
  processing : Histogram
deriving DecidableEq, Repr

namespace LaneMetrics

def empty : LaneMetrics := ⟨0, 0, 0, 0, 0, 0, .empty⟩

inductive Sample where
  | completed (duration : Timespan)
  | failed (duration : Timespan)
  | transactionFailure (duration : Timespan)
  | stalled
  | retry
  | duplicate
deriving DecidableEq, Repr

def record (m : LaneMetrics) : Sample → LaneMetrics
  | .completed d => { m with completed := m.completed + 1, processing := m.processing.observe d }
  | .failed d => { m with failed := m.failed + 1, processing := m.processing.observe d }
  | .transactionFailure d =>
    { m with transactionFailures := m.transactionFailures + 1, processing := m.processing.observe d }
  | .stalled => { m with stalled := m.stalled + 1 }
  | .retry => { m with retries := m.retries + 1 }
  | .duplicate => { m with duplicates := m.duplicates + 1 }

end LaneMetrics

/-- The metrics of the lanes used so far, by name. -/
structure Metrics where
  lanes : Table String LaneMetrics
deriving DecidableEq

namespace Metrics

def empty : Metrics := ⟨.empty⟩

def lane (m : Metrics) (name : String) : LaneMetrics := (m.lanes.find? name).getD .empty

def touch (m : Metrics) (name : String) : Metrics := ⟨m.lanes.insert name (m.lane name)⟩

def record (m : Metrics) (name : String) (s : LaneMetrics.Sample) : Metrics :=
  ⟨m.lanes.insert name ((m.lane name).record s)⟩

end Metrics

namespace Histogram

open Json

def bucketJson (bound : Option Nat) (count : Nat) : Json :=
  .object [("count", ofNat count), ("le_ms", ofOption ofNat bound)]

/-- The sum is shown as a 64-bit word. -/
def toJson (h : Histogram) : Json := .object [
  ("buckets", .array (List.zipWith bucketJson (bounds.map some ++ [none]) h.buckets)),
  ("count", ofNat h.count),
  ("sum_ms", ofNat (h.sumMillis % Word.limit 64))]

end Histogram

namespace Metrics

open Json

def laneJson (name : String) (m : LaneMetrics) : Json := .object [
  ("completed", ofNat m.completed),
  ("duplicates", ofNat m.duplicates),
  ("failed", ofNat m.failed),
  ("lane", .string name),
  ("processing", m.processing.toJson),
  ("retries", ofNat m.retries),
  ("stalled", ofNat m.stalled),
  ("transaction_failures", ofNat m.transactionFailures)]

def toJson (m : Metrics) : Json := .array (m.lanes.entries.map fun e => laneJson e.1 e.2)

end Metrics

end SyncCascade
