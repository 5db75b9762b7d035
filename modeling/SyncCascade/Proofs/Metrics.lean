import SyncCascade.Job
import SyncCascade.Metrics
import SyncCascade.Proofs.Table

/-!
# What is counted on a lane

A sample is counted on its lane, and on no other.
-/

namespace SyncCascade

theorem Lane.name_injective {lane lane' : Lane} (h : lane.name = lane'.name) : lane = lane' := by
  cases lane <;> cases lane' <;> first | rfl | exact absurd h (by decide)

namespace Metrics

theorem lane_record (m : Metrics) (name : String) (s : LaneMetrics.Sample) :
    (m.record name s).lane name = (m.lane name).record s := by
  unfold record lane
  rw [Table.find?_insert, if_pos rfl]
  rfl

theorem lane_record_of_ne (m : Metrics) {name name' : String} (s : LaneMetrics.Sample)
    (h : name' ≠ name) : (m.record name s).lane name' = m.lane name' := by
  unfold record lane
  rw [Table.find?_insert, if_neg h]

theorem duplicates_record (m : Metrics) (lane lane' : Lane) :
    ((m.record lane.name .duplicate).lane lane'.name).duplicates =
      (m.lane lane'.name).duplicates + if lane' = lane then 1 else 0 := by
  by_cases h : lane' = lane
  · subst h
    rw [if_pos rfl, lane_record]
    rfl
  · rw [if_neg h, lane_record_of_ne m _ fun hname => h (Lane.name_injective hname)]
    rfl

end Metrics

end SyncCascade
