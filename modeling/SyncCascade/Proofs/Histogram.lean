import Mathlib.Algebra.GroupWithZero.Nat
import SyncCascade.Metrics

/-!
# Buckets

The buckets of a histogram divide all durations among them: each duration is above the bound before one
bucket and not above its own, and this is the bucket in which it is counted. So the buckets together hold
what was counted at all.
-/

namespace SyncCascade.Histogram

/-- The milliseconds are above the bound before the bucket, and not above its own. The first bucket has no
bound before it, the last one none of its own. -/
def covers (i millis : Nat) : Bool :=
  (i == 0 || bounds[i - 1]?.all (· < millis)) && bounds[i]?.all (millis ≤ ·)

theorem covers_eq_true {i millis : Nat} : covers i millis = true ↔
    (∀ b, i ≠ 0 → bounds[i - 1]? = some b → b < millis) ∧ ∀ b, bounds[i]? = some b → millis ≤ b := by
  simp only [covers, Bool.and_eq_true, Bool.or_eq_true, beq_iff_eq, Option.all_eq_true,
    decide_eq_true_eq]
  refine and_congr_left fun _ => ⟨fun h b hi hb => ?_, fun h => ?_⟩
  · exact h.resolve_left hi b hb
  · exact (Decidable.em (i = 0)).imp_right fun hi b => h b hi

theorem slot_le (millis : Nat) : slot millis ≤ bounds.length := by
  rw [slot, ← List.findIdx_eq_getD_findIdx?]
  exact List.findIdx_le_length

theorem covers_slot (millis : Nat) : covers (slot millis) millis = true := by
  rw [covers_eq_true, slot, ← List.findIdx_eq_getD_findIdx?]
  refine ⟨fun b hpos hb => ?_, fun b hb => ?_⟩
  · obtain ⟨hlt, rfl⟩ := List.getElem?_eq_some_iff.1 hb
    have hbefore := List.not_of_lt_findIdx (Nat.sub_one_lt hpos)
    simpa using hbefore
  · obtain ⟨hlt, rfl⟩ := List.getElem?_eq_some_iff.1 hb
    exact of_decide_eq_true (List.findIdx_getElem (w := hlt))

theorem bounds_le {i j b c : Nat} (hij : i ≤ j) (hb : bounds[i]? = some b) (hc : bounds[j]? = some c) :
    b ≤ c := by
  have hsorted : bounds.Pairwise (· < ·) := by decide
  obtain ⟨hi, rfl⟩ := List.getElem?_eq_some_iff.1 hb
  obtain ⟨hj, rfl⟩ := List.getElem?_eq_some_iff.1 hc
  rcases Nat.eq_or_lt_of_le hij with rfl | hlt
  · exact Nat.le_refl _
  · exact Nat.le_of_lt (List.pairwise_iff_getElem.1 hsorted i j hi hj hlt)

theorem not_covers_of_lt {i j millis : Nat} (hij : i < j) (hj : j ≤ bounds.length)
    (hi : covers i millis = true) : covers j millis = false := by
  rw [← Bool.not_eq_true, covers_eq_true]
  rintro ⟨habove, -⟩
  have hown : bounds[i]? = some bounds[i] := List.getElem?_eq_getElem _
  have hbefore : bounds[j - 1]? = some bounds[j - 1] := List.getElem?_eq_getElem _
  have hle := (covers_eq_true.1 hi).2 _ hown
  have hlt := habove _ (Nat.ne_zero_of_lt hij) hbefore
  have := bounds_le (Nat.le_sub_one_of_lt hij) hown hbefore
  omega

/-- The bucket of a duration is the only one that covers it. -/
theorem slot_eq_iff {i millis : Nat} (hi : i ≤ bounds.length) :
    slot millis = i ↔ covers i millis = true := by
  refine ⟨fun h => h ▸ covers_slot millis, fun h => ?_⟩
  rcases Nat.lt_trichotomy (slot millis) i with hlt | heq | hlt
  · rw [not_covers_of_lt hlt hi (covers_slot millis)] at h
    cases h
  · exact heq
  · have hnot := not_covers_of_lt hlt (slot_le millis) h
    rw [covers_slot] at hnot
    cases hnot

/-- The buckets hold what was counted. -/
structure Sound (h : Histogram) : Prop where
  size : h.buckets.length = bounds.length + 1
  total : h.buckets.sum = h.count

theorem sum_modify {buckets : List Nat} {i : Nat} (hi : i < buckets.length) :
    (buckets.modify i (· + 1)).sum = buckets.sum + 1 := by
  induction buckets generalizing i with
  | nil => cases hi
  | cons first rest ih =>
    cases i with
    | zero =>
      rw [List.modify_zero_cons, List.sum_cons, List.sum_cons]
      omega
    | succ i =>
      rw [List.modify_succ_cons, List.sum_cons, List.sum_cons, ih (Nat.lt_of_succ_lt_succ hi)]
      omega

theorem sound_empty : empty.Sound := by
  constructor <;> decide

variable {h : Histogram}

theorem Sound.observe (hs : h.Sound) (duration : Timespan) : (h.observe duration).Sound where
  size := (List.length_modify ..).trans hs.size
  total := by
    have hslot : slot (duration.wholeMillis % Word.limit 64) < h.buckets.length := by
      rw [hs.size]
      exact Nat.lt_succ_of_le (slot_le _)
    exact (sum_modify hslot).trans (congrArg (· + 1) hs.total)

theorem Sound.observeAll (hs : h.Sound) (durations : List Timespan) :
    (durations.foldl Histogram.observe h).Sound := by
  induction durations generalizing h with
  | nil => exact hs
  | cons duration rest ih => exact ih (hs.observe duration)

theorem count_observeAll (h : Histogram) (durations : List Timespan) :
    (durations.foldl observe h).count = h.count + durations.length := by
  induction durations generalizing h with
  | nil => rfl
  | cons duration rest ih =>
    have hcount : (h.observe duration).count = h.count + 1 := rfl
    rw [List.foldl_cons, ih, hcount, List.length_cons]
    omega

theorem getElem?_observeAll (h : Histogram) (durations : List Timespan) (i : Nat) :
    (durations.foldl observe h).buckets[i]? = h.buckets[i]?.map fun n =>
      n + durations.countP fun d => slot (d.wholeMillis % Word.limit 64) = i := by
  induction durations generalizing h with
  | nil => simp
  | cons duration rest ih =>
    have hbuckets : (h.observe duration).buckets =
        h.buckets.modify (slot (duration.wholeMillis % Word.limit 64)) (· + 1) := rfl
    rw [List.foldl_cons, ih, hbuckets, List.getElem?_modify]
    cases h.buckets[i]? with
    | none => rfl
    | some n =>
      by_cases hslot : slot (duration.wholeMillis % Word.limit 64) = i
      · simp [hslot]
        omega
      · simp [hslot]

/-- From no durations on, every bucket counts exactly those that it covers. -/
theorem getElem?_observeAll_empty {durations : List Timespan} {i : Nat} (hi : i ≤ bounds.length)
    (hsmall : ∀ d ∈ durations, d.wholeMillis < Word.limit 64) :
    (durations.foldl observe empty).buckets[i]? =
      some (durations.countP fun d => covers i d.wholeMillis) := by
  have hzero : empty.buckets[i]? = some 0 :=
    List.getElem?_replicate_of_lt (Nat.lt_succ_of_le hi)
  have hcovered : (durations.countP fun d => slot (d.wholeMillis % Word.limit 64) = i) =
      durations.countP fun d => covers i d.wholeMillis := by
    refine List.countP_congr fun d hd => ?_
    rw [Nat.mod_eq_of_lt (hsmall d hd), decide_eq_true_iff]
    exact slot_eq_iff hi
  rw [getElem?_observeAll, hzero, hcovered, Option.map_some, Nat.zero_add]

end SyncCascade.Histogram
