import SyncCascade.Proofs.Partition

/-!
# What the identifier of a batch is hashed from

Each member is followed by a zero byte. Where no member has the character zero, none of its bytes is
zero, so what is hashed can be cut into the members again, and different lists of members are hashed
from different bytes. Sorted lists without repetitions are the same if they have the same elements, so
the identifiers of two batches agree exactly if their members do, unless their hashes collide.
-/

namespace SyncCascade.Batch

def ZeroFree (ids : List String) : Prop := ∀ s ∈ ids, '\x00' ∉ s.toList

instance (ids : List String) : Decidable (ZeroFree ids) :=
  inferInstanceAs (Decidable (∀ s ∈ ids, '\x00' ∉ s.toList))

variable {ids ids' : List String}

theorem ZeroFree.normalize (h : ZeroFree ids) : ZeroFree (normalize ids) :=
  fun s hs => h s (mem_normalize.1 hs)

theorem ZeroFree.splitOn_encoding (h : ZeroFree ids) :
    (encoding ids).splitOn 0 = ids.map (fun s => s.toUTF8.toList) ++ [[]] := by
  rw [Batch.splitOn_encoding]
  congr 1
  induction ids with
  | nil => rfl
  | cons s rest ih =>
    obtain ⟨hs, hrest⟩ := List.forall_mem_cons.1 h
    rw [List.flatMap_cons, List.map_cons, List.splitOn_eq_singleton (zero_notMem_toUTF8 hs), ih hrest,
      List.singleton_append]

theorem ZeroFree.encoding_inj (h : ZeroFree ids) (h' : ZeroFree ids') :
    encoding ids = encoding ids' ↔ ids = ids' := by
  refine ⟨fun heq => ?_, congrArg encoding⟩
  have hcut := congrArg (List.splitOn 0) heq
  rw [h.splitOn_encoding, h'.splitOn_encoding] at hcut
  have hbytes := List.append_cancel_right hcut
  exact (List.map_inj_right fun _ _ => eq_of_toList_toUTF8_eq).1 hbytes

theorem normalize_eq_iff : normalize ids = normalize ids' ↔ ∀ s, s ∈ ids ↔ s ∈ ids' := by
  refine ⟨fun heq s => ?_, normalize_congr⟩
  rw [← mem_normalize, heq, mem_normalize]

/-- Lists of texts without the character zero are hashed from the same bytes only if they are the same
list. So as long as the hashes of the two batches do not collide, the batches have one identifier
exactly if the texts they are made from are the same, whatever their order and repetitions. -/
theorem hashed_apart :
    (∀ ids ids' : List String, ZeroFree ids → ZeroFree ids' →
      (encoding ids = encoding ids' ↔ ids = ids')) ∧
    ∀ ids ids' : List String, ZeroFree ids → ZeroFree ids' →
      Sha256.CollisionFree [encoding (normalize ids), encoding (normalize ids')] →
      (jobId (normalize ids) = jobId (normalize ids') ↔ ∀ s, s ∈ ids ↔ s ∈ ids') := by
  refine ⟨fun _ _ h h' => h.encoding_inj h', fun ids ids' h h' hfree => ?_⟩
  constructor
  · intro hid
    have hencoding : encoding (normalize ids) = encoding (normalize ids') :=
      hfree _ (by simp) _ (by simp) (digest_eq_of_jobId_eq hid)
    exact normalize_eq_iff.1 ((h.normalize.encoding_inj h'.normalize).1 hencoding)
  · intro hsame
    rw [normalize_congr hsame]

/-- Lists whose members run together to the same text, one of them with a repetition. -/
theorem hashed_apart_concatenation :
    let ids := ["c", "ab", "c"]
    let ids' := ["bc", "a"]
    ZeroFree ids ∧ ZeroFree ids' ∧
      Sha256.CollisionFree [encoding (normalize ids), encoding (normalize ids')] ∧
      encoding ids ≠ encoding ids' ∧ jobId (normalize ids) ≠ jobId (normalize ids') := by
  intro ids ids'
  have hzero : ZeroFree ids := by decide
  have hzero' : ZeroFree ids' := by decide
  have hnormal : normalize ids = ["ab", "c"] :=
    normalize_eq_of_ascending (by decide) (by grind)
  have hnormal' : normalize ids' = ["a", "bc"] :=
    normalize_eq_of_ascending (by decide) (by grind)
  have hfree : Sha256.CollisionFree [encoding (normalize ids), encoding (normalize ids')] := by
    rw [hnormal, hnormal']
    unfold Sha256.CollisionFree
    decide +kernel
  refine ⟨hzero, hzero', hfree, ?_, ?_⟩
  · rw [Ne, hashed_apart.1 ids ids' hzero hzero']
    decide
  · rw [Ne, hashed_apart.2 ids ids' hzero hzero' hfree]
    exact fun hsame => absurd ((hsame "ab").1 (by decide)) (by decide)

/-- A zero in a member is not told from the end of one. -/
example : encoding ["a\x00b"] = encoding ["a", "b"] := by
  decide +kernel

end SyncCascade.Batch
