import SyncCascade.Proofs.Identifier
import SyncCascade.Proofs.Neighbours
import SyncCascade.Queue

/-!
# Batches

A push leaves no identifier out and brings in no other. The identifier of a batch is a hash, which no
universally unique identifier can be mistaken for. As no byte of an identifier is zero, the members can
be told from what is hashed, so batches share an identifier only where their hashes collide.
-/

namespace SyncCascade

namespace Chunk

variable {α : Type}

theorem flatten_upTo {size fuel : Nat} {xs : List α} (hsize : 0 < size) (hfuel : xs.length ≤ fuel) :
    (upTo size fuel xs).flatten = xs := by
  induction fuel generalizing xs with
  | zero => rw [List.eq_nil_of_length_eq_zero (Nat.le_zero.1 hfuel), upTo, List.flatten_nil]
  | succ fuel ih =>
    cases xs with
    | nil => rfl
    | cons x rest =>
      have hdrop : ((x :: rest).drop size).length ≤ fuel := by
        rw [List.length_drop]
        omega
      rw [upTo, List.flatten_cons, ih hdrop, List.take_append_drop]

theorem flatten_pieces (size : Nat) (xs : List α) : (pieces size xs).flatten = xs :=
  flatten_upTo (by omega) (Nat.le_refl _)

theorem upTo_nil (size fuel : Nat) : upTo size fuel ([] : List α) = [] := by
  cases fuel <;> rfl

theorem length_of_mem_upTo {size fuel : Nat} {xs piece : List α} (hsize : 0 < size)
    (h : piece ∈ upTo size fuel xs) : 1 ≤ piece.length ∧ piece.length ≤ size := by
  induction fuel generalizing xs with
  | zero => cases h
  | succ fuel ih =>
    cases xs with
    | nil => cases h
    | cons x rest =>
      rcases List.mem_cons.1 h with rfl | h
      · rw [List.length_take, List.length_cons]
        omega
      · exact ih h

theorem length_of_mem_dropLast_upTo {size fuel : Nat} {xs piece : List α}
    (h : piece ∈ (upTo size fuel xs).dropLast) : piece.length = size := by
  induction fuel generalizing xs with
  | zero => cases h
  | succ fuel ih =>
    cases xs with
    | nil => cases h
    | cons x rest =>
      rw [upTo] at h
      cases hmore : upTo size fuel ((x :: rest).drop size) with
      | nil =>
        rw [hmore] at h
        cases h
      | cons p pieces =>
        have hlt : size < (x :: rest).length := by
          refine Nat.lt_of_not_le fun hle => ?_
          rw [List.drop_eq_nil_of_le hle, upTo_nil] at hmore
          cases hmore
        rw [hmore, List.dropLast_cons_of_ne_nil (List.cons_ne_nil _ _), ← hmore] at h
        rcases List.mem_cons.1 h with rfl | h
        · exact List.length_take_of_le (Nat.le_of_lt hlt)
        · exact ih h

theorem length_of_mem_pieces {size : Nat} {xs piece : List α} (h : piece ∈ pieces size xs) :
    1 ≤ piece.length ∧ piece.length ≤ max size 1 :=
  length_of_mem_upTo (by omega) h

theorem length_of_mem_dropLast_pieces {size : Nat} {xs piece : List α}
    (h : piece ∈ (pieces size xs).dropLast) : piece.length = max size 1 :=
  length_of_mem_dropLast_upTo h

end Chunk

namespace Batch

theorem mem_normalize {ids : List String} {s : String} : s ∈ normalize ids ↔ s ∈ ids := by
  unfold normalize
  rw [mem_dropRepeats, List.mem_mergeSort]

end Batch

namespace Queue

variable {options : LaneOptions} {kind : JobKind} {ids : List String} {job : JobPayload}

theorem of_mem_formJobs (h : job ∈ formJobs options kind ids) :
    (∃ s ∈ ids, job = .single kind s) ∨ ∃ m, job = .batch kind m ∧ ∀ s ∈ m, s ∈ ids := by
  unfold formJobs at h
  split at h
  · cases h
  · exact .inl ⟨_, List.mem_singleton_self _, List.mem_singleton.1 h⟩
  · obtain ⟨s, hs, rfl⟩ := List.mem_map.1 h
    exact .inl ⟨s, hs, rfl⟩
  · obtain ⟨m, hm, rfl⟩ := List.mem_map.1 h
    refine .inr ⟨m, rfl, fun s hs => Batch.mem_normalize.1 ?_⟩
    have hmem := List.mem_flatten.2 ⟨m, hm, hs⟩
    rwa [Chunk.flatten_pieces] at hmem

theorem mem_of_mem_formJobs (h : job ∈ formJobs options kind ids) {s : String}
    (hs : s ∈ job.memberIds) : s ∈ ids := by
  rcases of_mem_formJobs h with ⟨s', hs', rfl⟩ | ⟨m, rfl, hm⟩
  · rw [List.mem_singleton.1 hs]
    exact hs'
  · exact hm s hs

theorem exists_mem_formJobs (options : LaneOptions) (kind : JobKind) {s : String} (h : s ∈ ids) :
    ∃ job ∈ formJobs options kind ids, s ∈ job.memberIds := by
  unfold formJobs
  split
  · cases h
  · exact ⟨_, List.mem_singleton_self _, h⟩
  · exact ⟨.single kind s, List.mem_map_of_mem h, List.mem_singleton_self s⟩
  · rename_i ids _ _ size _ _ _
    have hmem := Batch.mem_normalize.2 h
    rw [← Chunk.flatten_pieces size (Batch.normalize ids)] at hmem
    obtain ⟨m, hm, hs⟩ := List.mem_flatten.1 hmem
    exact ⟨.batch kind m, List.mem_map_of_mem hm, hs⟩

end Queue

namespace Sha256

/-- Different messages among these have different digests. -/
def CollisionFree (messages : List (List UInt8)) : Prop :=
  ∀ x ∈ messages, ∀ y ∈ messages, digest x = digest y → x = y

@[simp] theorem length_bigEndian (width n : Nat) : (bigEndian width n).length = width := by
  induction width generalizing n with
  | zero => rfl
  | succ width ih => simp [bigEndian, ih]

theorem length_digest (message : List UInt8) : (digest message).length = 32 := by
  unfold digest
  simp [State.words]

end Sha256

namespace Batch

theorem toList_jobId (m : List String) :
    (jobId m).toList = (Sha256.digest (encoding m)).flatMap fun b => Hex.digits 2 b.toNat := by
  unfold jobId
  rw [String.toList_ofList]

theorem length_jobId (m : List String) : (jobId m).toList.length = 64 := by
  rw [toList_jobId, List.length_flatMap]
  simp only [Hex.length_digits, List.map_const', List.sum_replicate_nat, Sha256.length_digest]

theorem eq_of_digits_eq {b b' : UInt8} (h : Hex.digits 2 b.toNat = Hex.digits 2 b'.toNat) :
    b = b' := by
  have hvalue := congrArg (Hex.valueFrom? 0) h
  rw [Hex.valueFrom?_digits b.toNat_lt, Hex.valueFrom?_digits b'.toNat_lt] at hvalue
  exact UInt8.toNat_inj.1 (Option.some.inj hvalue)

theorem eq_of_flatMap_digits_eq {bs bs' : List UInt8}
    (h : (bs.flatMap fun b => Hex.digits 2 b.toNat) = bs'.flatMap fun b => Hex.digits 2 b.toNat) :
    bs = bs' := by
  induction bs generalizing bs' with
  | nil =>
    cases bs' with
    | nil => rfl
    | cons b' rest' => cases congrArg List.length h
  | cons b rest ih =>
    cases bs' with
    | nil => cases congrArg List.length h
    | cons b' rest' =>
      rw [List.flatMap_cons, List.flatMap_cons] at h
      obtain ⟨hhead, htail⟩ := List.append_inj h (by rw [Hex.length_digits, Hex.length_digits])
      rw [eq_of_digits_eq hhead, ih htail]

theorem digest_eq_of_jobId_eq {m m' : List String} (h : jobId m = jobId m') :
    Sha256.digest (encoding m) = Sha256.digest (encoding m') := by
  have hdigits := congrArg String.toList h
  rw [toList_jobId, toList_jobId] at hdigits
  exact eq_of_flatMap_digits_eq hdigits

theorem toList_loop (bs : ByteArray) (i : Nat) (r : List UInt8) :
    ByteArray.toList.loop bs i r = r.reverse ++ bs.data.toList.drop i := by
  fun_induction ByteArray.toList.loop bs i r with
  | case1 i r hi ih =>
    have hlt : i < bs.data.toList.length := hi
    have hget : bs.get! i = bs.data.toList[i] := by
      obtain ⟨data⟩ := bs
      exact getElem!_pos data i hi
    rw [ih, List.drop_eq_getElem_cons hlt, ← hget, List.reverse_cons, List.append_assoc,
      List.singleton_append]
  | case2 i r hi =>
    have hle : bs.data.toList.length ≤ i := Nat.le_of_not_lt hi
    rw [List.drop_eq_nil_of_le hle, List.append_nil]

theorem toList_eq_data (bs : ByteArray) : bs.toList = bs.data.toList := by
  rw [ByteArray.toList, toList_loop, List.drop_zero, List.reverse_nil, List.nil_append]

theorem toList_toUTF8 (s : String) : s.toUTF8.toList = s.toList.flatMap String.utf8EncodeChar := by
  rw [toList_eq_data, String.toUTF8_eq_toByteArray, ← String.utf8Encode_toList, List.utf8Encode,
    List.toList_data_toByteArray]

theorem eq_of_toList_toUTF8_eq {s t : String} (h : s.toUTF8.toList = t.toUTF8.toList) : s = t := by
  rw [toList_eq_data, toList_eq_data] at h
  exact String.toByteArray_inj.1 (ByteArray.ext (Array.toList_inj.1 h))

theorem zero_notMem_utf8EncodeChar {c : Char} (h : '\x00' ≠ c) : 0 ∉ String.utf8EncodeChar c := by
  have hne : c.val.toNat ≠ 0 := by
    intro h0
    exact h (Char.ext (UInt32.toNat_inj.1 h0.symm))
  have hbyte : ∀ n, n % 256 ≠ 0 → (0 : UInt8) ≠ UInt8.ofNat n := by
    intro n hn heq
    have htoNat := congrArg UInt8.toNat heq
    rw [UInt8.toNat_ofNat'] at htoNat
    exact hn htoNat.symm
  unfold String.utf8EncodeChar
  dsimp only
  generalize c.val.toNat = v at hne
  split
  · simp only [List.mem_cons, List.not_mem_nil, or_false]
    exact hbyte v (by omega)
  split
  · simp only [List.mem_cons, List.not_mem_nil, or_false, not_or]
    exact ⟨hbyte _ (by omega), hbyte _ (by omega)⟩
  split
  · simp only [List.mem_cons, List.not_mem_nil, or_false, not_or]
    exact ⟨hbyte _ (by omega), hbyte _ (by omega), hbyte _ (by omega)⟩
  · simp only [List.mem_cons, List.not_mem_nil, or_false, not_or]
    exact ⟨hbyte _ (by omega), hbyte _ (by omega), hbyte _ (by omega), hbyte _ (by omega)⟩

theorem zero_notMem_toUTF8 {s : String} (h : '\x00' ∉ s.toList) : 0 ∉ s.toUTF8.toList := by
  rw [toList_toUTF8, List.mem_flatMap]
  rintro ⟨c, hc, hmem⟩
  refine zero_notMem_utf8EncodeChar ?_ hmem
  rintro rfl
  exact h hc

theorem splitOn_encoding (m : List String) :
    (encoding m).splitOn 0 = (m.flatMap fun s => s.toUTF8.toList.splitOn 0) ++ [[]] := by
  induction m with
  | nil => rfl
  | cons s rest ih =>
    have hcons : encoding (s :: rest) = s.toUTF8.toList ++ 0 :: encoding rest := by
      unfold encoding
      rw [List.flatMap_cons, List.append_assoc, List.singleton_append]
    rw [hcons, List.splitOn_append_cons_of_beq _ _ (beq_self_eq_true 0), ih, List.flatMap_cons,
      List.append_assoc]

theorem mem_splitOn_encoding {m : List String} {s : String} (hs : s ∈ m)
    (hzero : '\x00' ∉ s.toList) : s.toUTF8.toList ∈ (encoding m).splitOn 0 := by
  rw [splitOn_encoding]
  refine List.mem_append_left _ (List.mem_flatMap.2 ⟨s, hs, ?_⟩)
  rw [List.splitOn_eq_singleton (zero_notMem_toUTF8 hzero)]
  exact List.mem_singleton_self _

theorem of_mem_splitOn_encoding {m : List String} (hzero : ∀ s ∈ m, '\x00' ∉ s.toList)
    {s : String} (hs : s.toUTF8.toList ∈ (encoding m).splitOn 0) (hne : s ≠ "") : s ∈ m := by
  rw [splitOn_encoding, List.mem_append] at hs
  rcases hs with hs | hs
  · obtain ⟨t, ht, hmem⟩ := List.mem_flatMap.1 hs
    rw [List.splitOn_eq_singleton (zero_notMem_toUTF8 (hzero t ht))] at hmem
    rw [eq_of_toList_toUTF8_eq (List.mem_singleton.1 hmem)]
    exact ht
  · have hempty : "".toUTF8.toList = [] := toList_toUTF8 ""
    rw [List.mem_singleton, ← hempty] at hs
    exact absurd (eq_of_toList_toUTF8_eq hs) hne

end Batch

namespace Identifier

variable {α : Type} [Identifier α] {s : String}

theorem ofChars?_of_parse? {a : α} (h : parse? s = some a) :
    ∃ u, Uuid.ofChars? s.toList = some u := by
  obtain ⟨u, hu, -⟩ := Option.map_eq_some_iff.1 h
  exact ⟨u, hu⟩

theorem zero_notMem_of_parse? {a : α} (h : parse? s = some a) : '\x00' ∉ s.toList := by
  obtain ⟨u, hu⟩ := ofChars?_of_parse? h
  exact Uuid.zero_notMem_of_ofChars? hu

theorem ne_jobId_of_parse? {a : α} (h : parse? s = some a) (m : List String) :
    s ≠ Batch.jobId m := by
  rintro rfl
  obtain ⟨u, hu⟩ := ofChars?_of_parse? h
  have hlength := Uuid.length_of_ofChars? hu
  rw [Batch.length_jobId] at hlength
  omega

theorem ne_empty_of_parse? {a : α} (h : parse? s = some a) : s ≠ "" := by
  rintro rfl
  obtain ⟨u, hu⟩ := ofChars?_of_parse? h
  cases hu

end Identifier

end SyncCascade
