import SyncCascade.Proofs.Batch
import SyncCascade.Proofs.Cascade.Step

/-!
# What is pushed

The changesets that the pushes name, and the jobs they form. A job that is coalesced into another one
with its identifier loses nothing: where hashes do not collide, both name the same changesets.
-/

namespace SyncCascade

namespace Cascade

variable {queue : QueueConfig} {pushes more : List (List String)} {job job' : JobPayload}

def changesets (pushes : List (List String)) : List ChangesetId :=
  pushes.flatten.filterMap Identifier.parse?

/-- What is hashed for the batches of the pushes. -/
def hashed (queue : QueueConfig) (pushes : List (List String)) : List (List UInt8) :=
  ((formed queue pushes).filterMap JobPayload.batchIds).map Batch.encoding

theorem mem_changesets {c : ChangesetId} :
    c ∈ changesets pushes ↔ ∃ s ∈ pushes.flatten, Identifier.parse? s = some c :=
  List.mem_filterMap

theorem changesets_append : changesets (pushes ++ more) = changesets pushes ++ changesets more := by
  unfold changesets
  rw [List.flatten_append, List.filterMap_append]

theorem formed_append : formed queue (pushes ++ more) = formed queue pushes ++ formed queue more :=
  List.flatMap_append

theorem collisionFree_of_append (h : Sha256.CollisionFree (hashed queue (pushes ++ more))) :
    Sha256.CollisionFree (hashed queue pushes) := by
  unfold hashed at h
  rw [formed_append, List.filterMap_append, List.map_append] at h
  exact fun x hx y hy => h x (List.mem_append_left _ hx) y (List.mem_append_left _ hy)

theorem mem_flatten_of_mem_formed (h : job ∈ formed queue pushes) {s : String}
    (hs : s ∈ job.memberIds) : s ∈ pushes.flatten := by
  obtain ⟨ids, hids, hjob⟩ := List.mem_flatMap.1 h
  exact List.mem_flatten.2 ⟨ids, hids, Queue.mem_of_mem_formJobs hjob hs⟩

theorem exists_mem_formed (queue : QueueConfig) {c : ChangesetId} (h : c ∈ changesets pushes) :
    ∃ job ∈ formed queue pushes, ∃ s ∈ job.memberIds, Identifier.parse? s = some c := by
  obtain ⟨s, hs, hc⟩ := mem_changesets.1 h
  obtain ⟨ids, hids, hmem⟩ := List.mem_flatten.1 hs
  obtain ⟨job, hjob, hjobs⟩ :=
    Queue.exists_mem_formJobs (queue.lane .changesets) .changesetClosure hmem
  exact ⟨job, List.mem_flatMap.2 ⟨ids, hids, hjob⟩, s, hjobs, hc⟩

theorem of_mem_formed (h : job ∈ formed queue pushes) :
    (∃ s, job = .single .changesetClosure s) ∨
      ∃ m, job = .batch .changesetClosure m ∧ Batch.encoding m ∈ hashed queue pushes := by
  obtain ⟨ids, hids, hjob⟩ := List.mem_flatMap.1 h
  rcases Queue.of_mem_formJobs hjob with ⟨s, -, rfl⟩ | ⟨m, rfl, -⟩
  · exact .inl ⟨s, rfl⟩
  · exact .inr ⟨m, rfl, List.mem_map_of_mem (List.mem_filterMap.2 ⟨_, h, rfl⟩)⟩

/-- Jobs with one identifier name the same changesets, if those of one of them can be read. -/
theorem mem_memberIds_of_id_eq (hfree : Sha256.CollisionFree (hashed queue pushes))
    (hjob : job ∈ formed queue pushes) (hjob' : job' ∈ formed queue pushes) (hid : job.id = job'.id)
    (hread : ∀ s ∈ job.memberIds, ∃ c : ChangesetId, Identifier.parse? s = some c) {s : String}
    {c : ChangesetId} (hs : s ∈ job'.memberIds) (hc : Identifier.parse? s = some c) :
    s ∈ job.memberIds := by
  rcases of_mem_formed hjob with ⟨t, rfl⟩ | ⟨m, rfl, hm⟩ <;>
    rcases of_mem_formed hjob' with ⟨t', rfl⟩ | ⟨m', rfl, hm'⟩
  · have heq : t = t' := hid
    rw [heq]
    exact hs
  · obtain ⟨c', hc'⟩ := hread t (List.mem_singleton_self t)
    exact absurd hid (Identifier.ne_jobId_of_parse? hc' m')
  · have heq : s = Batch.jobId m := (List.mem_singleton.1 hs).trans hid.symm
    exact absurd heq (Identifier.ne_jobId_of_parse? hc m)
  · have heq := hfree _ hm _ hm' (Batch.digest_eq_of_jobId_eq hid)
    have hmem : s.toUTF8.toList ∈ (Batch.encoding m').splitOn 0 :=
      Batch.mem_splitOn_encoding hs (Identifier.zero_notMem_of_parse? hc)
    rw [← heq] at hmem
    refine Batch.of_mem_splitOn_encoding (fun t ht => ?_) hmem (Identifier.ne_empty_of_parse? hc)
    obtain ⟨c', hc'⟩ := hread t ht
    exact Identifier.zero_notMem_of_parse? hc'

theorem parse?_of_parse {α : Type} [Identifier α] {s : String} {a : α}
    (h : Identifier.parse s = .ok a) : Identifier.parse? s = some a := by
  unfold Identifier.parse at h
  cases hs : (Identifier.parse? s : Option α) with
  | none => simp [hs] at h
  | some a' =>
    rw [hs] at h
    exact congrArg some (Except.ok.inj h)

theorem changesets_texts (ids : List ChangesetId) : changesets [ids.map Identifier.text] = ids := by
  have hparse : ∀ c : ChangesetId, Identifier.parse? (Identifier.text c) = some c := by
    intro c
    exact parse?_of_parse (Identifier.parse_text rfl)
  have hcomp : (Identifier.parse? ∘ Identifier.text : ChangesetId → Option ChangesetId) = some := by
    funext c
    rw [Function.comp_apply, hparse]
  unfold changesets
  rw [List.flatten_singleton, List.filterMap_map, hcomp, List.filterMap_some]

theorem map_parse?_of_parseMembers {α : Type} [Identifier α] {ids : List String} {as : List α}
    (h : Engine.parseMembers ids = .ok as) : ids.map Identifier.parse? = as.map some := by
  induction ids generalizing as with
  | nil =>
    cases h
    rfl
  | cons s rest ih =>
    unfold Engine.parseMembers at h
    cases hs : (Identifier.parse s : Except Failure α) with
    | error e =>
      rw [hs] at h
      cases h
    | ok a =>
      cases hrest : (Engine.parseMembers rest : Except Failure (List α)) with
      | error e =>
        rw [hs, hrest] at h
        cases h
      | ok as' =>
        rw [hs, hrest] at h
        cases h
        rw [List.map_cons, List.map_cons, parse?_of_parse hs, ih hrest]

theorem parse?_of_mem_members {α : Type} [Identifier α] {ids : List String} {as : List α}
    (h : Engine.parseMembers ids = .ok as) {s : String} (hs : s ∈ ids) :
    ∃ a ∈ as, Identifier.parse? s = some a := by
  have hmem : (Identifier.parse? s : Option α) ∈ ids.map Identifier.parse? :=
    List.mem_map_of_mem hs
  rw [map_parse?_of_parseMembers h] at hmem
  obtain ⟨a, ha, heq⟩ := List.mem_map.1 hmem
  exact ⟨a, ha, heq.symm⟩

theorem exists_member_of_mem {α : Type} [Identifier α] {ids : List String} {as : List α}
    (h : Engine.parseMembers ids = .ok as) {a : α} (ha : a ∈ as) :
    ∃ s ∈ ids, Identifier.parse? s = some a := by
  have hmem : some a ∈ as.map some := List.mem_map_of_mem ha
  rw [← map_parse?_of_parseMembers h] at hmem
  exact List.mem_map.1 hmem

theorem mem_changesets_of_parseMembers (hjob : job ∈ formed queue pushes) {p : JobPayload}
    (hwork : job.SameWork p) {ids : List ChangesetId}
    (hids : Engine.parseMembers p.memberIds = .ok ids) {c : ChangesetId} (hc : c ∈ ids) :
    c ∈ changesets pushes := by
  obtain ⟨s, hs, hparse⟩ := exists_member_of_mem hids hc
  rw [← hwork.memberIds_eq] at hs
  exact mem_changesets.2 ⟨s, mem_flatten_of_mem_formed hjob hs, hparse⟩

theorem mem_of_id_eq (hfree : Sha256.CollisionFree (hashed queue pushes))
    (hjob : job ∈ formed queue pushes) {p : JobPayload} (hwork : job.SameWork p)
    {ids : List ChangesetId} (hids : Engine.parseMembers p.memberIds = .ok ids)
    (hjob' : job' ∈ formed queue pushes) (hid : p.id = job'.id) {s : String}
    (hs : s ∈ job'.memberIds) {c : ChangesetId} (hc : Identifier.parse? s = some c) : c ∈ ids := by
  have hread : ∀ t ∈ job.memberIds, ∃ c : ChangesetId, Identifier.parse? t = some c := by
    intro t ht
    rw [hwork.memberIds_eq] at ht
    obtain ⟨c', -, hc'⟩ := parse?_of_mem_members hids ht
    exact ⟨c', hc'⟩
  have hmem : s ∈ p.memberIds := hwork.memberIds_eq ▸
    mem_memberIds_of_id_eq hfree hjob hjob' (hwork.1.trans hid) hread hs hc
  obtain ⟨c', hc', hparse⟩ := parse?_of_mem_members hids hmem
  rw [hc] at hparse
  cases hparse
  exact hc'

end Cascade

end SyncCascade
