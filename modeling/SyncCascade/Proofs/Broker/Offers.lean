import SyncCascade.Proofs.Broker.Conservation
import SyncCascade.Proofs.Broker.Reports

/-!
# Jobs offered to a lane

A lane takes an offered job, unless one with its identifier is pending: that one is moved back then,
and the offer is reported as a repetition. So among the offers of one identifier only the first can be
new, and it is new exactly if nothing was pending under it before.
-/

namespace SyncCascade

/-- A job of a push, with what decides when it is ready. -/
structure Offer where
  /-- The time of the push. -/
  now : Nat
  options : LaneOptions
  job : JobPayload

namespace Offer

/-- When the dedup delay after the push has passed. -/
def due (o : Offer) : Nat := o.now + o.options.dedupDelay.nanos

def ids (os : List Offer) : List String := os.map fun o => o.job.id

theorem ids_cons (o : Offer) (os : List Offer) : ids (o :: os) = o.job.id :: ids os := rfl

end Offer

namespace LaneState

/-- The lane after one job of a push. -/
def offer (now : Nat) (options : LaneOptions) (s : LaneState) (job : JobPayload) : LaneState :=
  if s.pending.contains job.id then (s.defer now job.id options.dedupDelay).2
  else (s.add now job options .zero).2

variable {now : Nat} {options : LaneOptions} {s : LaneState} {job : JobPayload}

theorem offer_keeps {id : String} (h : s.Holds id) : (s.offer now options job).Holds id := by
  unfold offer
  split
  · exact defer_keeps _ _ _ _ h
  · exact add_keeps _ _ _ _ _ h

theorem offer_failed : (s.offer now options job).failed = s.failed := by
  unfold offer
  split
  · exact defer_failed ..
  · exact add_failed ..

theorem offer_active : (s.offer now options job).active = s.active := by
  unfold offer
  split
  · unfold defer
    split <;> rfl
  · unfold add
    split <;> rfl

theorem offer_holds : (s.offer now options job).Holds job.id := by
  unfold offer
  by_cases h : s.pending.contains job.id = true
  · rw [if_pos h]
    exact defer_keeps _ _ _ _ (.inl h)
  · rw [if_neg h]
    unfold add
    rw [if_neg h]
    exact .inl (by simp)

theorem offer_carries {P : JobPayload → Prop} (hP : AboutWork P) (hs : s.Carries P) (hj : P job) :
    (s.offer now options job).Carries P := by
  unfold offer
  split
  · exact defer_carries hP hs ..
  · exact add_carries hs hj ..

theorem contains_offer {id : String} (job : JobPayload) :
    (s.offer now options job).pending.contains id = true ↔
      s.pending.contains id = true ∨ id = job.id := by
  unfold offer
  by_cases hpending : s.pending.contains job.id = true
  · have hdefer : (s.defer now job.id options.dedupDelay).2.pending.contains id =
        s.pending.contains id := by
      unfold defer
      cases hj : s.pending.find? job.id with
      | none => rfl
      | some j => exact Table.contains_modify ..
    rw [if_pos hpending, hdefer]
    exact ⟨.inl, fun h => h.elim (fun h => h) fun heq => heq ▸ hpending⟩
  · rw [if_neg hpending]
    unfold add
    rw [if_neg hpending]
    simp only [Table.contains_insert, Bool.or_eq_true, decide_eq_true_eq]
    exact Or.comm

def accept (s : LaneState) (o : Offer) : LaneState := s.offer o.now o.options o.job

def acceptAll (s : LaneState) (os : List Offer) : LaneState := os.foldl accept s

variable {os more : List Offer}

theorem acceptAll_append (s : LaneState) (os more : List Offer) :
    s.acceptAll (os ++ more) = (s.acceptAll os).acceptAll more := List.foldl_append

theorem acceptAll_preserves {I : LaneState → Prop} (hstep : ∀ s, ∀ o ∈ os, I s → I (s.accept o))
    (h : I s) : I (s.acceptAll os) := by
  induction os generalizing s with
  | nil => exact h
  | cons o rest ih =>
    exact ih (fun s o' ho' => hstep s o' (List.mem_cons_of_mem _ ho'))
      (hstep s o List.mem_cons_self h)

theorem acceptAll_carries {P : JobPayload → Prop} (hP : AboutWork P) (hs : s.Carries P)
    (hos : ∀ o ∈ os, P o.job) : (s.acceptAll os).Carries P :=
  acceptAll_preserves (I := fun s => s.Carries P)
    (fun _ o ho h => offer_carries hP h (hos o ho)) hs

theorem contains_acceptAll {id : String} :
    (s.acceptAll os).pending.contains id = true ↔
      s.pending.contains id = true ∨ id ∈ Offer.ids os := by
  induction os generalizing s with
  | nil => simp [acceptAll, Offer.ids]
  | cons o rest ih =>
    have hrest : (s.acceptAll (o :: rest)).pending.contains id = true ↔
        (s.accept o).pending.contains id = true ∨ id ∈ Offer.ids rest := ih
    rw [hrest, accept, contains_offer, or_assoc, Offer.ids_cons, List.mem_cons]

theorem find?_accept_of_ne {o : Offer} {id : String} (h : id ≠ o.job.id) :
    (s.accept o).pending.find? id = s.pending.find? id := by
  unfold accept offer
  split
  · unfold defer
    split
    · exact (Table.find?_modify ..).trans (if_neg h)
    · rfl
  · unfold add
    split
    · rfl
    · exact (Table.find?_insert ..).trans (if_neg h)

theorem find?_accept_of_new {o : Offer} (h : s.pending.find? o.job.id = none) :
    ∃ q, (s.accept o).pending.find? o.job.id = some q ∧ q.payload = o.job := by
  have hfree := Table.contains_eq_false.2 h
  unfold accept offer add
  rw [hfree]
  exact ⟨_, (Table.find?_insert ..).trans (if_pos rfl), rfl⟩

theorem find?_accept_of_pending {o : Offer} {q : QueuedJob} (h : s.pending.find? o.job.id = some q) :
    (s.accept o).pending.find? o.job.id = some (deferJob o.now o.options.dedupDelay q) := by
  have hpending := Table.contains_eq_true.2 ⟨q, h⟩
  unfold accept offer defer
  rw [if_pos hpending, h]
  refine (Table.find?_modify ..).trans ?_
  rw [if_pos rfl, h]
  rfl

/-- What is reported of an offer: it is new, unless a pending job has its identifier. -/
def reply (s : LaneState) (o : Offer) : PushReport :=
  .single (!s.pending.contains o.job.id) o.job.id

def replies (s : LaneState) : List Offer → PushReport
  | [] => .empty
  | o :: rest => s.reply o ++ (s.accept o).replies rest

theorem replies_cons (s : LaneState) (o : Offer) (os : List Offer) :
    s.replies (o :: os) = s.reply o ++ (s.accept o).replies os := rfl

theorem reply_of_pending {o : Offer} (h : s.pending.contains o.job.id = true) :
    s.reply o = ⟨[], [o.job.id]⟩ := by
  rw [reply, h]
  rfl

theorem reply_of_new {o : Offer} (h : s.pending.contains o.job.id = false) :
    s.reply o = ⟨[o.job.id], []⟩ := by
  rw [reply, h]
  rfl

theorem replies_singleton (s : LaneState) (o : Offer) : s.replies [o] = s.reply o :=
  PushReport.append_empty _

theorem replies_append (s : LaneState) (os more : List Offer) :
    s.replies (os ++ more) = s.replies os ++ (s.acceptAll os).replies more := by
  induction os generalizing s with
  | nil => rfl
  | cons o rest ih =>
    rw [List.cons_append, replies_cons, replies_cons, ih, PushReport.append_assoc]
    rfl

theorem replies_of_pending (h : ∀ id ∈ Offer.ids os, s.pending.contains id = true) :
    s.replies os = ⟨[], Offer.ids os⟩ := by
  induction os generalizing s with
  | nil => rfl
  | cons o rest ih =>
    have hrest := ih (s := s.accept o) fun id hid =>
      (contains_offer o.job).2 (.inl (h id (List.mem_cons_of_mem _ hid)))
    rw [replies_cons, reply_of_pending (h _ List.mem_cons_self), hrest]
    rfl

theorem jobIds_replies_perm (s : LaneState) (os : List Offer) :
    (s.replies os).jobIds.Perm (Offer.ids os) := by
  induction os generalizing s with
  | nil => exact .refl _
  | cons o rest ih =>
    rw [replies_cons, Offer.ids_cons]
    cases h : s.pending.contains o.job.id with
    | true =>
      rw [reply_of_pending h]
      exact List.perm_middle.trans ((ih _).cons _)
    | false =>
      rw [reply_of_new h]
      exact (ih _).cons _

theorem mem_enqueued_reply {o : Offer} {id : String} :
    id ∈ (s.reply o).enqueued ↔ s.pending.contains id = false ∧ id = o.job.id := by
  cases h : s.pending.contains o.job.id with
  | true =>
    rw [reply_of_pending h]
    refine ⟨fun hid => (List.not_mem_nil hid).elim, fun ⟨hfree, hid⟩ => ?_⟩
    rw [hid, h] at hfree
    cases hfree
  | false =>
    rw [reply_of_new h]
    refine ⟨fun hid => ?_, fun ⟨_, hid⟩ => List.mem_singleton.2 hid⟩
    obtain rfl := List.mem_singleton.1 hid
    exact ⟨h, rfl⟩

theorem mem_enqueued_replies {id : String} :
    id ∈ (s.replies os).enqueued ↔ s.pending.contains id = false ∧ id ∈ Offer.ids os := by
  induction os generalizing s with
  | nil => simp [replies, Offer.ids, PushReport.empty]
  | cons o rest ih =>
    have haccept : (s.accept o).pending.contains id = false ↔
        s.pending.contains id = false ∧ id ≠ o.job.id := by
      rw [← Bool.not_eq_true, accept, contains_offer, not_or, Bool.not_eq_true]
    rw [replies_cons, PushReport.enqueued_append, List.mem_append, mem_enqueued_reply, ih, haccept,
      Offer.ids_cons, List.mem_cons]
    by_cases hid : id = o.job.id <;> simp [hid]

theorem nodup_enqueued_replies (s : LaneState) (os : List Offer) :
    (s.replies os).enqueued.Nodup := by
  induction os generalizing s with
  | nil => exact List.nodup_nil
  | cons o rest ih =>
    rw [replies_cons, PushReport.enqueued_append]
    refine List.nodup_append.2 ⟨?_, ih _, fun id hid id' hid' heq => ?_⟩
    · cases h : s.pending.contains o.job.id with
      | true => exact reply_of_pending h ▸ List.nodup_nil
      | false => exact reply_of_new h ▸ List.pairwise_singleton ..
    · have hfree := (mem_enqueued_replies.1 hid').1
      rw [← heq, (mem_enqueued_reply.1 hid).2] at hfree
      exact Bool.false_ne_true (hfree.symm.trans ((contains_offer o.job).2 (.inr rfl)))

def offerAll (now : Nat) (options : LaneOptions) (s : LaneState) (jobs : List JobPayload) :
    LaneState :=
  jobs.foldl (offer now options) s

variable {jobs : List JobPayload}

theorem acceptAll_map (s : LaneState) (now : Nat) (options : LaneOptions) (jobs : List JobPayload) :
    s.acceptAll (jobs.map (Offer.mk now options)) = s.offerAll now options jobs := List.foldl_map

theorem offerAll_preserves {I : LaneState → Prop}
    (hstep : ∀ s, ∀ job ∈ jobs, I s → I (s.offer now options job)) (h : I s) :
    I (s.offerAll now options jobs) := by
  rw [← acceptAll_map]
  exact acceptAll_preserves (fun s => List.forall_mem_map.2 (hstep s)) h

theorem offerAll_keeps {id : String} (h : s.Holds id) : (s.offerAll now options jobs).Holds id :=
  offerAll_preserves (I := fun s => s.Holds id) (fun _ _ _ h => offer_keeps h) h

theorem offerAll_failed : (s.offerAll now options jobs).failed = s.failed :=
  offerAll_preserves (I := fun s' => s'.failed = s.failed) (fun _ _ _ h => offer_failed.trans h) rfl

theorem offerAll_active : (s.offerAll now options jobs).active = s.active :=
  offerAll_preserves (I := fun s' => s'.active = s.active) (fun _ _ _ h => offer_active.trans h) rfl

theorem offerAll_carries {P : JobPayload → Prop} (hP : AboutWork P) (hs : s.Carries P)
    (hjobs : ∀ job ∈ jobs, P job) : (s.offerAll now options jobs).Carries P :=
  offerAll_preserves (I := fun s => s.Carries P)
    (fun _ job hjob h => offer_carries hP h (hjobs job hjob)) hs

theorem offerAll_holds (hjob : job ∈ jobs) : (s.offerAll now options jobs).Holds job.id := by
  induction jobs generalizing s with
  | nil => cases hjob
  | cons first rest ih =>
    rcases List.mem_cons.1 hjob with rfl | hrest
    · exact offerAll_keeps (s := s.offer now options job) offer_holds
    · exact ih hrest

theorem contains_offerAll {id : String} :
    (s.offerAll now options jobs).pending.contains id = true ↔
      s.pending.contains id = true ∨ ∃ job ∈ jobs, id = job.id := by
  rw [← acceptAll_map, contains_acceptAll, Offer.ids, List.map_map]
  simp only [List.mem_map, Function.comp_apply, eq_comm]

end LaneState

end SyncCascade
