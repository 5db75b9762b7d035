import SyncCascade.Proofs.Completion
import SyncCascade.Proofs.Rerun.Chains

/-!
# Chains of reruns over runs

A run in which syncs are inserted as roots only, and reruns are made by `Rerun.create` only, keeps the
chains of reruns in order. The activities other than reruns work over a storage that refuses to insert
anything but roots as they do over the plain one, so what such calls preserve they preserve. A rerun is
judged by what its attempt comes to.
-/

namespace SyncCascade

section Restriction

variable {σ β : Type} {S : Storage σ} {allowed : StoreCall → Bool} {E : Engine σ β}

/-- The storage refuses calls that are not allowed. -/
def Storage.restricted (S : Storage σ) (allowed : StoreCall → Bool) : Storage σ :=
  { S with
    call := fun clock c s =>
      if allowed c then S.call clock c s else (.error (.storage "not allowed"), s) }

def Engine.restricted (E : Engine σ β) (allowed : StoreCall → Bool) : Engine σ β :=
  { E with storage := E.storage.restricted allowed }

theorem Engine.query_restricted {c : StoreCall} (h : allowed c = true) :
    (E.restricted allowed).query c = E.query c := by
  have hcall : ∀ clock s, (E.storage.restricted allowed).call clock c s = E.storage.call clock c s :=
    fun _ _ => if_pos h
  unfold Engine.query Transaction.query Engine.restricted
  simp only [hcall]
  rfl

/-- What the closure engine asks of its storage is allowed. -/
structure AllowsClosing (allowed : StoreCall → Bool) : Prop where
  markCompleted : ∀ ids, allowed (.markCompleted ids) = true
  findFiles : ∀ ids statuses, allowed (.findFiles ids statuses) = true
  tryCloseFile : ∀ id, allowed (.tryCloseFile id) = true
  tryCloseSync : ∀ id, allowed (.tryCloseSync id) = true

/-- The activity is no rerun, and not a call that is not allowed. -/
def Activity.Within (allowed : StoreCall → Bool) : Activity → Prop
  | call c => allowed c = true
  | createRerun _ _ => False
  | _ => True

namespace Engine

variable (hallowed : AllowsClosing allowed)
include hallowed

theorem closeChangesets_restricted :
    (E.restricted allowed).closeChangesets = E.closeChangesets := by
  funext ids correlationId
  unfold closeChangesets
  rw [query_restricted (hallowed.markCompleted ids), query_restricted (hallowed.findFiles ids _)]
  rfl

theorem closeFile_restricted : (E.restricted allowed).closeFile = E.closeFile := by
  funext id correlationId
  unfold closeFile
  rw [query_restricted (hallowed.tryCloseFile id)]
  rfl

theorem closeSync_restricted : (E.restricted allowed).closeSync = E.closeSync := by
  funext id correlationId
  unfold closeSync
  rw [query_restricted (hallowed.tryCloseSync id)]
  rfl

theorem handle_restricted : (E.restricted allowed).handle = E.handle := by
  funext job
  unfold handle
  rw [closeChangesets_restricted hallowed, closeFile_restricted hallowed, closeSync_restricted hallowed]

theorem perform_restricted (failCommits : Nat → σ → σ) {a : Activity} (ha : a.Within allowed) :
    (E.restricted allowed).perform failCommits a = E.perform failCommits a := by
  cases a with
  | call c => simp only [perform, query_restricted ha]
  | closeChangesets => simp only [perform, closeChangesets_restricted hallowed]
  | closeFile => simp only [perform, closeFile_restricted hallowed]
  | closeSync => simp only [perform, closeSync_restricted hallowed]
  | handle => simp only [perform, handle_restricted hallowed]
  | deliver lane config =>
    simp only [perform, handle_restricted hallowed]
    rfl
  | recoverStalled lane config =>
    simp only [perform, handle_restricted hallowed]
    rfl
  | createRerun => exact ha.elim
  | start | commit | rollback | push | failCommits | setClock => rfl

end Engine

end Restriction

namespace Session

open SyncCascade.Action

variable {P : Database → Prop} {allowed : StoreCall → Bool}

theorem keeps_mirrors_restricted
    (hP : ∀ ⦃now db c reply db'⦄, allowed c = true → P db → db.apply now c = .ok (reply, db') → P db') :
    Storage.Mirrors (fun s t => s = t ∧ s.Keeps P) (storage.restricted allowed)
      (storage.restricted allowed) := by
  refine Storage.mirrors_of_invariant (fun _ _ _ h => ⟨h.committed, h.committed⟩) (fun clock c s h => ?_)
    (fun _ _ h => h.commit) fun _ h => ⟨h.committed, h.committed⟩
  unfold Storage.restricted
  dsimp only
  split
  next hc => exact h.call_of fun hok => hP hc h.visible hok
  next => exact h

variable {β α : Type} {w : World Session β}

theorem once_settles (level : IsolationLevel) (work : Action Session β α) :
    (Transaction.once storage level work).Ensures w (fun _ w' => w'.store.working = none)
      fun _ w' => w'.store.working = none := by
  refine Transaction.once_ensures ?_
  refine (start_ensures ⟨⟨rfl, rfl⟩, rfl, rfl⟩ level).mono (fun _ w₁ _ => ?_) fun _ _ h => h.elim
  refine Ensures.of_forall (fun r w₂ => ?_) fun e w₂ => rfl
  unfold Transaction.commit
  rw [ensures_onStore]
  cases hn : w₂.store.failingCommits with
  | zero => simp only [storage, Session.commit, hn]
  | succ n => simp only [storage, Session.commit, hn]

/-- After a transaction no unit of work is in progress, however it ends, unless it never began. -/
theorem run_settles (config : TransactionConfig) (context : WorkContext)
    (work : Action Session β α) :
    (Transaction.run storage config context work).Ensures w (fun _ w' => w'.store.working = none)
      fun _ w' => w'.store.working = none ∨ w'.store = w.store := by
  refine Transaction.withRetries_rule (fun _ => .inr rfl) ?_
  refine Transaction.repeating_rule (P := fun _ _ => True) (fun _ _ _ _ _ => trivial)
    (fun _ _ _ _ h => h) (fun remaining w _ => ?_) context _ _ trivial
  refine (once_settles config.isolation work).mono (fun _ _ h => h) fun e w' h => ?_
  cases remaining <;> simp [h]

end Session

section Run

open SyncCascade.Action SyncCascade.Session

variable {β : Type} {w : World Session β}

theorem Engine.perform_keeps {E : Engine Session β} {P : Database → Prop}
    (hS : Storage.Mirrors (fun s t => s = t ∧ s.Keeps P) E.storage E.storage) (h : w.store.Keeps P)
    (a : Activity) : ((E.perform Session.failNext a).run w).2.store.Keeps P := by
  have hfail : ∀ n (s t : Session), s = t ∧ s.Keeps P → s.failNext n = t.failNext n ∧
      (s.failNext n).Keeps P := by
    rintro n s _ ⟨rfl, hs⟩
    exact ⟨rfl, hs.committed, hs.visible⟩
  exact (perform_mirrors hS hfail a).invariant h

variable (broker : Broker β) (transaction : TransactionConfig) (queue : QueueConfig)

theorem perform_keeps_within {P : Database → Prop} {allowed : StoreCall → Bool}
    (hallowed : AllowsClosing allowed)
    (hP : ∀ ⦃now db c reply db'⦄, allowed c = true → P db → db.apply now c = .ok (reply, db') → P db')
    (h : w.store.Keeps P) {a : Activity} (ha : a.Within allowed) :
    (((plainEngine broker transaction queue).perform Session.failNext a).run w).2.store.Keeps P := by
  rw [← Engine.perform_restricted hallowed Session.failNext ha]
  exact Engine.perform_keeps (keeps_mirrors_restricted hP) h a

def StoreCall.rootsOnly : StoreCall → Bool
  | insertSync s => s.baseSyncId.isNone
  | _ => true

theorem allowsClosing_rootsOnly : AllowsClosing StoreCall.rootsOnly where
  markCompleted _ := rfl
  findFiles _ _ := rfl
  tryCloseFile _ := rfl
  tryCloseSync _ := rfl

def Database.Tidy (db : Database) : Prop := db.Integral ∧ db.Chained

theorem Database.Tidy.apply {now : Timestamp} {db db' : Database} {c : StoreCall} {reply : c.Reply}
    (hc : c.rootsOnly = true) (h : db.Tidy) (hok : db.apply now c = .ok (reply, db')) : db'.Tidy := by
  refine ⟨h.1.evolves (apply_evolves h.1.keyed hok), h.2.apply h.1 (fun s hs => ?_) hok⟩
  subst hs
  exact Option.isNone_iff_eq_none.1 hc

theorem Rerun.create_settles (config : TransactionConfig) (base : SyncId) (request : RerunRequest) :
    (Rerun.create storage config base request : Action Session β RerunOutcome).Ensures w
      (fun _ w' => w'.store.working = none)
      fun _ w' => w'.store.working = none ∨ w'.store = w.store := by
  unfold Rerun.create
  refine Ensures.announcing ?_ fun _ _ _ _ h => h
  rw [ensures_bind]
  refine (run_settles config _ _).mono (fun outcome w' h => ?_) fun _ _ h => h
  cases outcome with
  | created sync => exact h
  | notCreated closed => exact ensures_note_bind (fun _ _ _ h => h) h fun _ h => h

/-- A rerun makes its changes in one transaction, of which nothing is seen but what it commits. -/
theorem createRerun_chained (h : w.store.Keeps Database.Tidy) (base : SyncId)
    (request : RerunRequest) :
    (((plainEngine broker transaction queue).perform Session.failNext
      (.createRerun base request)).run w).2.store.Keeps Database.Chained := by
  have hw : World.Standing (Awaits w.store.committed w.store.failingCommits) w.broker w.clock w :=
    ⟨⟨rfl, rfl⟩, rfl, rfl⟩
  refine Ensures.store ?_
  unfold Engine.perform
  rw [ensures_bind]
  refine ((Rerun.create_ensures transaction hw).and (Rerun.create_settles transaction base
    request)).mono ?_ ?_
  · rintro outcome w' ⟨⟨db', hattempted, hdb', -⟩, hnone⟩
    have hchained : w'.store.committed.Chained := hdb' ▸ h.committed.2.attempted h.committed.1 hattempted
    refine ⟨hchained, ?_⟩
    unfold Session.visible
    rw [hnone]
    exact hchained
  · rintro e w' ⟨⟨-, hdb', -⟩, hnone | hsame⟩
    · have hchained : w'.store.committed.Chained := hdb' ▸ h.committed.2
      refine ⟨hchained, ?_⟩
      unfold Session.visible
      rw [hnone]
      exact hchained
    · rw [hsame]
      exact ⟨h.committed.2, h.visible.2⟩

theorem perform_tidy {a : Activity} (ha : ∀ c, a = .call c → c.rootsOnly = true)
    (h : w.store.Keeps Database.Tidy) :
    (((plainEngine broker transaction queue).perform Session.failNext a).run w).2.store.Keeps
      Database.Tidy := by
  have hwithin : a.Within StoreCall.rootsOnly →
      (((plainEngine broker transaction queue).perform Session.failNext a).run w).2.store.Keeps
        Database.Tidy :=
    perform_keeps_within broker transaction queue allowsClosing_rootsOnly
      (fun _ _ _ _ _ => Database.Tidy.apply) h
  cases a with
  | call c => exact hwithin (ha c rfl)
  | createRerun base request =>
    have hintegral := Engine.perform_keeps (E := plainEngine broker transaction queue)
      (keeps_mirrors Database.preserved_integral) ⟨h.committed.1, h.visible.1⟩
      (.createRerun base request)
    have hchained := createRerun_chained broker transaction queue h base request
    exact ⟨⟨hintegral.committed, hchained.committed⟩, hintegral.visible, hchained.visible⟩
  | start | commit | rollback | closeChangesets | closeFile | closeSync | push | handle | deliver |
    recoverStalled | failCommits | setClock =>
    exact hwithin trivial

theorem carryOut_tidy {activities : List Activity}
    (hroots : ∀ c, .call c ∈ activities → c.rootsOnly = true) (h : w.store.Keeps Database.Tidy) :
    (plainRun broker transaction queue w activities).2.store.Keeps Database.Tidy := by
  induction activities generalizing w with
  | nil => exact h
  | cons a rest ih =>
    refine ih (fun c hc => hroots c (List.mem_cons_of_mem a hc)) ?_
    exact perform_tidy broker transaction queue
      (fun c hc => hroots c (hc ▸ List.mem_cons_self)) h

/-- Over any run from the empty database in which no call inserts a sync but a root, the chains of
reruns are in order, as committed and as the unit of work in progress sees them: where the numbers of a
base are used up, no rerun of it is made. -/
theorem reruns_chained (w : World Session β) (activities : List Activity)
    (hroots : ∀ s, .call (.insertSync s) ∈ activities → s.baseSyncId = none) :
    let run := plainRun broker transaction queue (w.withStore (.ofDatabase .empty)) activities
    run.2.store.committed.Chained ∧ run.2.store.visible.Chained := by
  intro run
  have hempty : (Session.ofDatabase .empty).Keeps Database.Tidy :=
    keeps_ofDatabase ⟨Database.integral_empty, Database.chained_empty⟩
  have hcalls : ∀ c, Activity.call c ∈ activities → c.rootsOnly = true := by
    intro c hc
    cases c with
    | insertSync s => exact Option.isNone_iff_eq_none.2 (hroots s hc)
    | _ => rfl
  have hkeeps : run.2.store.Keeps Database.Tidy :=
    carryOut_tidy (w := w.withStore (.ofDatabase .empty)) broker transaction queue hcalls hempty
  exact ⟨hkeeps.committed.2, hkeeps.visible.2⟩

open Rerun.Sample in
/-- A failed root gets a rerun, which closes on its own, and then another one. -/
theorem reruns_chained_sample :
    let w : World Session BrokerRehearsal := .initial (.ofDatabase .empty) ⟨[], [], []⟩
    let activities : List Activity :=
      [.call (.insertSync (baseRow 1)),
        .call (.insertFile ⟨filled, base, .inProgress, some 1, ⟨0, 0⟩, none⟩),
        .call (.insertEntities [⟨⟨"a"⟩, filled, none, .failed, .create, none⟩]), .commit,
        .createRerun base request,
        .call (.insertFile ⟨empty, request.id, .completed, none, ⟨0, 0⟩, none⟩), .commit,
        .closeSync request.id "close", .createRerun base { request with id := ⟨⟨6⟩⟩ }]
    let db := (plainRun BrokerRehearsal.broker .default .default (w.withStore (.ofDatabase .empty))
      activities).2.store.committed
    (db.rerunsOf base).map (fun r => (r.runNumber, r.status)) = [(1, .completed), (2, .inProgress)] ∧
      db.Chained := by
  intro w activities db
  refine ⟨by decide +kernel, ?_⟩
  refine (reruns_chained BrokerRehearsal.broker .default .default w activities ?_).1
  intro s hs
  have hs : s = baseRow 1 := by simpa [activities] using hs
  rw [hs]
  rfl

end Run

end SyncCascade
