import SyncCascade.Proofs.Store.Keys
import SyncCascade.Proofs.SyncHistory

/-!
# What holds in every reachable state

Whatever the empty database satisfies and every call preserves, holds of the committed database and of
the one that the unit of work in progress sees, after any run of activities.
-/

namespace SyncCascade

namespace Session

/-- The committed database and the one in progress satisfy `P`. -/
structure Keeps (P : Database → Prop) (s : Session) : Prop where
  committed : P s.committed
  visible : P s.visible

variable {P : Database → Prop} {s : Session}

theorem keeps_ofDatabase {db : Database} (h : P db) : (ofDatabase db).Keeps P := ⟨h, h⟩

theorem Keeps.call_of {now : Timestamp} {c : StoreCall} (h : s.Keeps P)
    (hok : ∀ {reply db}, s.visible.apply now c = .ok (reply, db) → P db) : (s.call now c).2.Keeps P := by
  unfold Session.call
  cases happly : s.visible.apply now c with
  | error e => exact h
  | ok out => exact ⟨h.committed, hok happly⟩

theorem Keeps.call (hP : Database.Preserved P) (h : s.Keeps P) (now : Timestamp) (c : StoreCall) :
    (s.call now c).2.Keeps P :=
  h.call_of fun happly => hP h.visible happly

theorem Keeps.commit (h : s.Keeps P) : s.commit.2.Keeps P := by
  unfold Session.commit
  cases s.failingCommits with
  | zero => exact ⟨h.visible, h.visible⟩
  | succ n => exact ⟨h.committed, h.committed⟩

theorem keeps_mirrors (hP : Database.Preserved P) :
    Storage.Mirrors (fun s t => s = t ∧ s.Keeps P) storage storage :=
  Storage.mirrors_of_invariant (fun _ _ _ h => ⟨h.committed, h.committed⟩)
    (fun clock c _ h => h.call hP clock.wall c) (fun _ _ h => h.commit)
    fun _ h => ⟨h.committed, h.committed⟩

end Session

section Run

variable {β : Type} (broker : Broker β) (transaction : TransactionConfig) (queue : QueueConfig)

theorem plainRun_keeps {P : Database → Prop} (hempty : P .empty) (hP : Database.Preserved P)
    (w : World Session β) (activities : List Activity) :
    (plainRun broker transaction queue (w.withStore (.ofDatabase .empty)) activities).2.store.Keeps P := by
  have hfail : ∀ n (s t : Session), s = t ∧ s.Keeps P → s.failNext n = t.failNext n ∧
      (s.failNext n).Keeps P := by
    rintro n s _ ⟨rfl, h⟩
    exact ⟨rfl, h.committed, h.visible⟩
  have hstart := Session.keeps_ofDatabase hempty
  obtain ⟨t, -, -, hkeeps⟩ := Engine.carryOut_mirrors (E := plainEngine broker transaction queue)
    (Session.keeps_mirrors hP) hfail activities (w.withStore (.ofDatabase .empty))
    (.ofDatabase .empty) ⟨rfl, hstart⟩
  exact hkeeps

end Run

end SyncCascade
