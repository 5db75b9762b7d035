import Mathlib.Data.List.Chain
import SyncCascade.Proofs.Reachable

/-!
# Traces

A traced storage works as the one it watches, and every event is written down with the state that it
left. So a run can be judged at every moment, also inside a transaction: what holds at first and is
kept by each step of the storage holds along the whole trace. In memory a step is a call, which changes
what the unit of work sees, or a turn, after which the unit of work sees what is committed.
-/

namespace SyncCascade

/-- What happens to a storage, and how it answers. -/
inductive Event where
  | start (level : IsolationLevel) (answer : Except Failure Unit)
  | call (c : StoreCall) (answer : Except Failure c.Reply)
  | commit (answer : Except Failure Unit)
  | rollback
  /-- Nothing was asked. -/
  | disturbance

structure Traced (σ : Type) where
  state : σ
  /-- Every event and the state that it left, the first one first. -/
  trace : List (Event × σ)

namespace Traced

variable {σ : Type}

def fresh (s : σ) : Traced σ := ⟨s, []⟩

/-- After one more event, which left the state `s`. -/
def next (t : Traced σ) (e : Event) (s : σ) : Traced σ := ⟨s, t.trace ++ [(e, s)]⟩

def events (t : Traced σ) : List Event := t.trace.map Prod.fst

def states (t : Traced σ) : List σ := t.trace.map Prod.snd

theorem events_next (t : Traced σ) (e : Event) (s : σ) : (t.next e s).events = t.events ++ [e] := by
  simp [events, next]

theorem states_next (t : Traced σ) (e : Event) (s : σ) : (t.next e s).states = t.states ++ [s] := by
  simp [states, next]

end Traced

namespace Storage

variable {σ : Type} (S : Storage σ)

def traced : Storage (Traced σ) where
  start clock level t :=
    let (answer, s) := S.start clock level t.state
    (answer, t.next (.start level answer) s)
  call clock c t :=
    let (answer, s) := S.call clock c t.state
    (answer, t.next (.call c answer) s)
  commit clock t :=
    let (answer, s) := S.commit clock t.state
    (answer, t.next (.commit answer) s)
  rollback t := t.next .rollback (S.rollback t.state)
  ping t :=
    let (answer, s) := S.ping t.state
    (answer, { t with state := s })
  release t := { t with state := S.release t.state }
  announcesStart := S.announcesStart
  announces := S.announces

theorem traced_mirrors : Mirrors (fun (t : Traced σ) (s : σ) => t.state = s) S.traced S where
  start clock level := by
    rintro t _ rfl
    exact ⟨rfl, rfl⟩
  call clock c := by
    rintro t _ rfl
    exact ⟨rfl, rfl⟩
  commit clock := by
    rintro t _ rfl
    exact ⟨rfl, rfl⟩
  rollback := by
    rintro t _ rfl
    rfl
  announcesStart := rfl
  announces := rfl

/-- Every step from a state that satisfies `I` is one of `R`, to a state that does. -/
structure Steps (I : σ → Prop) (R : σ → σ → Prop) : Prop where
  start : ∀ clock level s, I s → I (S.start clock level s).2 ∧ R s (S.start clock level s).2
  call : ∀ clock c s, I s → I (S.call clock c s).2 ∧ R s (S.call clock c s).2
  commit : ∀ clock s, I s → I (S.commit clock s).2 ∧ R s (S.commit clock s).2
  rollback : ∀ s, I s → I (S.rollback s) ∧ R s (S.rollback s)

end Storage

namespace Traced

variable {σ : Type} {I : σ → Prop} {R : σ → σ → Prop} {first : σ} {t : Traced σ}

/-- From the first state on, all states of the trace satisfy `I`, and each leads to the next by `R`. -/
structure Along (I : σ → Prop) (R : σ → σ → Prop) (first : σ) (t : Traced σ) : Prop where
  holds : ∀ s ∈ first :: t.states, I s
  chain : (first :: t.states).IsChain R
  last : (first :: t.states).getLast? = some t.state

theorem along_fresh (h : I first) : (fresh first).Along I R first where
  holds s hs := by rwa [List.mem_singleton.1 hs]
  chain := .singleton first
  last := rfl

theorem Along.state (h : t.Along I R first) : I t.state :=
  h.holds _ (List.mem_of_getLast? h.last)

theorem Along.next (h : t.Along I R first) (e : Event) {s : σ} (hs : I s ∧ R t.state s) :
    (t.next e s).Along I R first := by
  have hstates : first :: (t.next e s).states = (first :: t.states) ++ [s] := by
    rw [states_next, List.cons_append]
  constructor
  case holds =>
    rw [hstates]
    intro s' hs'
    rcases List.mem_append.1 hs' with hs' | hs'
    · exact h.holds s' hs'
    · rw [List.mem_singleton.1 hs']
      exact hs.1
  case chain =>
    rw [hstates, List.isChain_append]
    refine ⟨h.chain, .singleton s, fun s₁ hs₁ s₂ hs₂ => ?_⟩
    rw [h.last, Option.mem_some_iff] at hs₁
    rw [List.head?_cons, Option.mem_some_iff] at hs₂
    rw [← hs₁, ← hs₂]
    exact hs.2
  case last =>
    rw [hstates, List.getLast?_append, List.getLast?_singleton, Option.some_or]
    rfl

theorem along_mirrors {S : Storage σ} (hS : S.Steps I R) (first : σ) :
    Storage.Mirrors (fun t t' : Traced σ => t = t' ∧ t.Along I R first) S.traced S.traced :=
  Storage.mirrors_of_invariant
    (fun clock level t h => h.next _ (hS.start clock level t.state h.state))
    (fun clock c t h => h.next _ (hS.call clock c t.state h.state))
    (fun clock t h => h.next _ (hS.commit clock t.state h.state))
    (fun t h => h.next _ (hS.rollback t.state h.state))

def failNext (n : Nat) (t : Traced Session) : Traced Session :=
  t.next .disturbance (t.state.failNext n)

end Traced

namespace Session

variable {P : Database → Prop} {C : Database → Database → Prop} {s s' : Session}

/-- A step of a session. -/
inductive Moves (C : Database → Database → Prop) (s s' : Session) : Prop
  /-- A call changed what the unit of work sees as `C` allows, and not what is committed. -/
  | call (hcommitted : s'.committed = s.committed) (hcall : C s.visible s'.visible)
  /-- What is seen is now what is committed, and that is what was committed before or what was seen. -/
  | turn (hvisible : s'.visible = s'.committed)
      (hcommitted : s'.committed = s.committed ∨ s'.committed = s.visible)

/-- What a call of the database does, a step of the storage does to what is seen. -/
theorem storage_steps (hP : Database.Preserved P) (hrefl : ∀ db, C db db)
    (hC : ∀ {now db c reply db'}, P db → db.apply now c = .ok (reply, db') → C db db') :
    storage.Steps (Keeps P) (Moves C) where
  start _ _ _ h := ⟨⟨h.committed, h.committed⟩, .turn rfl (.inl rfl)⟩
  call clock c s h := by
    refine ⟨h.call hP clock.wall c, ?_⟩
    change Moves C s (s.call clock.wall c).2
    unfold Session.call
    cases happly : s.visible.apply clock.wall c with
    | error e => exact .call rfl (hrefl _)
    | ok out => exact .call rfl (hC h.visible happly)
  commit _ s h := by
    refine ⟨h.commit, ?_⟩
    change Moves C s s.commit.2
    unfold Session.commit
    cases s.failingCommits with
    | zero => exact .turn rfl (.inr rfl)
    | succ n => exact .turn rfl (.inl rfl)
  rollback _ h := ⟨⟨h.committed, h.committed⟩, .turn rfl (.inl rfl)⟩

theorem Moves.committed (hrefl : ∀ db, C db db) (h : C s.committed s.visible) (hstep : Moves C s s') :
    C s.committed s'.committed := by
  cases hstep with
  | call hcommitted =>
    rw [hcommitted]
    exact hrefl _
  | turn _ hcommitted =>
    rcases hcommitted with heq | heq
    · rw [heq]
      exact hrefl _
    · rwa [heq]

theorem Moves.visible (hrefl : ∀ db, C db db) (htrans : ∀ {db db' db''}, C db db' → C db' db'' → C db db'')
    (h : C s.committed s.visible) (hstep : Moves C s s') : C s'.committed s'.visible := by
  cases hstep with
  | call hcommitted hcall =>
    rw [hcommitted]
    exact htrans h hcall
  | turn hvisible =>
    rw [hvisible]
    exact hrefl _

/-- If calls only ever extend what is seen, commits only ever extend what is committed. -/
theorem pairwise_committed (hrefl : ∀ db, C db db)
    (htrans : ∀ {db db' db''}, C db db' → C db' db'' → C db db'') {states : List Session}
    (h : C s.committed s.visible) (hchain : (s :: states).IsChain (Moves C)) :
    (s :: states).Pairwise fun s s' => C s.committed s'.committed := by
  induction states generalizing s with
  | nil => exact List.pairwise_singleton _ _
  | cons s' rest ih =>
    obtain ⟨hstep, hrest⟩ := List.isChain_cons_cons.1 hchain
    have hlater := ih (hstep.visible hrefl htrans h) hrest
    have hnow := hstep.committed hrefl h
    refine List.pairwise_cons.2 ⟨fun s'' hs'' => ?_, hlater⟩
    rcases List.mem_cons.1 hs'' with rfl | hs''
    · exact hnow
    · exact htrans hnow ((List.pairwise_cons.1 hlater).1 s'' hs'')

end Session

section Run

variable {β : Type} (broker : Broker β) (transaction : TransactionConfig) (queue : QueueConfig)

def tracedEngine : Engine (Traced Session) β := ⟨Session.storage.traced, broker, transaction, queue⟩

def tracedRun (w : World (Traced Session) β) (activities : List Activity) :
    List SyncId × World (Traced Session) β :=
  (tracedEngine broker transaction queue).carryOut Traced.failNext w activities

theorem tracedRun_fresh (w : World Session β) (s : Session) (activities : List Activity) :
    plainRun broker transaction queue (w.withStore s) activities =
      let traced := tracedRun broker transaction queue (w.withStore (.fresh s)) activities
      (traced.1, traced.2.withStore traced.2.store.state) := by
  have hfail : ∀ n (t : Traced Session) s, t.state = s → (t.failNext n).state = s.failNext n :=
    fun n _ _ h => congrArg (Session.failNext n) h
  obtain ⟨s', hrun, hs⟩ := Engine.carryOut_mirrors (E := tracedEngine broker transaction queue)
    Session.storage.traced_mirrors hfail activities (w.withStore (.fresh s)) s rfl
  rw [← hs] at hrun
  exact hrun

/-- Along the trace of a run holds what holds at first and is kept by every step. -/
theorem tracedRun_along {I : Session → Prop} {R : Session → Session → Prop} {first : Session}
    (hfirst : I first) (hS : Session.storage.Steps I R)
    (hfail : ∀ n s, I s → I (s.failNext n) ∧ R s (s.failNext n)) (w : World Session β)
    (activities : List Activity) :
    (tracedRun broker transaction queue (w.withStore (.fresh first)) activities).2.store.Along I R
      first := by
  have hfail' : ∀ n (t t' : Traced Session), t = t' ∧ t.Along I R first →
      t.failNext n = t'.failNext n ∧ (t.failNext n).Along I R first := by
    rintro n t _ ⟨rfl, h⟩
    exact ⟨rfl, h.next _ (hfail n t.state h.state)⟩
  obtain ⟨_, -, -, halong⟩ := Engine.carryOut_mirrors (E := tracedEngine broker transaction queue)
    (Traced.along_mirrors hS first) hfail' activities (w.withStore (.fresh first)) (.fresh first)
    ⟨rfl, Traced.along_fresh hfirst⟩
  exact halong

/-- Along the trace of a run from the empty database every database satisfies what the calls preserve,
and every step is a call or a turn. -/
theorem tracedRun_moves {P : Database → Prop} {C : Database → Database → Prop} (hempty : P .empty)
    (hP : Database.Preserved P) (hrefl : ∀ db, C db db)
    (hC : ∀ {now db c reply db'}, P db → db.apply now c = .ok (reply, db') → C db db')
    (w : World Session β) (activities : List Activity) :
    (tracedRun broker transaction queue (w.withStore (.fresh (.ofDatabase .empty)))
      activities).2.store.Along (Session.Keeps P) (Session.Moves C) (.ofDatabase .empty) :=
  tracedRun_along broker transaction queue (Session.keeps_ofDatabase hempty)
    (Session.storage_steps hP hrefl hC)
    (fun _ s h => ⟨⟨h.committed, h.visible⟩, .call rfl (hrefl s.visible)⟩) w activities

end Run

end SyncCascade
