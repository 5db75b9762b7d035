import SyncCascade.Proofs.Closure
import SyncCascade.Proofs.Store.Audit

/-!
# Syncs stay closed

Over any run from the empty database, however its transactions end, a sync is told to be closed by at
most one unit of work that is committed, and from that commit on it stays completed with the same
end. The run consists of bare steps of the storage, operations of the closure engine, reruns, pushes,
deliveries and injected failures, at any times and over any broker.
-/

namespace SyncCascade

/-- What may happen in a run. -/
inductive Activity where
  | start (level : IsolationLevel)
  | call (c : StoreCall)
  | commit
  | rollback
  | closeChangesets (ids : List ChangesetId) (correlationId : String)
  | closeFile (id : FileId) (correlationId : String)
  | closeSync (id : SyncId) (correlationId : String)
  | createRerun (base : SyncId) (request : RerunRequest)
  | push (kind : JobKind) (ids : List String)
  | handle (job : JobPayload)
  | deliver (lane : Lane) (config : WorkerConfig)
  | recoverStalled (lane : Lane) (config : WorkerConfig)
  | failCommits (count : Nat)
  | setClock (clock : Clock)

def RerunOutcome.closed : RerunOutcome → List SyncId
  | created _ => []
  | notCreated closed => closed

namespace Engine

variable {σ β : Type} (E : Engine σ β) (failCommits : Nat → σ → σ)

/-- Does what the activity says and gives the syncs that its result tells to be closed. -/
def perform : Activity → Action σ β (List SyncId)
  | .start level => do
    Transaction.start E.storage level
    pure []
  | .call c => do
    discard <| E.query c
    pure []
  | .commit => do
    Transaction.commit E.storage
    pure []
  | .rollback => do
    Transaction.rollback E.storage
    pure []
  | .closeChangesets ids correlationId => do
    discard <| E.closeChangesets ids correlationId
    pure []
  | .closeFile id correlationId => do
    discard <| E.closeFile id correlationId
    pure []
  | .closeSync id correlationId => do
    return (← E.closeSync id correlationId).closed
  | .createRerun base request => do
    return (← Rerun.create E.storage E.transaction base request).closed
  | .push kind ids => do
    discard <| E.push kind ids
    pure []
  | .handle job => do
    discard <| E.handle job
    pure []
  | .deliver lane config => do
    discard <| (Worker.mk lane E.broker E.handle config).processNext
    pure []
  | .recoverStalled lane config => do
    discard <| (Worker.mk lane E.broker E.handle config).recoverStalled
    pure []
  | .failCommits count => do
    .update fun w => { w with store := failCommits count w.store }
    pure []
  | .setClock clock => do
    .update fun w => { w with clock := clock }
    pure []

/-- An activity that fails tells nothing. -/
def told : Except Failure (List SyncId) → List SyncId
  | .ok closed => closed
  | .error _ => []

/-- The syncs that the results of a run tell to be closed, and the world after it. The run goes on
after a failure. -/
def carryOut (w : World σ β) : List Activity → List SyncId × World σ β
  | [] => ([], w)
  | a :: rest =>
    let (result, w) := (E.perform failCommits a).run w
    let (closed, w) := carryOut w rest
    (told result ++ closed, w)

variable {E failCommits} {τ : Type} {Q : σ → τ → Prop} {T : Storage τ} {failCommits' : Nat → τ → τ}

theorem perform_mirrors (hS : Storage.Mirrors Q E.storage T)
    (hfail : ∀ n s t, Q s t → Q (failCommits n s) (failCommits' n t)) (a : Activity) :
    Action.Mirrors Q (E.perform failCommits a) (({ E with storage := T }).perform failCommits' a) := by
  cases a with
  | start level => exact .bind (Transaction.start_mirrors hS level) fun _ => .pure _
  | call c => exact .bind (.bind (query_mirrors hS c) fun _ => .pure _) fun _ => .pure _
  | commit => exact .bind (.onStore hS.commit) fun _ => .pure _
  | rollback => exact .bind (Transaction.rollback_mirrors hS) fun _ => .pure _
  | closeChangesets ids id =>
    exact .bind (.bind (closeChangesets_mirrors hS ids id) fun _ => .pure _) fun _ => .pure _
  | closeFile file id =>
    exact .bind (.bind (closeFile_mirrors hS file id) fun _ => .pure _) fun _ => .pure _
  | closeSync sync id => exact .bind (closeSync_mirrors hS sync id) fun _ => .pure _
  | createRerun base request =>
    exact .bind (Rerun.create_mirrors hS _ base request) fun _ => .pure _
  | push kind ids =>
    exact .bind (.bind (Queue.push_mirrors _ _ kind ids) fun _ => .pure _) fun _ => .pure _
  | handle job => exact .bind (.bind (handle_mirrors hS job) fun _ => .pure _) fun _ => .pure _
  | deliver lane config =>
    exact .bind (.bind (Worker.processNext_mirrors ⟨lane, E.broker, E.handle, config⟩
      (handle_mirrors hS)) fun _ => .pure _) fun _ => .pure _
  | recoverStalled lane config =>
    exact .bind (.bind (Worker.recoverStalled_mirrors ⟨lane, E.broker, E.handle, config⟩)
      fun _ => .pure _) fun _ => .pure _
  | failCommits count => exact fun w t h => ⟨failCommits' count t, rfl, hfail count w.store t h⟩
  | setClock clock => exact fun w t h => ⟨t, rfl, h⟩

theorem carryOut_mirrors (hS : Storage.Mirrors Q E.storage T)
    (hfail : ∀ n s t, Q s t → Q (failCommits n s) (failCommits' n t)) (activities : List Activity)
    (w : World σ β) (t : τ) (h : Q w.store t) :
    ∃ t', ({ E with storage := T }).carryOut failCommits' (w.withStore t) activities =
        ((E.carryOut failCommits w activities).1,
          (E.carryOut failCommits w activities).2.withStore t') ∧
      Q (E.carryOut failCommits w activities).2.store t' := by
  induction activities generalizing w t with
  | nil => exact ⟨t, rfl, h⟩
  | cons a rest ih =>
    obtain ⟨t', hrun, ht'⟩ := perform_mirrors hS hfail a w t h
    obtain ⟨t'', hrest, ht''⟩ := ih _ t' ht'
    refine ⟨t'', ?_, ht''⟩
    simp only [carryOut, hrun, hrest]

end Engine

namespace Session

def failNext (n : Nat) (s : Session) : Session := { s with failingCommits := n }

end Session

namespace Audited

def failNext (n : Nat) (a : Audited Session) : Audited Session :=
  { a with state := a.state.failNext n }

/-- The books agree with the database: since the empty one exactly the syncs in the books were
closed, and every committed state keeps what the earlier ones completed. -/
structure Sound (a : Audited Session) : Prop where
  committed_keyed : a.state.committed.SyncsKeyed
  visible_keyed : a.state.visible.SyncsKeyed
  committed_closes : Database.empty.Closes a.closed a.state.committed
  visible_closes : a.state.committed.Closes a.closing a.state.visible
  ordered : a.commits.Pairwise fun c c' => c.state.committed.KeepsDone c'.state.committed
  reached : ∀ c ∈ a.commits, c.state.committed.KeepsDone a.state.committed
  latest : a.state.committed = (a.commits.getLast?.map fun c => c.state.committed).getD .empty

theorem sound_fresh : (fresh (.ofDatabase .empty)).Sound where
  committed_keyed := Database.syncsKeyed_empty
  visible_keyed := Database.syncsKeyed_empty
  committed_closes := .refl _
  visible_closes := .refl _
  ordered := .nil
  reached _ h := by cases h
  latest := rfl

variable {a : Audited Session}

theorem Sound.anew (h : a.Sound) {s : Session} (hc : s.committed = a.state.committed)
    (hv : s.visible = s.committed) : Sound ⟨s, [], a.commits⟩ where
  committed_keyed := hc ▸ h.committed_keyed
  visible_keyed := hv ▸ hc ▸ h.committed_keyed
  committed_closes := hc ▸ h.committed_closes
  visible_closes := hv ▸ .refl _
  ordered := h.ordered
  reached := hc ▸ h.reached
  latest := hc ▸ h.latest

theorem Sound.call (h : a.Sound) (clock : Clock) (c : StoreCall) :
    (Session.storage.audited.call clock c a).2.Sound := by
  rcases happly : a.state.visible.apply clock.wall c with e | ⟨reply, db⟩
  · have hcall : Session.storage.call clock c a.state = (.error e, a.state) := by
      simp only [Session.storage, Session.call, happly]
    rw [Storage.audited_call_error hcall]
    exact h
  · have hcall : Session.storage.call clock c a.state =
        (.ok reply, { a.state with working := some db }) := by
      simp only [Session.storage, Session.call, happly]
    rw [Storage.audited_call_ok hcall]
    obtain ⟨hcloses, hkeyed⟩ := Database.apply_closes h.visible_keyed happly
    exact {
      committed_keyed := h.committed_keyed
      visible_keyed := hkeyed
      committed_closes := h.committed_closes
      visible_closes := h.visible_closes.trans hcloses
      ordered := h.ordered
      reached := h.reached
      latest := h.latest }

theorem Sound.commit (h : a.Sound) (clock : Clock) :
    (Session.storage.audited.commit clock a).2.Sound := by
  cases hn : a.state.failingCommits with
  | succ n =>
    have hcommit : Session.storage.commit clock a.state =
        (.error Session.commitFailure, ⟨a.state.committed, none, n⟩) := by
      simp only [Session.storage, Session.commit, hn]
    rw [Storage.audited_commit_error hcommit]
    exact h.anew rfl rfl
  | zero =>
    have hcommit : Session.storage.commit clock a.state = (.ok (), ⟨a.state.visible, none, 0⟩) := by
      simp only [Session.storage, Session.commit, hn]
    rw [Storage.audited_commit_ok hcommit]
    have hkeeps : ∀ c ∈ a.commits, c.state.committed.KeepsDone a.state.visible :=
      fun c hc _ _ hdone => h.visible_closes.keeps (h.reached c hc hdone)
    constructor
    case committed_keyed => exact h.visible_keyed
    case visible_keyed => exact h.visible_keyed
    case committed_closes =>
      have hclosed : closed ⟨⟨a.state.visible, none, 0⟩, [],
          a.commits ++ [⟨a.closing, ⟨a.state.visible, none, 0⟩⟩]⟩ = a.closed ++ a.closing := by
        simp [closed]
      rw [hclosed]
      exact h.committed_closes.trans h.visible_closes
    case visible_closes => exact .refl _
    case ordered =>
      rw [List.pairwise_append]
      refine ⟨h.ordered, List.pairwise_singleton _ _, fun c hc c' hc' => ?_⟩
      rw [List.mem_singleton.1 hc']
      exact hkeeps c hc
    case reached =>
      intro c hc
      rcases List.mem_append.1 hc with hc | hc
      · exact hkeeps c hc
      · rw [List.mem_singleton.1 hc]
        exact fun _ _ hdone => hdone
    case latest => simp

theorem sound_mirrors : Storage.Mirrors (fun a b : Audited Session => a = b ∧ a.Sound)
    Session.storage.audited Session.storage.audited :=
  Storage.mirrors_of_invariant (fun _ _ _ h => h.anew rfl rfl) (fun clock c _ h => h.call clock c)
    (fun clock _ h => h.commit clock) fun _ h => h.anew rfl rfl

theorem extends_mirrors (commits : List (Commit Session)) :
    Storage.Mirrors (fun a b : Audited Session => a = b ∧ commits <+: a.commits)
      Session.storage.audited Session.storage.audited := by
  refine Storage.mirrors_of_invariant (fun _ _ _ h => h) ?_ ?_ fun _ h => h
  · intro clock c a h
    rcases hcall : Session.storage.call clock c a.state with ⟨e | reply, s⟩
    · rw [Storage.audited_call_error hcall]
      exact h
    · rw [Storage.audited_call_ok hcall]
      exact h
  · intro clock a h
    rcases hcommit : Session.storage.commit clock a.state with ⟨e | u, s⟩
    · rw [Storage.audited_commit_error hcommit]
      exact h
    · rw [Storage.audited_commit_ok hcommit]
      exact h.trans (List.prefix_append _ _)

end Audited

section Told

variable {σ β : Type} {S : Storage σ} {commits : List (Commit σ)} {w : World (Audited σ) β}

theorem Engine.closeSync_closed (broker : Broker β) (transaction : TransactionConfig)
    (queue : QueueConfig) (id : SyncId) (correlationId : String) (h : Stands commits w) :
    (Engine.closeSync ⟨S.audited, broker, transaction, queue⟩ id correlationId).Ensures w
      (fun r w' => Closed commits r.closed w') fun _ w' => Stands commits w' := by
  refine Engine.closeSync_of_transact ?_ (fun _ _ _ _ h => h) (fun _ _ _ _ h => h)
    fun _ _ hclosed => hclosed
  exact run_closed (fun closed => closed) (fun w hw => query_told hw _) _ _ h

namespace Rerun

theorem check_told {f : Option Failure} {k : Unit → Action (Audited σ) β RerunOutcome}
    {R : RerunOutcome → World (Audited σ) β → Prop}
    (hk : (k ()).Ensures w R fun _ w' => Stands commits w') (h : Told commits [] w) :
    ((match f with
      | some f => .fail f
      | none => pure () : Action (Audited σ) β Unit) >>= k).Ensures w R
      fun _ w' => Stands commits w' := by
  cases f with
  | none => exact Action.ensures_bind.2 hk
  | some f => exact Action.ensures_bind.2 h.1

theorem insertNext_told (base : SyncId) (row : SyncRun) (latest : Option SyncRun)
    (totalFiles : Option Int32) (request : RerunRequest) (report : SyncRun → Notice)
    (h : Told commits [] w) :
    (insertNext S.audited base row latest totalFiles request report).Ensures w
      (fun outcome w' => Told commits outcome.closed w') fun _ w' => Stands commits w' := by
  unfold insertNext
  rw [Action.ensures_bind, Action.ensures_ofExcept]
  cases nextNumber latest with
  | error e => exact h.1
  | ok number =>
    refine query_bind_told (fun _ => rfl) (fun _ w h => ?_) h
    rw [Action.ensures_bind]
    exact Action.ensures_note (fun _ _ _ h => h) h

theorem build_told (base : SyncId) (row : SyncRun) (latest : Option SyncRun) (deleted : Nat)
    (request : RerunRequest) (h : Told commits [] w) :
    (build S.audited base row latest deleted request).Ensures w
      (fun outcome w' => Told commits outcome.closed w') fun _ w' => Stands commits w' := by
  unfold build
  refine query_bind_told (fun _ => rfl) (fun archived w h => ?_) h
  refine query_bind_told (fun _ => rfl) (fun reopened w h => ?_) h
  refine query_bind_told (fun _ => rfl) (fun reset w h => ?_) h
  dsimp only
  split
  · rw [Action.ensures_bind, Action.ensures_pure]
    exact insertNext_told base row latest _ request _ h
  · refine query_bind_told (fun _ => rfl) (fun reread w h => ?_) h
    rw [Action.ensures_bind, Action.ensures_pure]
    exact insertNext_told base row latest _ request _ h

theorem attempt_told (base : SyncId) (request : RerunRequest) (h : Told commits [] w) :
    (attempt S.audited base request).Ensures w
      (fun outcome w' => Told commits outcome.closed w') fun _ w' => Stands commits w' := by
  unfold attempt
  refine query_bind_told (fun _ => rfl) (fun found w h => ?_) h
  cases found with
  | none => exact h.1
  | some row =>
    refine check_told ?_ h
    refine query_bind_told (fun _ => rfl) (fun latest w h => ?_) h
    refine check_told ?_ h
    refine query_bind_told (fun _ => rfl) (fun taken w h => ?_) h
    split
    · exact h.1
    refine query_bind_told (fun _ => rfl) (fun deleted w h => ?_) h
    split
    · exact build_told base row latest deleted request h
    refine query_bind_told (fun _ => rfl) (fun _ w h => ?_) h
    rw [Action.ensures_bind]
    refine (query_told h _).mono (fun closed w h => ?_) fun _ _ h => h
    split
    next hnone =>
      have hclosed : closed = [] := List.isEmpty_iff.1 hnone
      subst hclosed
      exact build_told base row latest deleted request h
    next => exact h

theorem create_closed (config : TransactionConfig) (base : SyncId) (request : RerunRequest)
    (h : Stands commits w) :
    (create S.audited config base request).Ensures w
      (fun outcome w' => Closed commits outcome.closed w') fun _ w' => Stands commits w' := by
  unfold create
  refine Action.Ensures.announcing ?_ fun _ _ _ _ h => h
  rw [Action.ensures_bind]
  refine (run_closed RerunOutcome.closed (fun w hw => attempt_told base request hw) _ _ h).mono
    ?_ fun _ _ h => h
  intro outcome w' hclosed
  cases outcome with
  | created sync => exact hclosed
  | notCreated closed =>
    rw [Action.ensures_bind]
    exact Action.ensures_note (fun _ _ _ h => h) hclosed

end Rerun

end Told

section Run

variable {β : Type} (broker : Broker β) (transaction : TransactionConfig) (queue : QueueConfig)

def plainEngine : Engine Session β := ⟨Session.storage, broker, transaction, queue⟩

def auditedEngine : Engine (Audited Session) β :=
  ⟨Session.storage.audited, broker, transaction, queue⟩

def plainRun (w : World Session β) (activities : List Activity) : List SyncId × World Session β :=
  (plainEngine broker transaction queue).carryOut Session.failNext w activities

/-- The same run with the books beside it. -/
def auditedRun (w : World (Audited Session) β) (activities : List Activity) :
    List SyncId × World (Audited Session) β :=
  (auditedEngine broker transaction queue).carryOut Audited.failNext w activities

theorem auditedRun_erases (w : World (Audited Session) β) (activities : List Activity) :
    plainRun broker transaction queue (w.withStore w.store.state) activities =
      ((auditedRun broker transaction queue w activities).1,
        (auditedRun broker transaction queue w activities).2.withStore
          (auditedRun broker transaction queue w activities).2.store.state) := by
  have hfail : ∀ n (a : Audited Session) s, a.state = s →
      (a.failNext n).state = s.failNext n := fun n _ _ h => congrArg (Session.failNext n) h
  obtain ⟨t, hrun, ht⟩ := Engine.carryOut_mirrors (E := auditedEngine broker transaction queue)
    Session.storage.audited_mirrors hfail activities w w.store.state rfl
  rw [← ht] at hrun
  exact hrun

theorem auditedRun_sound {w : World (Audited Session) β} (h : w.store.Sound)
    (activities : List Activity) : (auditedRun broker transaction queue w activities).2.store.Sound := by
  have hfail : ∀ n (a b : Audited Session), a = b ∧ a.Sound →
      a.failNext n = b.failNext n ∧ (a.failNext n).Sound := by
    rintro n a _ ⟨rfl, h⟩
    exact ⟨rfl, h.committed_keyed, h.visible_keyed, h.committed_closes, h.visible_closes, h.ordered,
      h.reached, h.latest⟩
  obtain ⟨_, -, -, hsound⟩ := Engine.carryOut_mirrors (E := auditedEngine broker transaction queue)
    Audited.sound_mirrors hfail activities w w.store ⟨rfl, h⟩
  exact hsound

/-- The books got further commits, whose units of work were told at least `closed`. -/
def Records (commits : List (Commit Session)) (closed : List SyncId)
    (w : World (Audited Session) β) : Prop :=
  ∃ more, w.store.commits = commits ++ more ∧ closed.Sublist (more.flatMap Commit.closed)

theorem records_of_closed {commits : List (Commit Session)} {closed : List SyncId}
    {w : World (Audited Session) β} (h : Closed commits closed w) : Records commits closed w := by
  obtain ⟨s, hs⟩ := h
  refine ⟨[⟨closed, s⟩], hs, ?_⟩
  simp

theorem perform_extends (w : World (Audited Session) β) (a : Activity) :
    Records w.store.commits []
      (((auditedEngine broker transaction queue).perform Audited.failNext a).run w).2 := by
  have hfail : ∀ n (a b : Audited Session), a = b ∧ w.store.commits <+: a.commits →
      a.failNext n = b.failNext n ∧ w.store.commits <+: (a.failNext n).commits := by
    rintro n a _ ⟨rfl, h⟩
    exact ⟨rfl, h⟩
  have hmirrors := Engine.perform_mirrors (E := auditedEngine broker transaction queue)
    (Audited.extends_mirrors w.store.commits) hfail a
  obtain ⟨more, hmore⟩ := hmirrors.invariant (List.prefix_refl _)
  exact ⟨more, hmore.symm, List.nil_sublist _⟩

theorem records_of_ensures {w : World (Audited Session) β} {commits : List (Commit Session)}
    {a : Action (Audited Session) β (List SyncId)}
    (h : a.Ensures w (fun closed w' => Closed commits closed w') fun _ w' => Stands commits w') :
    Records commits (Engine.told (a.run w).1) (a.run w).2 := by
  unfold Action.Ensures at h
  generalize a.run w = out at h ⊢
  obtain ⟨e | closed, w'⟩ := out
  · refine ⟨[], ?_, List.Sublist.refl _⟩
    rw [List.append_nil]
    exact h
  · exact records_of_closed h

theorem told_quiet {γ : Type} (a : Action (Audited Session) β γ) (w : World (Audited Session) β) :
    Engine.told ((a >>= fun _ => pure []).run w).1 = [] := by
  rw [Action.run_bind]
  obtain ⟨e | r, w'⟩ := a.run w <;> rfl

/-- A result that tells of a closed sync comes from a unit of work that was committed. -/
theorem perform_records (w : World (Audited Session) β) (a : Activity) :
    Records w.store.commits
      (Engine.told (((auditedEngine broker transaction queue).perform Audited.failNext a).run w).1)
      (((auditedEngine broker transaction queue).perform Audited.failNext a).run w).2 := by
  have hextends := perform_extends broker transaction queue w a
  have hstands : Stands w.store.commits w := rfl
  have hquiet : ∀ {γ : Type} (x : Action (Audited Session) β γ),
      (auditedEngine broker transaction queue).perform Audited.failNext a =
        (x >>= fun _ => pure []) →
      Records w.store.commits
        (Engine.told (((auditedEngine broker transaction queue).perform Audited.failNext a).run w).1)
        (((auditedEngine broker transaction queue).perform Audited.failNext a).run w).2 := by
    intro γ x hx
    rw [hx] at hextends ⊢
    rw [told_quiet]
    exact hextends
  cases a with
  | closeSync id correlationId =>
    apply records_of_ensures
    exact Action.ensures_bind.2
      (Engine.closeSync_closed broker transaction queue id correlationId hstands)
  | createRerun base request =>
    apply records_of_ensures
    exact Action.ensures_bind.2 (Rerun.create_closed transaction base request hstands)
  | start | call | commit | rollback | closeChangesets | closeFile | push | handle | deliver |
    recoverStalled | failCommits | setClock =>
    exact hquiet _ rfl

theorem auditedRun_records (w : World (Audited Session) β) (activities : List Activity) :
    Records w.store.commits (auditedRun broker transaction queue w activities).1
      (auditedRun broker transaction queue w activities).2 := by
  induction activities generalizing w with
  | nil => exact ⟨[], (List.append_nil _).symm, List.Sublist.refl _⟩
  | cons a rest ih =>
    obtain ⟨more, hmore, hsub⟩ :=
      perform_records broker transaction queue w a
    obtain ⟨more', hmore', hsub'⟩ :=
      ih (((auditedEngine broker transaction queue).perform Audited.failNext a).run w).2
    refine ⟨more ++ more', ?_, ?_⟩
    · rw [hmore, List.append_assoc] at hmore'
      exact hmore'
    · rw [List.flatMap_append]
      exact hsub.append hsub'

/-- Over any run from the empty database, completed syncs keep their end in every later committed
state, and no sync is told to be closed by two committed units of work, nor twice by one. The books
in which this is read change nothing, end with the committed state of the run, and hold every sync
that a result of the run tells to be closed. -/
theorem sync_closes_once (broker : Broker β) (transaction : TransactionConfig)
    (queue : QueueConfig) (w : World Session β) (activities : List Activity) :
    let run := plainRun broker transaction queue (w.withStore (.ofDatabase .empty)) activities
    let books := auditedRun broker transaction queue
      (w.withStore (.fresh (.ofDatabase .empty))) activities
    run = (books.1, books.2.withStore books.2.store.state) ∧
      run.2.store.committed =
        (books.2.store.commits.getLast?.map fun c => c.state.committed).getD .empty ∧
      (books.2.store.commits.Pairwise fun earlier later =>
        earlier.state.committed.KeepsDone later.state.committed) ∧
      books.2.store.closed.Nodup ∧ run.1.Sublist books.2.store.closed := by
  intro run books
  have herase := auditedRun_erases broker transaction queue
    (w.withStore (.fresh (.ofDatabase .empty))) activities
  have hsound := auditedRun_sound broker transaction queue
    (w := w.withStore (.fresh (.ofDatabase .empty))) Audited.sound_fresh activities
  obtain ⟨more, hmore, hsub⟩ := auditedRun_records broker transaction queue
    (w.withStore (.fresh (.ofDatabase .empty))) activities
  have hrun : run = (books.1, books.2.withStore books.2.store.state) := herase
  refine ⟨hrun, ?_, hsound.ordered, hsound.committed_closes.nodup, ?_⟩
  · rw [hrun]
    exact hsound.latest
  · rw [hrun]
    have hbooks : books.2.store.commits = more := hmore
    unfold Audited.closed
    rw [hbooks]
    exact hsub

end Run

end SyncCascade
