import SyncCascade.Proofs.Store.References
import SyncCascade.Proofs.Store.Rows
import SyncCascade.Proofs.Trace

/-!
# Referential integrity

Every row stands under its own key and refers to rows that are there, and the chain of bases of every
sync ends at a root. A call keeps all this, because it inserts a row only beside the rows that it
refers to and deletes only files without entities. What identifies a row changes with no call.
-/

namespace SyncCascade

namespace Database

/-- The sync that is reached from the sync `id` through `n` bases. -/
def ancestor (db : Database) : (n : Nat) → (id : SyncId) → Option SyncRun
  | 0, id => db.syncs.find? id
  | n + 1, id => (db.syncs.find? id).bind fun s => s.baseSyncId.bind (db.ancestor n)

/-- Every row stands under its own key, and what rows refer to is there. -/
structure Integral (db : Database) : Prop where
  syncsKeyed : db.SyncsKeyed
  keyed : db.Keyed
  changesetsKeyed : db.changesets.Keyed Changeset.changesetId
  filesOwned : db.FilesOwned
  entityFile : ∀ ⦃k e⦄, db.entities.find? k = some e → db.files.contains e.fileId = true
  entityChangeset : ∀ ⦃k e c⦄, db.entities.find? k = some e → e.changesetId = some c →
    db.changesets.contains c = true
  syncBase : ∀ ⦃id s base⦄, db.syncs.find? id = some s → s.baseSyncId = some base →
    db.syncs.contains base = true
  rooted : ∀ ⦃id⦄, db.syncs.contains id = true →
    ∃ n root, db.ancestor n id = some root ∧ root.baseSyncId = none

/-- What identifies a row is the same in both databases if both have the row. -/
structure KeepsIdentity (db db' : Database) : Prop where
  syncs : ∀ ⦃id s s'⦄, db.syncs.find? id = some s → db'.syncs.find? id = some s' → s.SameRun s'
  files : ∀ ⦃id f f'⦄, db.files.find? id = some f → db'.files.find? id = some f' → f.SameFile f'
  entities : ∀ ⦃k e e'⦄, db.entities.find? k = some e → db'.entities.find? k = some e' →
    e'.key = e.key

/-- No sync and no entity is lost, and what identifies it stays. -/
structure Retains (db db' : Database) : Prop where
  syncs : ∀ ⦃id s⦄, db.syncs.find? id = some s → ∃ s', db'.syncs.find? id = some s' ∧ s.SameRun s'
  entities : ∀ ⦃k e⦄, db.entities.find? k = some e →
    ∃ e', db'.entities.find? k = some e' ∧ e'.key = e.key

variable {db db' : Database}

theorem Evolves.keepsIdentity (h : db.Evolves db') : db.KeepsIdentity db' where
  syncs _ _ _ hs hs' := by
    obtain ⟨t, ht, hsame⟩ := h.syncs.kept hs
    cases ht.symm.trans hs'
    exact hsame
  files _ _ _ hf hf' := by
    rcases h.files.kept hf with ⟨g, hg, hsame⟩ | ⟨hlost, -, -⟩
    · cases hg.symm.trans hf'
      exact hsame
    · cases hlost.symm.trans hf'
  entities _ _ _ he he' := by
    obtain ⟨d, hd, hsame⟩ := h.entities.kept he
    cases hd.symm.trans he'
    exact hsame

theorem KeepsIdentity.refl (db : Database) : db.KeepsIdentity db :=
  (Evolves.refl db).keepsIdentity

theorem Evolves.retains (h : db.Evolves db') : db.Retains db' := ⟨h.syncs.kept, h.entities.kept⟩

theorem Retains.refl (db : Database) : db.Retains db := (Evolves.refl db).retains

theorem Retains.trans {db'' : Database} (h : db.Retains db') (h' : db'.Retains db'') :
    db.Retains db'' where
  syncs _ _ hs := by
    obtain ⟨s', hs', hsame⟩ := h.syncs hs
    obtain ⟨s'', hs'', hsame'⟩ := h'.syncs hs'
    exact ⟨s'', hs'', hsame.trans hsame'⟩
  entities _ _ he := by
    obtain ⟨e', he', hkey⟩ := h.entities he
    obtain ⟨e'', he'', hkey'⟩ := h'.entities he'
    exact ⟨e'', he'', hkey'.trans hkey⟩

theorem Evolves.contains_sync (h : db.Evolves db') {id : SyncId}
    (hid : db.syncs.contains id = true) : db'.syncs.contains id = true := by
  obtain ⟨s, hs⟩ := Table.contains_eq_true.1 hid
  obtain ⟨s', hs', -⟩ := h.syncs.kept hs
  exact Table.contains_eq_true.2 ⟨s', hs'⟩

theorem Evolves.contains_changeset (h : db.Evolves db') {id : ChangesetId}
    (hid : db.changesets.contains id = true) : db'.changesets.contains id = true := by
  obtain ⟨c, hc⟩ := Table.contains_eq_true.1 hid
  exact Table.contains_eq_true.2 ⟨c, h.changesets.kept hc⟩

theorem Integral.file_stays (h : db.Integral) (hstep : db.Evolves db') {k : EntityKey} {e : Entity}
    (he : db.entities.find? k = some e) :
    ∃ f f', db.files.find? e.fileId = some f ∧ db'.files.find? e.fileId = some f' ∧ f.SameFile f' := by
  obtain ⟨f, hf⟩ := Table.contains_eq_true.1 (h.entityFile he)
  rcases hstep.files.kept hf with ⟨f', hf', hsame⟩ | ⟨-, hempty, -⟩
  · exact ⟨f, f', hf, hf', hsame⟩
  · have hfile : k.file = e.fileId := (congrArg EntityKey.file (h.keyed.entities he)).symm
    have hcount : 0 < db.entityCount e.fileId := Table.count_pos he (decide_eq_true hfile)
    rw [hempty] at hcount
    cases hcount

theorem Evolves.ancestor (h : db.Evolves db') {n : Nat} {id : SyncId} {s : SyncRun}
    (hs : db.ancestor n id = some s) : ∃ s', db'.ancestor n id = some s' ∧ s.SameRun s' := by
  induction n generalizing id with
  | zero => exact h.syncs.kept hs
  | succ n ih =>
    obtain ⟨t, ht, hnext⟩ := Option.bind_eq_some_iff.1 hs
    obtain ⟨base, hbase, hs⟩ := Option.bind_eq_some_iff.1 hnext
    obtain ⟨t', ht', hsame⟩ := h.syncs.kept ht
    obtain ⟨s', hs', hend⟩ := ih hs
    refine ⟨s', ?_, hend⟩
    unfold Database.ancestor
    rw [ht', Option.bind_some, hsame.2.1, hbase, Option.bind_some]
    exact hs'

theorem integral_empty : empty.Integral where
  syncsKeyed := syncsKeyed_empty
  keyed := keyed_empty
  changesetsKeyed := Table.keyed_empty
  filesOwned := filesOwned_empty
  entityFile _ _ he := by cases he
  entityChangeset _ _ _ he := by cases he
  syncBase _ _ _ hs := by cases hs
  rooted _ hid := by cases hid

/-- The bases of a new sync lead to a root, for its own base does. -/
theorem Integral.new_rooted (h : db.Integral) (hstep : db.Evolves db') {id : SyncId} {s' : SyncRun}
    (hs' : db'.syncs.find? id = some s') (hnew : db.syncs.contains id = false) :
    ∃ n root, db'.ancestor n id = some root ∧ root.baseSyncId = none := by
  cases hbase : s'.baseSyncId with
  | none => exact ⟨0, s', hs', hbase⟩
  | some base =>
    obtain ⟨n, root, hroot, hend⟩ := h.rooted ((hstep.syncs.new hs' hnew).2 base hbase)
    obtain ⟨root', hroot', hsame⟩ := hstep.ancestor hroot
    refine ⟨n + 1, root', ?_, hsame.2.1.trans hend⟩
    unfold Database.ancestor
    rw [hs', Option.bind_some, hbase, Option.bind_some]
    exact hroot'

theorem Integral.evolves (h : db.Integral) (hstep : db.Evolves db') : db'.Integral := by
  constructor
  case syncsKeyed =>
    intro id s' hs'
    rcases db.syncs.found_or_free id with ⟨s, hs⟩ | hnew
    · exact (hstep.keepsIdentity.syncs hs hs').1.trans (h.syncsKeyed hs)
    · exact (hstep.syncs.new hs' hnew).1
  case keyed =>
    constructor
    · intro id f' hf'
      rcases db.files.found_or_free id with ⟨f, hf⟩ | hnew
      · exact (hstep.keepsIdentity.files hf hf').1.trans (h.keyed.files hf)
      · exact (hstep.files.new hf' hnew).1
    · intro k e' he'
      rcases db.entities.found_or_free k with ⟨e, he⟩ | hnew
      · exact (hstep.keepsIdentity.entities he he').trans (h.keyed.entities he)
      · exact (hstep.entities.new he' hnew).1
  case changesetsKeyed =>
    intro id c' hc'
    rcases db.changesets.found_or_free id with ⟨c, hc⟩ | hnew
    · cases (hstep.changesets.kept hc).symm.trans hc'
      exact h.changesetsKeyed hc
    · exact hstep.changesets.new hc' hnew
  case filesOwned =>
    intro id f' hf'
    rcases db.files.found_or_free id with ⟨f, hf⟩ | hnew
    · rw [(hstep.keepsIdentity.files hf hf').2]
      exact hstep.contains_sync (h.filesOwned hf)
    · exact hstep.contains_sync (hstep.files.new hf' hnew).2
  case entityFile =>
    intro k e' he'
    rcases db.entities.found_or_free k with ⟨e, he⟩ | hnew
    · have hfile : e'.fileId = e.fileId :=
        congrArg EntityKey.file (hstep.keepsIdentity.entities he he')
      obtain ⟨-, f', -, hf', -⟩ := h.file_stays hstep he
      rw [hfile]
      exact Table.contains_eq_true.2 ⟨f', hf'⟩
    · obtain ⟨-, hfile, hsame⟩ := hstep.entities.new he' hnew
      rw [hsame]
      exact hfile
  case entityChangeset =>
    intro k e' c he' hc
    rcases hstep.entities.changeset he' hc with ⟨e, he, hsame⟩ | hthere
    · exact hstep.contains_changeset (h.entityChangeset he hsame)
    · exact hstep.contains_changeset hthere
  case syncBase =>
    intro id s' base hs' hbase
    rcases db.syncs.found_or_free id with ⟨s, hs⟩ | hnew
    · rw [(hstep.keepsIdentity.syncs hs hs').2.1] at hbase
      exact hstep.contains_sync (h.syncBase hs hbase)
    · exact hstep.contains_sync ((hstep.syncs.new hs' hnew).2 base hbase)
  case rooted =>
    intro id hid
    rcases db.syncs.found_or_free id with ⟨s, hs⟩ | hnew
    · obtain ⟨n, root, hroot, hend⟩ := h.rooted (Table.contains_eq_true.2 ⟨s, hs⟩)
      obtain ⟨root', hroot', hsame⟩ := hstep.ancestor hroot
      exact ⟨n, root', hroot', hsame.2.1.trans hend⟩
    · obtain ⟨s', hs'⟩ := Table.contains_eq_true.1 hid
      exact h.new_rooted hstep hs' hnew

theorem preserved_integral : Preserved Integral :=
  fun _ _ _ _ _ h hok => h.evolves (apply_evolves h.keyed hok)

end Database

open Database in
/-- In every state of a run from the empty database the committed database and the one in progress
are integral. From one state to the next a call keeps what identifies the rows that stay, and nothing
else changes what is seen but a commit, a rollback or a start. What was committed of syncs and
entities is there in every later state. The trace in which this is read changes nothing and ends with
the state that the run leaves. -/
theorem every_state_integral {β : Type} (broker : Broker β) (transaction : TransactionConfig)
    (queue : QueueConfig) (w : World Session β) (activities : List Activity) :
    let run := plainRun broker transaction queue (w.withStore (.ofDatabase .empty)) activities
    let traced := tracedRun broker transaction queue
      (w.withStore (.fresh (.ofDatabase .empty))) activities
    let states := Session.ofDatabase .empty :: traced.2.store.states
    run = (traced.1, traced.2.withStore traced.2.store.state) ∧
      states.getLast? = some run.2.store ∧
      (∀ s ∈ states, s.committed.Integral ∧ s.visible.Integral) ∧
      states.IsChain (Session.Moves KeepsIdentity) ∧
      states.Pairwise fun s s' => s.committed.Retains s'.committed := by
  intro run traced states
  have hrun : run = (traced.1, traced.2.withStore traced.2.store.state) :=
    tracedRun_fresh broker transaction queue w (.ofDatabase .empty) activities
  have hidentity := tracedRun_moves broker transaction queue integral_empty preserved_integral
    KeepsIdentity.refl (fun h hok => (apply_evolves h.keyed hok).keepsIdentity) w activities
  have hretains := tracedRun_moves broker transaction queue integral_empty preserved_integral
    Retains.refl (fun h hok => (apply_evolves h.keyed hok).retains) w activities
  refine ⟨hrun, ?_, fun s hs => ?_, hidentity.chain, ?_⟩
  · rw [hrun]
    exact hidentity.last
  · have hkeeps := hidentity.holds s hs
    exact ⟨hkeeps.committed, hkeeps.visible⟩
  · exact Session.pairwise_committed Retains.refl Retains.trans (Retains.refl _) hretains.chain

end SyncCascade
