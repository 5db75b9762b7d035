import SyncCascade.Proofs.Store.Completion

/-!
# What a call makes of the rows

`Evolves db db'` says it table by table. What was there stays under its key with what identifies it;
a file alone may be lost, if it owned no entity. What is new stands under its own key, and what it
refers to was there before. The history changes only where entities are archived. Every call is such a
step, so what depends on no more than this is proved from `Evolves` and not call by call.
-/

namespace SyncCascade

/-- What never changes in the row of a sync. -/
def SyncRun.SameRun (s s' : SyncRun) : Prop :=
  s'.id = s.id ∧ s'.baseSyncId = s.baseSyncId ∧ s'.runNumber = s.runNumber

theorem SyncRun.SameRun.refl (s : SyncRun) : s.SameRun s := ⟨rfl, rfl, rfl⟩

theorem SyncRun.SameRun.trans {s s' s'' : SyncRun} (h : s.SameRun s') (h' : s'.SameRun s'') :
    s.SameRun s'' :=
  ⟨h'.1.trans h.1, h'.2.1.trans h.2.1, h'.2.2.trans h.2.2⟩

/-- The same run, in progress only if it was. -/
def SyncRun.Settles (s s' : SyncRun) : Prop :=
  s.SameRun s' ∧ (s'.status = .inProgress → s.status = .inProgress)

def File.SameFile (f f' : File) : Prop := f'.fileId = f.fileId ∧ f'.syncId = f.syncId

namespace Database

structure SyncsEvolve (db db' : Database) : Prop where
  kept : ∀ ⦃id s⦄, db.syncs.find? id = some s → ∃ s', db'.syncs.find? id = some s' ∧ s.SameRun s'
  /-- A new sync has a base that was there, if it has one. -/
  new : ∀ ⦃id s'⦄, db'.syncs.find? id = some s' → db.syncs.contains id = false →
    s'.id = id ∧ ∀ base, s'.baseSyncId = some base → db.syncs.contains base = true

structure FilesEvolve (db db' : Database) : Prop where
  kept : ∀ ⦃id f⦄, db.files.find? id = some f →
    (∃ f', db'.files.find? id = some f' ∧ f.SameFile f') ∨
      db'.files.find? id = none ∧ db.entityCount id = 0 ∧ db'.entities = db.entities
  new : ∀ ⦃id f'⦄, db'.files.find? id = some f' → db.files.contains id = false →
    f'.fileId = id ∧ db.syncs.contains f'.syncId = true

structure EntitiesEvolve (db db' : Database) : Prop where
  kept : ∀ ⦃k e⦄, db.entities.find? k = some e →
    ∃ e', db'.entities.find? k = some e' ∧ e'.key = e.key
  new : ∀ ⦃k e'⦄, db'.entities.find? k = some e' → db.entities.contains k = false →
    e'.key = k ∧ db.files.contains e'.fileId = true ∧ db'.files = db.files
  /-- An entity has the changeset that it had, or one that was there. -/
  changeset : ∀ ⦃k e' c⦄, db'.entities.find? k = some e' → e'.changesetId = some c →
    (∃ e, db.entities.find? k = some e ∧ e.changesetId = some c) ∨ db.changesets.contains c = true

structure ChangesetsEvolve (db db' : Database) : Prop where
  kept : ∀ ⦃id c⦄, db.changesets.find? id = some c → db'.changesets.find? id = some c
  new : ∀ ⦃id c'⦄, db'.changesets.find? id = some c' → db.changesets.contains id = false →
    c'.changesetId = id

def HistoryEvolves (db db' : Database) : Prop :=
  db'.history = db.history ∨ ∃ base rerun, db' = (db.archiveEntities base rerun).2

structure Evolves (db db' : Database) : Prop where
  syncs : SyncsEvolve db db'
  files : FilesEvolve db db'
  entities : EntitiesEvolve db db'
  changesets : ChangesetsEvolve db db'
  history : HistoryEvolves db db'

variable {db db' : Database} {now : Timestamp}

theorem SyncsEvolve.of_revised (h : db.syncs.Revised (fun _ s s' => s.SameRun s') db'.syncs) :
    SyncsEvolve db db' where
  kept _ _ hs := h.find? hs
  new _ _ hs' hnew := by
    obtain ⟨s, hs, -⟩ := h.find?_back hs'
    exact (Table.ne_of_free hnew hs rfl).elim

theorem SyncsEvolve.of_eq (h : db'.syncs = db.syncs) : SyncsEvolve db db' :=
  .of_revised (h ▸ .refl fun _ s _ => .refl s)

theorem revised_withCompleted (db : Database) (now : Timestamp) (id : SyncId) :
    db.syncs.Revised (fun _ s s' => s.Settles s') (db.withCompleted now id).syncs :=
  (Table.revised_modify db.syncs id (completeSync now)).mono fun _ s s' _ _ hstep => by
    subst hstep
    split
    · exact ⟨⟨rfl, rfl, rfl⟩, nofun⟩
    · exact ⟨.refl s, fun hopen => hopen⟩

theorem revised_total (db : Database) (id : SyncId) (f : Option Int32 → Option Int32) :
    db.syncs.Revised (fun _ s s' => s.SameRun s' ∧ s'.status = s.status)
      (db.syncs.modify id fun s => { s with totalFiles := f s.totalFiles }) :=
  (Table.revised_modify db.syncs id _).mono fun _ s s' _ _ hstep => by
    subst hstep
    split
    · exact ⟨⟨rfl, rfl, rfl⟩, rfl⟩
    · exact ⟨.refl s, rfl⟩

theorem revised_closing {id : SyncId} {closed : List SyncId} (h : Closing now db id closed db') :
    db.syncs.Revised (fun _ s s' => s.SameRun s') db'.syncs := by
  have hone : ∀ (db : Database) (id : SyncId),
      db.syncs.Revised (fun _ s s' => s.SameRun s') (db.withCompleted now id).syncs :=
    fun db id => (revised_withCompleted db now id).mono fun _ _ _ _ _ h => h.1
  cases h with
  | refused => exact .refl fun _ s _ => .refl s
  | alone => exact hone db id
  | withRerun => exact (hone db id).trans (hone _ _) fun _ _ _ _ _ _ h h' => h.trans h'

theorem insertSync_base {s : SyncRun} (h : db.insertSync s = .ok db') {base : SyncId}
    (hbase : s.baseSyncId = some base) : db.syncs.contains base = true := by
  unfold insertSync at h
  rw [hbase] at h
  dsimp only at h
  split at h
  next hthere => exact hthere
  next => cases h

theorem insertSync_syncsEvolve {s : SyncRun} (h : db.insertSync s = .ok db') :
    SyncsEvolve db db' := by
  have hbase := fun base (hb : s.baseSyncId = some base) => insertSync_base h hb
  obtain ⟨hfree, rfl⟩ := insertSync_eq_ok h
  constructor
  case kept =>
    intro id s₀ hs₀
    exact ⟨s₀, Table.find?_insert_of_free hfree hs₀, .refl s₀⟩
  case new =>
    intro id s' hs' hnew
    obtain ⟨hid, rfl⟩ := Table.eq_of_find?_insert hs' hnew
    exact ⟨hid.symm, hbase⟩

theorem FilesEvolve.of_revised (h : db.files.Revised (fun _ f f' => f.SameFile f') db'.files) :
    FilesEvolve db db' where
  kept _ _ hf := .inl (h.find? hf)
  new _ _ hf' hnew := by
    obtain ⟨f, hf, -⟩ := h.find?_back hf'
    exact (Table.ne_of_free hnew hf rfl).elim

theorem FilesEvolve.of_eq (h : db'.files = db.files) : FilesEvolve db db' :=
  .of_revised (h ▸ .refl fun _ _ _ => ⟨rfl, rfl⟩)

theorem insertFile_filesEvolve {f : File} (h : db.insertFile f = .ok db') : FilesEvolve db db' := by
  obtain ⟨howner, hfree, rfl⟩ := insertFile_eq_ok h
  constructor
  case kept =>
    intro id f₀ hf₀
    exact .inl ⟨f₀, Table.find?_insert_of_free hfree hf₀, rfl, rfl⟩
  case new =>
    intro id f' hf' hnew
    obtain ⟨hid, rfl⟩ := Table.eq_of_find?_insert hf' hnew
    exact ⟨hid.symm, howner⟩

theorem tryCloseFile_filesEvolve {id : FileId} {owner : Option SyncId}
    (h : FileClosing now db id owner db') : FilesEvolve db db' := by
  cases h with
  | refused => exact .of_eq rfl
  | closed =>
    refine .of_revised ((Table.revised_modify db.files id (completeFile now)).mono ?_)
    intro _ f f' _ _ hstep
    subst hstep
    split <;> exact ⟨rfl, rfl⟩

theorem reopenFiles_filesEvolve (db : Database) (sync : SyncId) :
    FilesEvolve db (db.reopenFiles sync).2 := by
  refine .of_revised
    ⟨fun _ f => if db.reopens sync f then reopenFile f else f, rfl, fun _ f _ => ?_⟩
  dsimp only
  split <;> exact ⟨rfl, rfl⟩

theorem deleteEmptyFiles_filesEvolve (hdb : db.Keyed) (sync : SyncId) :
    FilesEvolve db (db.deleteEmptyFiles sync).2 := by
  have hfind : ∀ id, (db.deleteEmptyFiles sync).2.files.find? id =
      (db.files.find? id).filter fun f => !db.isEmptyFileOf sync f :=
    fun id => Table.find?_filter ..
  constructor
  case kept =>
    intro id f hf
    have hf' := hfind id
    rw [hf] at hf'
    cases hempty : db.isEmptyFileOf sync f with
    | false =>
      rw [Option.filter_some, hempty] at hf'
      exact .inl ⟨f, hf', rfl, rfl⟩
    | true =>
      rw [Option.filter_some, hempty] at hf'
      rw [isEmptyFileOf_eq_bare] at hempty
      exact .inr ⟨hf', entityCount_of_bare hdb hf hempty, rfl⟩
  case new =>
    intro id f' hf' hnew
    rw [hfind] at hf'
    exact (Table.ne_of_free hnew (Option.filter_eq_some_iff.1 hf').1 rfl).elim

theorem EntitiesEvolve.of_revised
    (h : db.entities.Revised (fun _ e e' => e'.key = e.key ∧ ∀ c, e'.changesetId = some c →
      e.changesetId = some c ∨ db.changesets.contains c = true) db'.entities) :
    EntitiesEvolve db db' where
  kept _ _ he := by
    obtain ⟨e', he', hkey, -⟩ := h.find? he
    exact ⟨e', he', hkey⟩
  new _ _ he' hnew := by
    obtain ⟨e, he, -⟩ := h.find?_back he'
    exact (Table.ne_of_free hnew he rfl).elim
  changeset _ _ c he' hc := by
    obtain ⟨e, he, -, hchangeset⟩ := h.find?_back he'
    exact (hchangeset c hc).imp_left fun hsame => ⟨e, he, hsame⟩

theorem EntitiesEvolve.of_eq (h : db'.entities = db.entities) : EntitiesEvolve db db' :=
  .of_revised (h ▸ .refl fun _ _ _ => ⟨rfl, fun _ hc => .inl hc⟩)

theorem of_checkEntities {seen : List EntityKey} {es : List Entity}
    (h : db.checkEntities seen es = .ok ()) {e : Entity} (he : e ∈ es) :
    db.files.contains e.fileId = true ∧
      (∀ c, e.changesetId = some c → db.changesets.contains c = true) ∧
        db.entities.contains e.key = false := by
  induction es generalizing seen with
  | nil => cases he
  | cons e₀ rest ih =>
    unfold checkEntities at h
    split at h
    · cases h
    next hfile =>
      split at h
      · cases h
      next hchangeset =>
        split at h
        · cases h
        next hfree =>
          rcases List.mem_cons.1 he with rfl | he
          · rw [Option.filter_eq_none_iff] at hchangeset
            refine ⟨by simpa using hfile, fun c hc => by simpa using hchangeset c hc, ?_⟩
            simp only [Bool.or_eq_true, not_or, Bool.not_eq_true] at hfree
            exact hfree.1
          · exact ih h he

theorem find?_insertAll {t : Table EntityKey Entity} {es : List Entity} {k : EntityKey} {e' : Entity}
    (h : (es.foldl (fun t e => t.insert e.key e) t).find? k = some e') :
    t.find? k = some e' ∨ e' ∈ es ∧ e'.key = k := by
  induction es generalizing t with
  | nil => exact .inl h
  | cons e rest ih =>
    rcases ih h with hfound | ⟨hmem, hkey⟩
    · rw [Table.find?_insert] at hfound
      split at hfound
      next hk =>
        cases hfound
        exact .inr ⟨List.mem_cons_self, hk.symm⟩
      next => exact .inl hfound
    · exact .inr ⟨List.mem_cons_of_mem e hmem, hkey⟩

theorem find?_insertAll_of_ne {t : Table EntityKey Entity} {es : List Entity} {k : EntityKey}
    (h : ∀ e ∈ es, e.key ≠ k) : (es.foldl (fun t e => t.insert e.key e) t).find? k = t.find? k := by
  induction es generalizing t with
  | nil => rfl
  | cons e rest ih =>
    rw [List.foldl_cons, ih fun e' he' => h e' (List.mem_cons_of_mem e he'), Table.find?_insert,
      if_neg (h e List.mem_cons_self).symm]

theorem insertEntities_entitiesEvolve {es : List Entity} (h : db.insertEntities es = .ok db') :
    EntitiesEvolve db db' := by
  obtain ⟨hcheck, rfl⟩ := insertEntities_eq_ok h
  constructor
  case kept =>
    intro k e he
    refine ⟨e, ?_, rfl⟩
    rw [find?_insertAll_of_ne fun e' he' hk => ?_]
    · exact he
    · exact Table.ne_of_free (of_checkEntities hcheck he').2.2 he hk.symm
  case new =>
    intro k e' he' hnew
    rcases find?_insertAll he' with hold | ⟨hmem, hkey⟩
    · exact (Table.ne_of_free hnew hold rfl).elim
    · exact ⟨hkey, (of_checkEntities hcheck hmem).1, rfl⟩
  case changeset =>
    intro k e' c he' hc
    rcases find?_insertAll he' with hold | ⟨hmem, -⟩
    · exact .inl ⟨e', hold, hc⟩
    · exact .inr ((of_checkEntities hcheck hmem).2.1 c hc)

theorem patchEntity_entitiesEvolve {id : EntityId} {file : FileId} {p : EntityPatch}
    (h : db.patchEntity id file p = .ok db') : EntitiesEvolve db db' := by
  obtain ⟨hchangeset, -, rfl⟩ := patchEntity_eq_ok h
  refine .of_revised ((Table.revised_modify db.entities ⟨file, id⟩ p.apply).mono ?_)
  intro _ e e' _ _ hstep
  subst hstep
  split
  · refine ⟨rfl, fun c hc => ?_⟩
    rcases Option.or_eq_some_iff.1 hc with hpatch | ⟨-, hsame⟩
    · exact .inr (hchangeset c hpatch)
    · exact .inl hsame
  · exact ⟨rfl, fun _ hc => .inl hc⟩

theorem markCompleted_entitiesEvolve (db : Database) (ids : List ChangesetId) :
    EntitiesEvolve db (db.markCompleted ids).2 := by
  refine .of_revised
    ⟨fun _ e => if marks ids e then { e with status := .completed } else e, rfl, fun _ e _ => ?_⟩
  dsimp only
  split <;> exact ⟨rfl, fun _ hc => .inl hc⟩

theorem resetEntities_entitiesEvolve (db : Database) (sync : SyncId) :
    EntitiesEvolve db (db.resetEntities sync).2 := by
  refine .of_revised
    ⟨fun _ e => if db.resets sync e then resetEntity e else e, rfl, fun _ e _ => ?_⟩
  dsimp only
  split
  · exact ⟨rfl, nofun⟩
  · exact ⟨rfl, fun _ hc => .inl hc⟩

theorem ChangesetsEvolve.of_eq (h : db'.changesets = db.changesets) : ChangesetsEvolve db db' where
  kept _ _ hc := h ▸ hc
  new _ _ hc' hnew := (Table.ne_of_free hnew (h ▸ hc') rfl).elim

theorem insertChangeset_changesetsEvolve {c : Changeset} (h : db.insertChangeset c = .ok db') :
    ChangesetsEvolve db db' := by
  obtain ⟨hfree, rfl⟩ := insertChangeset_eq_ok h
  constructor
  case kept =>
    intro id c₀ hc₀
    exact Table.find?_insert_of_free hfree hc₀
  case new =>
    intro id c' hc' hnew
    obtain ⟨hid, rfl⟩ := Table.eq_of_find?_insert hc' hnew
    exact hid.symm

namespace Evolves

theorem refl (db : Database) : db.Evolves db :=
  ⟨.of_eq rfl, .of_eq rfl, .of_eq rfl, .of_eq rfl, .inl rfl⟩

theorem of_syncs (h : SyncsEvolve db db') (hfiles : db'.files = db.files)
    (hentities : db'.entities = db.entities) (hchangesets : db'.changesets = db.changesets)
    (hhistory : db'.history = db.history) : db.Evolves db' :=
  ⟨h, .of_eq hfiles, .of_eq hentities, .of_eq hchangesets, .inl hhistory⟩

theorem of_files (h : FilesEvolve db db') (hsyncs : db'.syncs = db.syncs)
    (hentities : db'.entities = db.entities) (hchangesets : db'.changesets = db.changesets)
    (hhistory : db'.history = db.history) : db.Evolves db' :=
  ⟨.of_eq hsyncs, h, .of_eq hentities, .of_eq hchangesets, .inl hhistory⟩

theorem of_entities (h : EntitiesEvolve db db') (hsyncs : db'.syncs = db.syncs)
    (hfiles : db'.files = db.files) (hchangesets : db'.changesets = db.changesets)
    (hhistory : db'.history = db.history) : db.Evolves db' :=
  ⟨.of_eq hsyncs, .of_eq hfiles, h, .of_eq hchangesets, .inl hhistory⟩

end Evolves

theorem closing_evolves {id : SyncId} {closed : List SyncId} (h : Closing now db id closed db') :
    db.Evolves db' := by
  have hsyncs := SyncsEvolve.of_revised (revised_closing h)
  cases h with
  | refused => exact .refl db
  | alone => exact .of_syncs hsyncs rfl rfl rfl rfl
  | withRerun => exact .of_syncs hsyncs rfl rfl rfl rfl

theorem fileClosing_evolves {id : FileId} {owner : Option SyncId}
    (h : FileClosing now db id owner db') : db.Evolves db' := by
  have hfiles := tryCloseFile_filesEvolve h
  cases h with
  | refused => exact .refl db
  | closed => exact .of_files hfiles rfl rfl rfl rfl

theorem apply_evolves {c : StoreCall} {reply : c.Reply} (hdb : db.Keyed)
    (h : db.apply now c = .ok (reply, db')) : db.Evolves db' := by
  cases c with
  | insertSync s =>
    have hok := eq_ok_of_map h
    have hsyncs := insertSync_syncsEvolve hok
    obtain ⟨-, rfl⟩ := insertSync_eq_ok hok
    exact .of_syncs hsyncs rfl rfl rfl rfl
  | tryCloseSync id =>
    have heq : db.tryCloseSync now id = (reply, db') := Except.ok.inj h
    exact closing_evolves (heq ▸ tryCloseSync_closing now db id)
  | decrementTotalFiles id n =>
    cases decrementTotalFiles_eq_ok (eq_ok_of_map h)
    exact .of_syncs (.of_revised ((revised_total db id _).mono fun _ _ _ _ _ h => h.1)) rfl rfl rfl rfl
  | insertFile f =>
    have hok := eq_ok_of_map h
    have hfiles := insertFile_filesEvolve hok
    obtain ⟨-, -, rfl⟩ := insertFile_eq_ok hok
    exact .of_files hfiles rfl rfl rfl rfl
  | tryCloseFile id =>
    have heq : db.tryCloseFile now id = (reply, db') := Except.ok.inj h
    exact fileClosing_evolves (heq ▸ tryCloseFile_closing now db id)
  | deleteEmptyFiles sync =>
    cases h
    exact .of_files (deleteEmptyFiles_filesEvolve hdb sync) rfl rfl rfl rfl
  | reopenFiles sync =>
    cases h
    exact .of_files (reopenFiles_filesEvolve db sync) rfl rfl rfl rfl
  | insertEntities es =>
    have hok := eq_ok_of_map h
    have hentities := insertEntities_entitiesEvolve hok
    obtain ⟨-, rfl⟩ := insertEntities_eq_ok hok
    exact .of_entities hentities rfl rfl rfl rfl
  | patchEntity id file p =>
    have hok := eq_ok_of_map h
    have hentities := patchEntity_entitiesEvolve hok
    obtain ⟨-, -, rfl⟩ := patchEntity_eq_ok hok
    exact .of_entities hentities rfl rfl rfl rfl
  | markCompleted ids =>
    cases h
    exact .of_entities (markCompleted_entitiesEvolve db ids) rfl rfl rfl rfl
  | resetEntities sync =>
    cases h
    exact .of_entities (resetEntities_entitiesEvolve db sync) rfl rfl rfl rfl
  | insertChangeset c =>
    have hok := eq_ok_of_map h
    have hchangesets := insertChangeset_changesetsEvolve hok
    obtain ⟨-, rfl⟩ := insertChangeset_eq_ok hok
    exact ⟨.of_eq rfl, .of_eq rfl, .of_eq rfl, hchangesets, .inl rfl⟩
  | archiveEntities base rerun =>
    cases h
    exact ⟨.of_eq rfl, .of_eq rfl, .of_eq rfl, .of_eq rfl, .inr ⟨base, rerun, rfl⟩⟩
  | findSync | latestRerun | findFile | findEntity | findFiles | findChangeset | history =>
    cases h
    exact .refl db

end Database

end SyncCascade
