import SyncCascade.Proofs.Store.Readiness

/-!
# Progress of a database

The cascade only completes what is open. `Advances ids db db'` tells what it may have completed on the
way from `db` to `db'`: entities of the changesets `ids`, files that are ready by the counts of `db'`,
and syncs that are ready themselves or as the latest rerun of a base that is. Such ways compose,
because counts only grow and no count exceeds its total. Where nothing is ready any more, the way has
ended in the one outcome that `Settled` describes.
-/

namespace SyncCascade

/-- Nothing but the status and the end differ. -/
def File.Continues (f f' : File) : Prop :=
  f' = { f with status := f'.status, endDate := f'.endDate }

def SyncRun.Continues (s s' : SyncRun) : Prop :=
  s' = { s with status := s'.status, endDate := s'.endDate }

theorem File.Continues.trans {f f' f'' : File} (h : f.Continues f') (h' : f'.Continues f'') :
    f.Continues f'' := by
  unfold Continues at *
  rw [h', h]

theorem SyncRun.Continues.trans {s s' s'' : SyncRun} (h : s.Continues s') (h' : s'.Continues s'') :
    s.Continues s'' := by
  unfold Continues at *
  rw [h', h]

namespace Database

def entityCount (db : Database) (file : FileId) : Nat :=
  db.entities.count fun k _ => decide (k.file = file)

def fileCount (db : Database) (sync : SyncId) : Nat :=
  db.files.count fun _ f => decide (f.syncId = sync)

/-- Totals are large enough for what is there, and reruns have roots as their bases. That a sync stands
under its own identifier holds of every database that calls make (`apply_closes`). -/
structure Planned (db : Database) : Prop where
  keyed : db.SyncsKeyed
  totalEntities : ∀ {id f total}, db.files.find? id = some f → f.totalEntities = some total →
    (db.entityCount id : Int) ≤ total.toInt
  totalFiles : ∀ {id s total}, db.syncs.find? id = some s → s.totalFiles = some total →
    (db.fileCount id : Int) ≤ total.toInt
  roots : ∀ {id s b base}, db.syncs.find? id = some s → s.baseSyncId = some b →
    db.syncs.find? b = some base → base.baseSyncId = none

theorem planned_of_entries {db : Database} (hkeyed : ∀ e ∈ db.syncs.entries, e.2.id = e.1)
    (hfiles : ∀ e ∈ db.files.entries,
      (e.2.totalEntities.all fun total => decide ((db.entityCount e.1 : Int) ≤ total.toInt)) = true)
    (hsyncs : ∀ e ∈ db.syncs.entries,
      (e.2.totalFiles.all fun total => decide ((db.fileCount e.1 : Int) ≤ total.toInt)) = true)
    (hroots : ∀ e ∈ db.syncs.entries, (e.2.baseSyncId.all fun b =>
      (db.syncs.find? b).all fun base => base.baseSyncId.isNone) = true) : db.Planned := by
  simp only [Option.all_eq_true, decide_eq_true_eq, Option.isNone_iff_eq_none] at hfiles hsyncs hroots
  constructor
  case keyed => exact fun _ _ hs => hkeyed _ ((Table.find?_eq_some_iff _ _ _).1 hs)
  case totalEntities =>
    intro id f total hf htotal
    exact hfiles _ ((Table.find?_eq_some_iff _ _ _).1 hf) _ htotal
  case totalFiles =>
    intro id s total hs htotal
    exact hsyncs _ ((Table.find?_eq_some_iff _ _ _).1 hs) _ htotal
  case roots =>
    intro id s b base hs hb hbase
    exact hroots _ ((Table.find?_eq_some_iff _ _ _).1 hs) _ hb _ hbase

/-- By the counts of `db'`, the sync or the base whose latest rerun it is was ready. -/
def SyncDue (db db' : Database) (id : SyncId) (s : SyncRun) : Prop :=
  db'.syncReady id s = true ∨
    s.status = .inProgress ∧ ∃ b base r, db.syncs.find? b = some base ∧
      db'.syncReady b base = true ∧ db.latestRerun b = some r ∧ r.id = id

structure Advances (ids : List ChangesetId) (db db' : Database) : Prop where
  entities : db.entities.Revised (fun _ e e' =>
    e' = e ∨ inChangesets ids e = true ∧ e' = { e with status := .completed }) db'.entities
  files : db.files.Revised (fun id f f' => f.Continues f' ∧
    (f'.status = f.status ∨ f'.status = .completed ∧ db'.fileReady id f = true)) db'.files
  syncs : db.syncs.Revised (fun id s s' => s.Continues s' ∧
    (s'.status = s.status ∨ s'.status = .completed ∧ db.SyncDue db' id s)) db'.syncs
  /-- With a base its latest rerun is closed, if it is in progress. -/
  reruns : ∀ {b base base' r r'}, db.syncs.find? b = some base → base.status ≠ .completed →
    db'.syncs.find? b = some base' → base'.status = .completed → db.latestRerun b = some r →
    db'.syncs.find? r.id = some r' → r'.status ≠ .inProgress

section Counts

variable {ids : List ChangesetId} {db db' : Database}

theorem Advances.entityCount_eq (h : Advances ids db db') (file : FileId) :
    db.entityCount file = db'.entityCount file :=
  h.entities.count_eq fun _ _ _ _ => rfl

theorem Advances.fileCount_eq (h : Advances ids db db') (sync : SyncId) :
    db.fileCount sync = db'.fileCount sync := by
  refine h.files.count_eq fun _ f f' ⟨hsame, _⟩ => ?_
  rw [hsame]

theorem Advances.resolvedCount_le (h : Advances ids db db') (file : FileId) :
    db.resolvedCount file ≤ db'.resolvedCount file := by
  refine h.entities.count_le fun k e e' hstep hp => ?_
  rcases hstep with rfl | ⟨-, rfl⟩
  · exact hp
  · rw [Bool.and_eq_true] at hp ⊢
    exact ⟨hp.1, rfl⟩

theorem Advances.completedCount_le (h : Advances ids db db') (sync : SyncId) :
    db.completedCount sync ≤ db'.completedCount sync := by
  refine h.files.count_le fun _ f f' hstep hp => ?_
  obtain ⟨hsame, hstatus⟩ := hstep
  rw [Bool.and_eq_true, decide_eq_true_eq, decide_eq_true_eq] at hp ⊢
  refine ⟨by rw [hsame]; exact hp.1, ?_⟩
  rcases hstatus with hstatus | ⟨hstatus, -⟩
  · rw [hstatus, hp.2]
  · exact hstatus

theorem resolvedCount_le_entityCount (db : Database) (file : FileId) :
    db.resolvedCount file ≤ db.entityCount file := by
  refine Table.count_mono fun k e _ hp => ?_
  rw [Bool.and_eq_true] at hp
  exact hp.1

theorem completedCount_le_fileCount (db : Database) (sync : SyncId) :
    db.completedCount sync ≤ db.fileCount sync := by
  refine Table.count_mono fun k f _ hp => ?_
  rw [Bool.and_eq_true] at hp
  exact hp.1

/-- A total that was reached stays reached, if the count cannot exceed it. -/
theorem total_eq_of_le {total : Option Int32} {m n : Nat} (hmn : m ≤ n)
    (hbound : ∀ t, total = some t → (n : Int) ≤ t.toInt)
    (h : total.map Int32.toInt = some (m : Int)) : total.map Int32.toInt = some (n : Int) := by
  obtain ⟨t, rfl, ht⟩ := Option.map_eq_some_iff.1 h
  have hle := hbound t rfl
  have heq : t.toInt = n := by omega
  rw [Option.map_some, heq]

theorem total_eq_of_ofNat {total : Option Int32} {n : Nat}
    (hbound : ∀ t, total = some t → (n : Int) ≤ t.toInt) (h : total = some (Int32.ofNat n)) :
    total.map Int32.toInt = some (n : Int) := by
  have hle := hbound _ h
  have hlt : n < 2 ^ 31 := by
    have := Int32.toInt_lt (Int32.ofNat n)
    omega
  rw [h, Option.map_some, Int32.toInt_ofNat_of_lt hlt]

end Counts

section Readiness

variable {ids : List ChangesetId} {db db' db'' : Database}

/-- Between two states on the way from `db`, a file stays ready by its row in `db`. -/
theorem fileReady_mono (hdb : db.Planned) (h' : Advances ids db' db'') {id : FileId} {f : File}
    (hf : db.files.find? id = some f) (hcount : db.entityCount id = db'.entityCount id)
    (hready : db'.fileReady id f = true) : db''.fileReady id f = true := by
  unfold fileReady at hready ⊢
  rw [Bool.and_eq_true, decide_eq_true_eq, decide_eq_true_eq] at hready ⊢
  refine ⟨hready.1, total_eq_of_le (h'.resolvedCount_le id) (fun t ht => ?_) hready.2⟩
  have hle := resolvedCount_le_entityCount db'' id
  have htotal := hdb.totalEntities hf ht
  rw [← h'.entityCount_eq, ← hcount] at hle
  omega

theorem syncReady_mono (hdb : db.Planned) (h' : Advances ids db' db'') {id : SyncId} {s : SyncRun}
    (hs : db.syncs.find? id = some s) (hcount : db.fileCount id = db'.fileCount id)
    (hready : db'.syncReady id s = true) : db''.syncReady id s = true := by
  unfold syncReady at hready ⊢
  rw [Bool.and_eq_true, decide_eq_true_eq] at hready ⊢
  refine ⟨hready.1, total_eq_of_le (h'.completedCount_le id) (fun t ht => ?_) hready.2⟩
  have hle := completedCount_le_fileCount db'' id
  have htotal := hdb.totalFiles hs ht
  rw [← h'.fileCount_eq, ← hcount] at hle
  omega

theorem fileReady_of_continues {f f' : File} (h : f.Continues f') (hstatus : f'.status = f.status)
    (id : FileId) : db.fileReady id f' = db.fileReady id f := by
  unfold fileReady
  rw [h, hstatus]

theorem syncReady_of_continues {s s' : SyncRun} (h : s.Continues s') (hstatus : s'.status = s.status)
    (id : SyncId) : db.syncReady id s' = db.syncReady id s := by
  unfold syncReady
  rw [h, hstatus]

theorem open_of_syncReady {id : SyncId} {s : SyncRun} (h : db.syncReady id s = true) :
    s.status ≠ .completed := by
  unfold syncReady at h
  rw [Bool.and_eq_true] at h
  exact ne_completed_of_isClosable h.1

end Readiness

theorem laterRun_continues {best best' : Option SyncRun}
    (hbest : Option.Rel SyncRun.Continues best best') {s s' : SyncRun} (h : s.Continues s') :
    Option.Rel SyncRun.Continues (laterRun best s) (laterRun best' s') := by
  cases hbest with
  | none => exact .some h
  | @some b b' hb =>
    have hb' : b'.runNumber = b.runNumber := by rw [hb]
    have hs' : s'.runNumber = s.runNumber := by rw [h]
    unfold laterRun
    dsimp only
    rw [hb', hs']
    split
    · exact .some h
    · exact .some hb

/-- The scans of both tables run side by side. -/
theorem foldl_laterRun_continues {es : List (SyncId × SyncRun)} {g : SyncId → SyncRun → SyncRun}
    (hg : ∀ k s, (k, s) ∈ es → s.Continues (g k s)) (b : SyncId) {best best' : Option SyncRun}
    (hbest : Option.Rel SyncRun.Continues best best') :
    Option.Rel SyncRun.Continues
      (((es.map Prod.snd).filter fun s => s.baseSyncId = some b).foldl laterRun best)
      (((es.map fun e => g e.1 e.2).filter fun s => s.baseSyncId = some b).foldl laterRun best') := by
  induction es generalizing best best' with
  | nil => exact hbest
  | cons e rest ih =>
    have hrest := fun k s hks => hg k s (List.mem_cons_of_mem _ hks)
    have hhead : e.2.Continues (g e.1 e.2) := hg e.1 e.2 List.mem_cons_self
    have hbase : (g e.1 e.2).baseSyncId = e.2.baseSyncId := by rw [hhead]
    rw [List.map_cons, List.map_cons]
    by_cases hb : e.2.baseSyncId = some b
    · rw [List.filter_cons_of_pos (by simpa using hb),
        List.filter_cons_of_pos (by simpa [hbase] using hb)]
      exact ih hrest (laterRun_continues hbest hhead)
    · rw [List.filter_cons_of_neg (by simpa using hb),
        List.filter_cons_of_neg (by simpa [hbase] using hb)]
      exact ih hrest hbest

theorem latestRerun_continues {db db' : Database}
    (h : db.syncs.Revised (fun _ s s' => s.Continues s') db'.syncs) (b : SyncId) :
    Option.Rel SyncRun.Continues (db.latestRerun b) (db'.latestRerun b) := by
  obtain ⟨g, hg, hcontinues⟩ := h
  unfold latestRerun rerunsOf Table.rows
  rw [hg, Table.mapRows, List.map_map]
  refine foldl_laterRun_continues (fun k s hks => ?_) b .none
  exact hcontinues k s ((Table.find?_eq_some_iff _ _ _).2 hks)

theorem latestRerun_id {db db' : Database}
    (h : db.syncs.Revised (fun _ s s' => s.Continues s') db'.syncs) (b : SyncId) :
    (db'.latestRerun b).map SyncRun.id = (db.latestRerun b).map SyncRun.id := by
  have hrel := latestRerun_continues h b
  generalize db.latestRerun b = best at hrel ⊢
  generalize db'.latestRerun b = best' at hrel ⊢
  cases hrel with
  | none => rfl
  | @some r r' hr =>
    have hid : r'.id = r.id := by rw [hr]
    exact congrArg some hid

theorem Advances.latestRerun_id {ids : List ChangesetId} {db db' : Database}
    (h : Advances ids db db') (b : SyncId) :
    (db'.latestRerun b).map SyncRun.id = (db.latestRerun b).map SyncRun.id :=
  Database.latestRerun_id (h.syncs.mono fun _ _ _ _ _ hs => hs.1) b

section Compose

variable {ids : List ChangesetId} {db db' db'' : Database}

theorem Advances.refl (ids : List ChangesetId) (db : Database) : Advances ids db db where
  entities := .refl fun _ _ _ => .inl rfl
  files := .refl fun _ _ _ => ⟨rfl, .inl rfl⟩
  syncs := .refl fun _ _ _ => ⟨rfl, .inl rfl⟩
  reruns hbase hopen hbase' hdone := by
    rw [hbase] at hbase'
    cases hbase'
    exact absurd hdone hopen

/-- What a base of `db` is due by later counts, it is due by all still later ones. -/
theorem syncDue_mono (hdb : db.Planned) (h : Advances ids db db') (h' : Advances ids db' db'')
    {id : SyncId} {s : SyncRun} (hs : db.syncs.find? id = some s) (hdue : db.SyncDue db' id s) :
    db.SyncDue db'' id s := by
  rcases hdue with hready | ⟨hopen, b, base, r, hbase, hready, hr, hid⟩
  · exact .inl (syncReady_mono hdb h' hs (h.fileCount_eq id) hready)
  · have hready' := syncReady_mono hdb h' hbase (h.fileCount_eq b) hready
    exact .inr ⟨hopen, b, base, r, hbase, hready', hr, hid⟩

/-- What is due by its row in `db'` was due by its row in `db`, as long as it was not completed. -/
theorem syncDue_back (h : Advances ids db db') {id : SyncId} {s s' : SyncRun}
    (hsame : s.Continues s') (hstatus : s'.status = s.status) (hdue : db'.SyncDue db'' id s') :
    db.SyncDue db'' id s := by
  rcases hdue with hready | ⟨hopen, b, base', r', hbase', hready, hr', hid⟩
  · exact .inl (syncReady_of_continues hsame hstatus id ▸ hready)
  · obtain ⟨base, hbase, hcontinues, hbasestatus⟩ := h.syncs.find?_back hbase'
    have hlatest := h.latestRerun_id b
    rw [hr', Option.map_some] at hlatest
    obtain ⟨r, hr, hrid⟩ := Option.map_eq_some_iff.1 hlatest.symm
    rcases hbasestatus with hbasestatus | ⟨hdone, -⟩
    · rw [syncReady_of_continues hcontinues hbasestatus] at hready
      exact .inr ⟨hstatus ▸ hopen, b, base, r, hbase, hready, hr, hrid.trans hid⟩
    · exact absurd hdone (open_of_syncReady hready)

theorem Advances.trans (hdb : db.Planned) (h : Advances ids db db') (h' : Advances ids db' db'') :
    Advances ids db db'' := by
  constructor
  case entities =>
    refine h.entities.trans h'.entities fun k e e' e'' _ _ he he' => ?_
    rcases he with rfl | ⟨hin, rfl⟩
    · exact he'
    · rcases he' with rfl | ⟨-, rfl⟩
      · exact .inr ⟨hin, rfl⟩
      · exact .inr ⟨hin, rfl⟩
  case files =>
    refine h.files.trans h'.files fun id f f' f'' hf _ ⟨hsame, hstatus⟩ ⟨hsame', hstatus'⟩ => ?_
    refine ⟨hsame.trans hsame', ?_⟩
    rcases hstatus with hstatus | ⟨hdone, hready⟩
    · rcases hstatus' with hstatus' | ⟨hdone', hready'⟩
      · exact .inl (hstatus'.trans hstatus)
      · exact .inr ⟨hdone', fileReady_of_continues hsame hstatus id ▸ hready'⟩
    · refine .inr ⟨?_, fileReady_mono hdb h' hf (h.entityCount_eq id) hready⟩
      rcases hstatus' with hstatus' | ⟨hdone', -⟩
      · exact hstatus'.trans hdone
      · exact hdone'
  case syncs =>
    refine h.syncs.trans h'.syncs fun id s s' s'' hs _ ⟨hsame, hstatus⟩ ⟨hsame', hstatus'⟩ => ?_
    refine ⟨hsame.trans hsame', ?_⟩
    rcases hstatus with hstatus | ⟨hdone, hdue⟩
    · rcases hstatus' with hstatus' | ⟨hdone', hdue'⟩
      · exact .inl (hstatus'.trans hstatus)
      · exact .inr ⟨hdone', syncDue_back h hsame hstatus hdue'⟩
    · refine .inr ⟨?_, syncDue_mono hdb h h' hs hdue⟩
      rcases hstatus' with hstatus' | ⟨hdone', -⟩
      · exact hstatus'.trans hdone
      · exact hdone'
  case reruns =>
    intro b base base'' r r'' hbase hopen hbase'' hdone hr hr''
    obtain ⟨base', hbase', hcontinues, hbasestatus⟩ := h.syncs.find? hbase
    obtain ⟨r', hr', -, hrstatus⟩ := h'.syncs.find?_back hr''
    by_cases hdone' : base'.status = .completed
    · have hclosed := h.reruns hbase hopen hbase' hdone' hr hr'
      rcases hrstatus with hrstatus | ⟨hrdone, -⟩
      · rwa [hrstatus]
      · rw [hrdone]
        decide
    · have hlatest := h.latestRerun_id b
      rw [hr, Option.map_some] at hlatest
      obtain ⟨r₁, hr₁, hid⟩ := Option.map_eq_some_iff.1 hlatest
      exact h'.reruns hbase' hdone' hbase'' hdone hr₁ (hid ▸ hr'')

theorem Advances.planned (hdb : db.Planned) (h : Advances ids db db') : db'.Planned := by
  constructor
  case keyed =>
    intro id s' hs'
    obtain ⟨s, hs, hsame, -⟩ := h.syncs.find?_back hs'
    rw [hsame]
    exact hdb.keyed (s := s) hs
  case totalEntities =>
    intro id f' total hf' htotal
    obtain ⟨f, hf, hsame, -⟩ := h.files.find?_back hf'
    rw [hsame] at htotal
    rw [← h.entityCount_eq]
    exact hdb.totalEntities hf htotal
  case totalFiles =>
    intro id s' total hs' htotal
    obtain ⟨s, hs, hsame, -⟩ := h.syncs.find?_back hs'
    rw [hsame] at htotal
    rw [← h.fileCount_eq]
    exact hdb.totalFiles hs htotal
  case roots =>
    intro id s' b base' hs' hb hbase'
    obtain ⟨s, hs, hsame, -⟩ := h.syncs.find?_back hs'
    obtain ⟨base, hbase, hbasesame, -⟩ := h.syncs.find?_back hbase'
    rw [hsame] at hb
    have hroot : base.baseSyncId = none := hdb.roots hs hb hbase
    rw [hbasesame]
    exact hroot

end Compose

end Database

end SyncCascade
