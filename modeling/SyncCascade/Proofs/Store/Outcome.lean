import SyncCascade.Proofs.Store.Progress

/-!
# The outcome of the cascade

Whatever the cascade does to a database advances it. Where nothing is ready and the entities of the
pushed changesets are completed, the statuses are those that `Settled` describes, and these depend on
nothing but the database at the start and the set of the changesets.
-/

namespace SyncCascade.Database

section Calls

variable {ids : List ChangesetId} {db db' : Database} {now : Timestamp}

/-- Without closing a sync, no rerun can be left behind. -/
theorem reruns_of_syncs_eq (hsyncs : db'.syncs = db.syncs) {b : SyncId} {base base' : SyncRun}
    (hbase : db.syncs.find? b = some base) (hopen : base.status ≠ .completed)
    (hbase' : db'.syncs.find? b = some base') : base'.status ≠ .completed := by
  rw [hsyncs, hbase] at hbase'
  cases hbase'
  exact hopen

theorem inChangesets_iff {e : Entity} :
    inChangesets ids e = true ↔ ∃ c ∈ ids, e.changesetId = some c := by
  unfold inChangesets
  cases e.changesetId with
  | none => simp
  | some c => simp

theorem markCompleted_advances (db : Database) {ids' : List ChangesetId}
    (hids : ∀ c ∈ ids', c ∈ ids) : Advances ids db (db.markCompleted ids').2 where
  entities := by
    refine ⟨fun _ e => if marks ids' e then { e with status := .completed } else e, rfl,
      fun k e _ => ?_⟩
    by_cases hmarks : marks ids' e = true
    · refine .inr ⟨?_, if_pos hmarks⟩
      unfold marks at hmarks
      rw [Bool.and_eq_true] at hmarks
      obtain ⟨c, hc, he⟩ := inChangesets_iff.1 hmarks.1
      exact inChangesets_iff.2 ⟨c, hids c hc, he⟩
    · exact .inl (if_neg hmarks)
  files := .refl fun _ _ _ => ⟨rfl, .inl rfl⟩
  syncs := .refl fun _ _ _ => ⟨rfl, .inl rfl⟩
  reruns hbase hopen hbase' hdone := absurd hdone (reruns_of_syncs_eq rfl hbase hopen hbase')

theorem fileReady_of_fileCloses (hdb : db.Planned) {id : FileId} {f : File}
    (hf : db.files.find? id = some f) (h : db.fileCloses id f = true) : db.fileReady id f = true := by
  unfold fileCloses at h
  unfold fileReady
  rw [Bool.and_eq_true, beq_iff_eq, beq_iff_eq] at h
  rw [Bool.and_eq_true, decide_eq_true_eq, decide_eq_true_eq]
  refine ⟨h.1, total_eq_of_ofNat (fun t ht => ?_) (resolvedEntities_eq db id ▸ h.2)⟩
  have hle := resolvedCount_le_entityCount db id
  have htotal := hdb.totalEntities hf ht
  omega

theorem syncReady_of_syncCloses (hdb : db.Planned) {id : SyncId} {s : SyncRun}
    (hs : db.syncs.find? id = some s) (h : db.syncCloses id s = true) :
    db.syncReady id s = true := by
  have hcount : db.completedFiles id = db.completedCount id := completedFiles_eq db id
  unfold syncCloses at h
  unfold syncReady
  rw [Bool.and_eq_true, beq_iff_eq] at h
  rw [Bool.and_eq_true, decide_eq_true_eq]
  refine ⟨h.1, total_eq_of_ofNat (fun t ht => ?_) (hcount ▸ h.2)⟩
  have hle := completedCount_le_fileCount db id
  have htotal := hdb.totalFiles hs ht
  omega

theorem tryCloseFile_advances (hdb : db.Planned) (ids : List ChangesetId) {id : FileId}
    {owner : Option SyncId} (h : FileClosing now db id owner db') : Advances ids db db' := by
  cases h with
  | refused => exact .refl ids db
  | @closed f hf hcloses =>
    constructor
    case entities => exact .refl fun _ _ _ => .inl rfl
    case files =>
      refine (Table.revised_modify db.files id (completeFile now)).mono fun k f' f'' hf' _ hstep => ?_
      by_cases hk : k = id
      · rw [if_pos hk] at hstep
        subst hk hstep
        rw [hf] at hf'
        cases hf'
        exact ⟨rfl, .inr ⟨rfl, fileReady_of_fileCloses hdb hf hcloses⟩⟩
      · rw [if_neg hk] at hstep
        subst hstep
        exact ⟨rfl, .inl rfl⟩
    case syncs => exact .refl fun _ _ _ => ⟨rfl, .inl rfl⟩
    case reruns =>
      intro b base base' r r' hbase hopen hbase' hdone
      exact absurd hdone (reruns_of_syncs_eq rfl hbase hopen hbase')

theorem withCompleted_revised (db : Database) (now : Timestamp) (id : SyncId) :
    db.syncs.Revised (fun k s s' => s' = if k = id then completeSync now s else s)
      (db.withCompleted now id).syncs :=
  Table.revised_modify db.syncs id (completeSync now)

theorem withCompleted_continues (db : Database) (now : Timestamp) (id : SyncId) :
    db.syncs.Revised (fun _ s s' => s.Continues s') (db.withCompleted now id).syncs := by
  refine (withCompleted_revised db now id).mono fun k s s' _ _ hstep => ?_
  split at hstep
  · rw [hstep]
    rfl
  · rw [hstep]
    rfl

theorem latestRerun_base {b : SyncId} {r : SyncRun} (h : db.latestRerun b = some r) :
    r.baseSyncId = some b := by
  simpa using (List.mem_filter.1 (latestRerun_mem h)).2

theorem find?_latestRerun (hdb : db.SyncsKeyed) {b : SyncId} {r : SyncRun}
    (h : db.latestRerun b = some r) : db.syncs.find? r.id = some r :=
  find?_of_mem_rerunsOf hdb (latestRerun_mem h)

theorem latestRerun_withCompleted (now : Timestamp) (id : SyncId) {b : SyncId} {r : SyncRun}
    (hr : db.latestRerun b = some r) :
    ∃ r', (db.withCompleted now id).latestRerun b = some r' ∧ r'.id = r.id := by
  have hlatest := latestRerun_id (withCompleted_continues db now id) b
  rw [hr, Option.map_some] at hlatest
  exact Option.map_eq_some_iff.1 hlatest

theorem latestRerun_withCompleted_back {id b : SyncId} {r' : SyncRun}
    (hr' : (db.withCompleted now id).latestRerun b = some r') :
    ∃ r, db.latestRerun b = some r ∧ r.id = r'.id := by
  have hlatest := latestRerun_id (withCompleted_continues db now id) b
  rw [hr', Option.map_some] at hlatest
  exact Option.map_eq_some_iff.1 hlatest.symm

theorem closing_alone_advances (hdb : db.Planned) (ids : List ChangesetId) {id : SyncId}
    {s : SyncRun} (hs : db.syncs.find? id = some s) (hcloses : db.syncCloses id s = true)
    (hlatest : ∀ r, (db.withCompleted now id).latestRerun id = some r → r.status ≠ .inProgress) :
    Advances ids db (db.withCompleted now id) := by
  constructor
  case entities => exact .refl fun _ _ _ => .inl rfl
  case files => exact .refl fun _ _ _ => ⟨rfl, .inl rfl⟩
  case syncs =>
    refine (withCompleted_revised db now id).mono fun k s' s'' hs' _ hstep => ?_
    by_cases hk : k = id
    · rw [if_pos hk] at hstep
      subst hk hstep
      rw [hs] at hs'
      cases hs'
      exact ⟨rfl, .inr ⟨rfl, .inl (syncReady_of_syncCloses hdb hs hcloses)⟩⟩
    · rw [if_neg hk] at hstep
      subst hstep
      exact ⟨rfl, .inl rfl⟩
  case reruns =>
    intro b base base' r r' hbase hopen hbase' hdone hr hr'
    by_cases hb : b = id
    · subst hb
      obtain ⟨r₁, hr₁, hid⟩ := latestRerun_withCompleted now b hr
      have hfind := find?_latestRerun (withCompleted_syncsKeyed hdb.keyed now b) hr₁
      rw [hid, hr'] at hfind
      cases hfind
      exact hlatest _ hr₁
    · rw [find?_withCompleted, if_neg hb, hbase] at hbase'
      cases hbase'
      exact absurd hdone hopen

theorem closing_withRerun_advances (hdb : db.Planned) (ids : List ChangesetId) {id : SyncId}
    {s r : SyncRun} (hs : db.syncs.find? id = some s) (hcloses : db.syncCloses id s = true)
    (hlatest : (db.withCompleted now id).latestRerun id = some r) (hopen : r.status = .inProgress) :
    Advances ids db ((db.withCompleted now id).withCompleted now r.id) := by
  have hready := syncReady_of_syncCloses hdb hs hcloses
  have hmid := find?_latestRerun (withCompleted_syncsKeyed hdb.keyed now id) hlatest
  have hne : r.id ≠ id := by
    intro heq
    rw [heq, find?_withCompleted, if_pos rfl, hs, Option.map_some] at hmid
    cases hmid
    cases hopen
  have hr : db.syncs.find? r.id = some r := by rwa [find?_withCompleted, if_neg hne] at hmid
  obtain ⟨r₀, hr₀, hid⟩ := latestRerun_withCompleted_back hlatest
  constructor
  case entities => exact .refl fun _ _ _ => .inl rfl
  case files => exact .refl fun _ _ _ => ⟨rfl, .inl rfl⟩
  case syncs =>
    have hfirst := withCompleted_revised db now id
    have hsecond := withCompleted_revised (db.withCompleted now id) now r.id
    refine hfirst.trans hsecond fun k s₀ s₁ s₂ hs₀ _ h₁ h₂ => ?_
    by_cases hk : k = r.id
    · subst hk
      rw [if_neg hne] at h₁
      rw [if_pos rfl] at h₂
      subst h₁ h₂
      rw [hr] at hs₀
      cases hs₀
      exact ⟨rfl, .inr ⟨rfl, .inr ⟨hopen, id, s, r₀, hs, hready, hr₀, hid⟩⟩⟩
    · rw [if_neg hk] at h₂
      subst h₂
      by_cases hk' : k = id
      · rw [if_pos hk'] at h₁
        subst hk' h₁
        rw [hs] at hs₀
        cases hs₀
        exact ⟨rfl, .inr ⟨rfl, .inl hready⟩⟩
      · rw [if_neg hk'] at h₁
        subst h₁
        exact ⟨rfl, .inl rfl⟩
  case reruns =>
    intro b base base' r₁ r' hbase hbaseopen hbase' hdone hr₁ hr'
    by_cases hb : b = id
    · subst hb
      rw [hr₀] at hr₁
      cases hr₁
      rw [hid, find?_withCompleted, if_pos rfl, hmid, Option.map_some] at hr'
      cases hr'
      exact nofun
    · by_cases hb' : b = r.id
      · -- A rerun is no base of others.
        subst hb'
        have hroot := hdb.roots (find?_latestRerun hdb.keyed hr₁) (latestRerun_base hr₁) hr
        rw [latestRerun_base hlatest] at hroot
        cases hroot
      · rw [find?_withCompleted, if_neg hb', find?_withCompleted, if_neg hb, hbase] at hbase'
        cases hbase'
        exact absurd hdone hbaseopen

theorem tryCloseSync_advances (hdb : db.Planned) (ids : List ChangesetId) {id : SyncId}
    {closed : List SyncId} (h : Closing now db id closed db') : Advances ids db db' := by
  cases h with
  | refused => exact .refl ids db
  | alone hs hcloses hlatest => exact closing_alone_advances hdb ids hs hcloses hlatest
  | withRerun hs hcloses hlatest hopen =>
    exact closing_withRerun_advances hdb ids hs hcloses hlatest hopen

end Calls

def Finished (db : Database) (c : ChangesetId) : Prop :=
  ∀ k e, db.entities.find? k = some e → e.changesetId = some c → e.status = .completed

section Finishing

variable {ids ids' : List ChangesetId} {db db' : Database} {c : ChangesetId}

theorem Advances.finished (h : Advances ids db db') (hc : db.Finished c) : db'.Finished c := by
  intro k e' he' hchangeset
  obtain ⟨e, he, hstep⟩ := h.entities.find?_back he'
  rcases hstep with rfl | ⟨-, rfl⟩
  · exact hc k e' he hchangeset
  · rfl

theorem finished_of_entities_eq (h : db'.entities = db.entities) (hc : db.Finished c) :
    db'.Finished c := by
  unfold Finished
  rw [h]
  exact hc

theorem finished_markCompleted (db : Database) (hc : c ∈ ids) :
    (db.markCompleted ids).2.Finished c := by
  intro k e' he' hchangeset
  unfold markCompleted at he'
  rw [Table.find?_mapRows] at he'
  obtain ⟨e, -, rfl⟩ := Option.map_eq_some_iff.1 he'
  by_cases hmarks : marks ids e = true
  · rw [if_pos hmarks]
  · rw [if_neg hmarks] at hchangeset ⊢
    have hin : inChangesets ids e = true := inChangesets_iff.2 ⟨c, hc, hchangeset⟩
    unfold marks at hmarks
    simpa [hin] using hmarks

theorem Advances.mono (h : Advances ids db db') (hids : ∀ c ∈ ids, c ∈ ids') :
    Advances ids' db db' where
  entities := h.entities.mono fun k e e' _ _ hstep => hstep.imp_right fun ⟨hin, he'⟩ => by
    obtain ⟨c, hc, hchangeset⟩ := inChangesets_iff.1 hin
    exact ⟨inChangesets_iff.2 ⟨c, hids c hc, hchangeset⟩, he'⟩
  files := h.files
  syncs := h.syncs
  reruns := h.reruns

end Finishing

/-- The status is `done` if that was due, and otherwise as before. -/
def Turns {α : Type} (done : α) (due : Prop) (old new : α) : Prop :=
  (due → new = done) ∧ (¬ due → new = old)

theorem Turns.unique {α : Type} {done old new new' : α} {due due' : Prop}
    (h : Turns done due old new) (h' : Turns done due' old new') (hdue : due ↔ due') :
    new = new' := by
  by_cases hd : due
  · rw [h.1 hd, h'.1 (hdue.1 hd)]
  · rw [h.2 hd, h'.2 fun hd' => hd (hdue.2 hd')]

/-- `db'` is `db` except for what is completed: the entities of the changesets `ids`; the files that
were in progress and declare as many entities as are resolved now; the syncs that were open and
declare as many files as are completed now; and the syncs in progress that are the latest rerun of
such a sync. -/
structure Settled (ids : List ChangesetId) (db db' : Database) : Prop where
  entities : db.entities.Revised (fun _ e e' => e' = { e with status := e'.status } ∧
    Turns .completed (inChangesets ids e = true) e.status e'.status) db'.entities
  files : db.files.Revised (fun id f f' => f.Continues f' ∧
    Turns .completed (db'.fileReady id f = true) f.status f'.status) db'.files
  syncs : db.syncs.Revised (fun id s s' => s.Continues s' ∧
    Turns .completed (db.SyncDue db' id s) s.status s'.status) db'.syncs

/-- Every entity, file and sync has the same status in both. -/
structure SameStatuses (db db' : Database) : Prop where
  entities : ∀ k, (db.entities.find? k).map Entity.status = (db'.entities.find? k).map Entity.status
  files : ∀ id, (db.files.find? id).map File.status = (db'.files.find? id).map File.status
  syncs : ∀ id, (db.syncs.find? id).map SyncRun.status = (db'.syncs.find? id).map SyncRun.status

section Settling

variable {ids ids' : List ChangesetId} {db db' db₁ db₂ : Database}

/-- Where nothing is ready any more and the changesets are done, the way has reached the outcome. -/
theorem settled_of_advances (h : Advances ids db db') (hfiles : ∀ file, ¬ db'.ReadyFile file)
    (hsyncs : ∀ sync, ¬ db'.ReadySync sync)
    (hdone : ∀ c ∈ ids, db'.Finished c) : Settled ids db db' := by
  have hclosed : ∀ {id s s'}, db'.syncs.find? id = some s' → s.Continues s' →
      db'.syncReady id s = true → s'.status ≠ s.status := by
    intro id s s' hs' hsame hready hstatus
    exact hsyncs id ⟨s', hs', syncReady_of_continues hsame hstatus id ▸ hready⟩
  constructor
  case entities =>
    refine h.entities.mono fun k e e' _ he' hstep => ?_
    rcases hstep with rfl | ⟨hin, rfl⟩
    · refine ⟨rfl, fun hin => ?_, fun _ => rfl⟩
      obtain ⟨c, hc, hchangeset⟩ := inChangesets_iff.1 hin
      exact hdone c hc k e' he' hchangeset
    · exact ⟨rfl, fun _ => rfl, absurd hin⟩
  case files =>
    refine h.files.mono fun id f f' _ hf' ⟨hsame, hstatus⟩ => ⟨hsame, ?_⟩
    rcases hstatus with hstatus | ⟨hcompleted, hready⟩
    · refine ⟨fun hready => ?_, fun _ => hstatus⟩
      exact absurd ⟨f', hf', fileReady_of_continues hsame hstatus id ▸ hready⟩ (hfiles id)
    · exact ⟨fun _ => hcompleted, absurd hready⟩
  case syncs =>
    refine h.syncs.mono fun id s s' _ hs' ⟨hsame, hstatus⟩ => ⟨hsame, ?_⟩
    rcases hstatus with hstatus | ⟨hcompleted, hdue⟩
    · refine ⟨fun hdue => ?_, fun _ => hstatus⟩
      rcases hdue with hready | ⟨hopen, b, base, r, hbase, hready, hr, rfl⟩
      · exact absurd hstatus (hclosed hs' hsame hready)
      · -- The base was closed, and its latest rerun with it.
        obtain ⟨base', hbase', hbasesame, hbasestatus⟩ := h.syncs.find? hbase
        rcases hbasestatus with hbasestatus | ⟨hbasedone, -⟩
        · exact absurd hbasestatus (hclosed hbase' hbasesame hready)
        · have hnot := h.reruns hbase (open_of_syncReady hready) hbase' hbasedone hr hs'
          rw [hstatus] at hnot
          exact absurd hopen hnot
    · exact ⟨fun _ => hcompleted, absurd hdue⟩

theorem Settled.resolvedCount_eq (h₁ : Settled ids db db₁) (h₂ : Settled ids' db db₂)
    (hids : ∀ c, c ∈ ids ↔ c ∈ ids') (file : FileId) :
    db₁.resolvedCount file = db₂.resolvedCount file := by
  refine h₁.entities.count_eq_count h₂.entities fun k e e₁ e₂ he₁ he₂ => ?_
  have hin : inChangesets ids e = true ↔ inChangesets ids' e = true := by
    simp only [inChangesets_iff, hids]
  rw [he₁.2.unique he₂.2 hin]

theorem Settled.completedCount_eq (h₁ : Settled ids db db₁) (h₂ : Settled ids' db db₂)
    (hids : ∀ c, c ∈ ids ↔ c ∈ ids') (sync : SyncId) :
    db₁.completedCount sync = db₂.completedCount sync := by
  refine h₁.files.count_eq_count h₂.files fun id f f₁ f₂ hf₁ hf₂ => ?_
  have hready : db₁.fileReady id f = true ↔ db₂.fileReady id f = true := by
    unfold fileReady
    rw [h₁.resolvedCount_eq h₂ hids]
  have hstatus : f₁.status = f₂.status := hf₁.2.unique hf₂.2 hready
  rw [hstatus, hf₁.1, hf₂.1]

theorem Settled.unique (h₁ : Settled ids db db₁) (h₂ : Settled ids' db db₂)
    (hids : ∀ c, c ∈ ids ↔ c ∈ ids') : SameStatuses db₁ db₂ := by
  have hsync : ∀ id s, db₁.syncReady id s = db₂.syncReady id s := by
    intro id s
    unfold syncReady
    rw [h₁.completedCount_eq h₂ hids]
  constructor
  case entities =>
    refine h₁.entities.find?_map_eq h₂.entities fun k e e₁ e₂ he₁ he₂ => he₁.2.unique he₂.2 ?_
    simp only [inChangesets_iff, hids]
  case files =>
    refine h₁.files.find?_map_eq h₂.files fun id f f₁ f₂ hf₁ hf₂ => hf₁.2.unique hf₂.2 ?_
    unfold fileReady
    rw [h₁.resolvedCount_eq h₂ hids]
  case syncs =>
    refine h₁.syncs.find?_map_eq h₂.syncs fun id s s₁ s₂ hs₁ hs₂ => hs₁.2.unique hs₂.2 ?_
    unfold SyncDue
    simp only [hsync]

end Settling

end SyncCascade.Database
