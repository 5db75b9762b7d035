import SyncCascade.Proofs.Rerun.FollowUp
import SyncCascade.Proofs.Store.Outcome

/-!
# Counted syncs

A sync is counted if its totals are the counts of what it owns. Its files then close exactly when all
their entities are resolved, and the sync itself only when all its files are completed. The steps that
may follow a rerun delete nothing and take nothing back, so it stays counted.
-/

namespace SyncCascade.Database

def AllResolved (db : Database) (file : FileId) : Prop :=
  ∀ k e, db.entities.find? k = some e → k.file = file → e.status.isResolved = true

/-- Some entity of the files of the sync is neither completed nor not synced. -/
def Unresolved (db : Database) (sync : SyncId) : Prop :=
  ∃ k e, db.entities.find? k = some e ∧ db.ownsFile sync k.file = true ∧ e.status.isResolved = false

/-- The sync owns files and declares their number. Each of them declares the number of its entities,
and is in progress, or completed with all of them resolved. -/
structure Counted (db : Database) (sync : SyncId) : Prop where
  nonempty : 0 < db.fileCount sync
  totalFiles : ∀ {row}, db.syncs.find? sync = some row →
    row.totalFiles.map Int32.toInt = some (db.fileCount sync : Int)
  totalEntities : ∀ {id f}, db.files.find? id = some f → f.syncId = sync →
    f.totalEntities.map Int32.toInt = some (db.entityCount id : Int)
  status : ∀ {id f}, db.files.find? id = some f → f.syncId = sync →
    f.status = .inProgress ∨ f.status = .completed ∧ db.AllResolved id

section Counting

variable {db : Database} {sync : SyncId} {file : FileId}

theorem ownsFile_iff : db.ownsFile sync file = true ↔
    ∃ f, db.files.find? file = some f ∧ f.syncId = sync := by
  unfold ownsFile
  cases db.files.find? file with
  | none => simp
  | some f => simp

theorem count_eq_total {total : Option Int32} {m n : Nat}
    (htotal : total.map Int32.toInt = some (n : Int)) (hmn : m ≤ n)
    (h : total = some (Int32.ofNat m)) : m = n := by
  have hm := total_eq_of_ofNat (fun t ht => ?_) h
  · rw [htotal] at hm
    exact Int.ofNat.inj (Option.some.inj hm.symm)
  · rw [ht, Option.map_some] at htotal
    have := Option.some.inj htotal
    omega

theorem allResolved_iff : db.AllResolved file ↔ db.resolvedCount file = db.entityCount file := by
  constructor
  · intro h
    refine Table.count_congr fun k e he => ?_
    by_cases hk : k.file = file
    · rw [h k e he hk, Bool.and_true]
    · rw [decide_eq_false hk, Bool.false_and]
  · intro h k e he hk
    have hresolved := Table.of_count_eq (fun k e _ hp => (Bool.and_eq_true_iff.1 hp).1) h he
      (decide_eq_true hk)
    exact (Bool.and_eq_true_iff.1 hresolved).2

theorem allResolved_of_not_unresolved (h : ¬ db.Unresolved sync)
    (howns : db.ownsFile sync file = true) : db.AllResolved file := by
  rintro k e he rfl
  cases hresolved : e.status.isResolved with
  | true => rfl
  | false => exact absurd ⟨k, e, he, howns, hresolved⟩ h

theorem Counted.allResolved_of_fileCloses (h : db.Counted sync) {f : File}
    (hf : db.files.find? file = some f) (hsync : f.syncId = sync)
    (hcloses : db.fileCloses file f = true) : db.AllResolved file := by
  unfold fileCloses at hcloses
  rw [Bool.and_eq_true, beq_iff_eq, beq_iff_eq, resolvedEntities_eq] at hcloses
  exact allResolved_iff.2 (count_eq_total (h.totalEntities hf hsync)
    (resolvedCount_le_entityCount db file) hcloses.2)

theorem Counted.fileCloses (h : db.Counted sync) {f : File} (hf : db.files.find? file = some f)
    (hsync : f.syncId = sync) (hopen : f.status = .inProgress) (hresolved : db.AllResolved file) :
    db.fileCloses file f = true := by
  unfold Database.fileCloses
  rw [Bool.and_eq_true, beq_iff_eq, beq_iff_eq, resolvedEntities_eq]
  refine ⟨hopen, eq_ofNat_of_toInt ?_⟩
  rw [allResolved_iff.1 hresolved]
  exact h.totalEntities hf hsync

def AllCompleted (db : Database) (sync : SyncId) : Prop :=
  ∀ id f, db.files.find? id = some f → f.syncId = sync → f.status = .completed

theorem allCompleted_iff : db.AllCompleted sync ↔ db.completedCount sync = db.fileCount sync := by
  constructor
  · intro h
    refine Table.count_congr fun id f hf => ?_
    by_cases hsync : f.syncId = sync
    · rw [decide_eq_true (h id f hf hsync), Bool.and_true]
    · rw [decide_eq_false hsync, Bool.false_and]
  · intro h id f hf hsync
    have hcompleted := Table.of_count_eq (fun k f _ hp => (Bool.and_eq_true_iff.1 hp).1) h hf
      (decide_eq_true hsync)
    exact of_decide_eq_true (Bool.and_eq_true_iff.1 hcompleted).2

theorem Counted.not_unresolved (h : db.Counted sync) (hcompleted : db.AllCompleted sync) :
    ¬ db.Unresolved sync := by
  rintro ⟨k, e, he, howns, hunresolved⟩
  obtain ⟨f, hf, hsync⟩ := ownsFile_iff.1 howns
  have hdone := hcompleted k.file f hf hsync
  rcases h.status hf hsync with hopen | ⟨-, hresolved⟩
  · rw [hopen] at hdone
    cases hdone
  · rw [hresolved k e he rfl] at hunresolved
    cases hunresolved

theorem allCompleted_of_syncCloses {row : SyncRun}
    (htotal : row.totalFiles.map Int32.toInt = some (db.fileCount sync : Int))
    (hcloses : db.syncCloses sync row = true) : db.AllCompleted sync := by
  have hcount : db.completedFiles sync = db.completedCount sync := completedFiles_eq db sync
  unfold syncCloses at hcloses
  rw [Bool.and_eq_true, beq_iff_eq, hcount] at hcloses
  exact allCompleted_iff.2 (count_eq_total htotal (completedCount_le_fileCount db sync) hcloses.2)

theorem counted_iff : db.Counted sync ↔
    0 < db.fileCount sync ∧
    (∀ e ∈ db.syncs.entries, e.1 = sync →
      e.2.totalFiles.map Int32.toInt = some (db.fileCount sync : Int)) ∧
    ∀ e ∈ db.files.entries, e.2.syncId = sync →
      e.2.totalEntities.map Int32.toInt = some (db.entityCount e.1 : Int) ∧
      (e.2.status = .inProgress ∨ e.2.status = .completed ∧
        ∀ x ∈ db.entities.entries, x.1.file = e.1 → x.2.status.isResolved = true) := by
  constructor
  · intro h
    refine ⟨h.nonempty, ?_, ?_⟩
    · rintro e he rfl
      exact h.totalFiles ((Table.find?_eq_some_iff _ _ _).2 he)
    · intro e he hsync
      have hf := (Table.find?_eq_some_iff _ _ _).2 he
      refine ⟨h.totalEntities hf hsync, (h.status hf hsync).imp_right fun hdone => ⟨hdone.1, ?_⟩⟩
      exact fun x hx => hdone.2 x.1 x.2 ((Table.find?_eq_some_iff _ _ _).2 hx)
  · rintro ⟨hnonempty, hsyncs, hfiles⟩
    have hfile : ∀ {id f}, db.files.find? id = some f → (id, f) ∈ db.files.entries :=
      (Table.find?_eq_some_iff _ _ _).1
    constructor
    case nonempty => exact hnonempty
    case totalFiles => exact fun hrow => hsyncs _ ((Table.find?_eq_some_iff _ _ _).1 hrow) rfl
    case totalEntities => exact fun hf hsync => (hfiles _ (hfile hf) hsync).1
    case status =>
      refine fun hf hsync => (hfiles _ (hfile hf) hsync).2.imp_right fun hdone => ⟨hdone.1, ?_⟩
      exact fun k e he => hdone.2 (k, e) ((Table.find?_eq_some_iff _ _ _).1 he)

instance (db : Database) (sync : SyncId) : Decidable (db.Counted sync) :=
  decidable_of_iff _ counted_iff.symm

theorem unresolved_iff : db.Unresolved sync ↔
    ∃ e ∈ db.entities.entries, db.ownsFile sync e.1.file = true ∧ e.2.status.isResolved = false := by
  constructor
  · rintro ⟨k, e, he, howns, hunresolved⟩
    exact ⟨(k, e), (Table.find?_eq_some_iff _ _ _).1 he, howns, hunresolved⟩
  · rintro ⟨e, he, howns, hunresolved⟩
    exact ⟨e.1, e.2, (Table.find?_eq_some_iff _ _ _).2 he, howns, hunresolved⟩

instance (db : Database) (sync : SyncId) : Decidable (db.Unresolved sync) :=
  decidable_of_iff _ unresolved_iff.symm

end Counting

/-- No step deletes a row, and none takes back what is resolved or completed. -/
structure Follows (base : SyncId) (db db' : Database) : Prop where
  entities : db.entities.Revised (fun k e e' => db.ownsFile base k.file = true →
    e'.status = e.status ∨ e'.status.isResolved = true) db'.entities
  files : db.files.Revised (fun _ f f' => f.Continues f' ∧
    (f'.status = f.status ∨ f'.status = .completed)) db'.files
  syncs : db.syncs.Revised (fun _ s s' => s.Continues s') db'.syncs
  changesets : db'.changesets = db.changesets

namespace Follows

variable {base sync : SyncId} {file : FileId} {db db' db'' : Database}

theorem of_entities (h : db.entities.Revised (fun k e e' => db.ownsFile base k.file = true →
    e'.status = e.status ∨ e'.status.isResolved = true) db'.entities)
    (hfiles : db'.files = db.files) (hsyncs : db'.syncs = db.syncs)
    (hchangesets : db'.changesets = db.changesets) : Follows base db db' where
  entities := h
  files := hfiles ▸ .refl fun _ _ _ => ⟨rfl, .inl rfl⟩
  syncs := hsyncs ▸ .refl fun _ _ _ => rfl
  changesets := hchangesets

theorem refl (base : SyncId) (db : Database) : Follows base db db :=
  of_entities (.refl fun _ _ _ _ => .inl rfl) rfl rfl rfl

theorem ownsFile_eq (h : Follows base db db') (sync : SyncId) (file : FileId) :
    db'.ownsFile sync file = db.ownsFile sync file := by
  rw [Bool.eq_iff_iff, ownsFile_iff, ownsFile_iff]
  constructor
  · rintro ⟨f', hf', hsync⟩
    obtain ⟨f, hf, hsame, -⟩ := h.files.find?_back hf'
    refine ⟨f, hf, ?_⟩
    rwa [hsame] at hsync
  · rintro ⟨f, hf, hsync⟩
    obtain ⟨f', hf', hsame, -⟩ := h.files.find? hf
    refine ⟨f', hf', ?_⟩
    rwa [hsame]

theorem trans (h : Follows base db db') (h' : Follows base db' db'') : Follows base db db'' where
  entities := h.entities.trans h'.entities fun k e e' e'' _ _ hstep hstep' howns => by
    rcases hstep' ((h.ownsFile_eq base k.file).trans howns) with heq | hresolved
    · rw [heq]
      exact hstep howns
    · exact .inr hresolved
  files := h.files.trans h'.files fun _ f f' f'' _ _ ⟨hsame, hstatus⟩ ⟨hsame', hstatus'⟩ => by
    refine ⟨hsame.trans hsame', ?_⟩
    rcases hstatus' with heq | hdone
    · rw [heq]
      exact hstatus
    · exact .inr hdone
  syncs := h.syncs.trans h'.syncs fun _ _ _ _ _ _ hsame hsame' => hsame.trans hsame'
  changesets := h'.changesets.trans h.changesets

theorem entityCount_eq (h : Follows base db db') (file : FileId) :
    db.entityCount file = db'.entityCount file :=
  h.entities.count_eq fun _ _ _ _ => rfl

theorem fileCount_eq (h : Follows base db db') (sync : SyncId) :
    db.fileCount sync = db'.fileCount sync := by
  refine h.files.count_eq fun _ f f' ⟨hsame, _⟩ => ?_
  rw [hsame]

theorem allResolved (h : Follows base db db') (howns : db.ownsFile base file = true)
    (hresolved : db.AllResolved file) : db'.AllResolved file := by
  rintro k e' he' rfl
  obtain ⟨e, he, hstep⟩ := h.entities.find?_back he'
  rcases hstep howns with heq | hresolved'
  · rw [heq]
    exact hresolved k e he rfl
  · exact hresolved'

theorem not_unresolved (h : Follows base db db') (hresolved : ¬ db.Unresolved base) :
    ¬ db'.Unresolved base := by
  rintro ⟨k, e', he', howns, hunresolved⟩
  rw [h.ownsFile_eq] at howns
  obtain ⟨e, he, hstep⟩ := h.entities.find?_back he'
  rcases hstep howns with heq | hresolved'
  · rw [heq] at hunresolved
    exact hresolved ⟨k, e, he, howns, hunresolved⟩
  · rw [hunresolved] at hresolved'
    cases hresolved'

theorem completed (h : Follows base db db') {f : File} (hf : db.files.find? file = some f)
    (hdone : f.status = .completed) : ∃ f', db'.files.find? file = some f' ∧ f'.status = .completed := by
  obtain ⟨f', hf', -, hstatus⟩ := h.files.find? hf
  exact ⟨f', hf', hstatus.elim (·.trans hdone) id⟩

theorem allCompleted (h : Follows base db db') (hdone : db.AllCompleted sync) :
    db'.AllCompleted sync := by
  intro id f' hf' hsync
  obtain ⟨f, hf, hsame, hstatus⟩ := h.files.find?_back hf'
  rw [hsame] at hsync
  exact hstatus.elim (·.trans (hdone id f hf hsync)) fun h => h

theorem syncsKeyed (h : Follows base db db') (hkeyed : db.SyncsKeyed) : db'.SyncsKeyed := by
  intro id s' hs'
  obtain ⟨s, hs, hsame⟩ := h.syncs.find?_back hs'
  rw [hsame]
  exact hkeyed (s := s) hs

/-- The status of a file that a step completed may be judged before the step. -/
theorem counted (h : Follows base db db') (hcounted : db.Counted base)
    (hclosed : ∀ {id f f'}, db.files.find? id = some f → db'.files.find? id = some f' →
      f'.status ≠ f.status → db.fileCloses id f = true) : db'.Counted base := by
  constructor
  case nonempty => exact h.fileCount_eq base ▸ hcounted.nonempty
  case totalFiles =>
    intro row' hrow'
    obtain ⟨row, hrow, hsame⟩ := h.syncs.find?_back hrow'
    have htotal := hcounted.totalFiles hrow
    rwa [hsame, ← h.fileCount_eq]
  case totalEntities =>
    intro id f' hf' hsync
    obtain ⟨f, hf, hsame, -⟩ := h.files.find?_back hf'
    rw [hsame] at hsync
    have htotal := hcounted.totalEntities hf hsync
    rwa [hsame, ← h.entityCount_eq]
  case status =>
    intro id f' hf' hsync
    obtain ⟨f, hf, hsame, hstatus⟩ := h.files.find?_back hf'
    rw [hsame] at hsync
    have howns : db.ownsFile base id = true := ownsFile_iff.2 ⟨f, hf, hsync⟩
    by_cases hkept : f'.status = f.status
    · rw [hkept]
      exact (hcounted.status hf hsync).imp_right fun hdone => ⟨hdone.1, h.allResolved howns hdone.2⟩
    · have hcloses := hclosed hf hf' hkept
      exact .inr ⟨hstatus.resolve_left hkept,
        h.allResolved howns (hcounted.allResolved_of_fileCloses hf hsync hcloses)⟩

end Follows

/-- A patch that finds its entity in a file of the sync gives it no status but completed or not
synced. -/
def Spares (db : Database) (sync : SyncId) : FollowUp → Prop
  | .patchEntity id file patch => (∃ db', db.patchEntity id file patch = .ok db') →
    db.ownsFile sync file = true → ∀ s, patch.status = some s → s.isResolved = true
  | _ => True

section Steps

variable {base : SyncId} {db db' : Database} {now : Timestamp}

theorem patchEntity_isOk_iff {id : EntityId} {file : FileId} {p : EntityPatch} :
    (∃ db', db.patchEntity id file p = .ok db') ↔
      (∀ c, p.changesetId = some c → db.changesets.contains c = true) ∧
        db.entities.contains ⟨file, id⟩ = true := by
  constructor
  · rintro ⟨db', h⟩
    obtain ⟨hchangeset, hthere, -⟩ := patchEntity_eq_ok h
    exact ⟨hchangeset, hthere⟩
  · rintro ⟨hchangeset, hthere⟩
    have hnone : (p.changesetId.filter fun c => !db.changesets.contains c) = none := by
      rw [Option.filter_eq_none_iff]
      intro c hc
      simp [hchangeset c hc]
    unfold patchEntity
    rw [hnone]
    exact ⟨_, if_pos hthere⟩

/-- Whether a step spares the sync does not change with the steps before it. -/
theorem Follows.spares (h : Follows base db db') {step : FollowUp} (hspares : db.Spares base step) :
    db'.Spares base step := by
  cases step with
  | patchEntity id file patch =>
    intro hok howns
    rw [patchEntity_isOk_iff, h.changesets] at hok
    rw [h.ownsFile_eq] at howns
    refine hspares (patchEntity_isOk_iff.2 ⟨hok.1, ?_⟩) howns
    obtain ⟨e', he'⟩ := Table.contains_eq_true.1 hok.2
    obtain ⟨e, he, -⟩ := h.entities.find?_back he'
    exact Table.contains_eq_true.2 ⟨e, he⟩
  | closeChangesets | closeFile | closeSync => trivial

theorem patchEntity_follows {id : EntityId} {file : FileId} {p : EntityPatch}
    (hspares : db.Spares base (.patchEntity id file p)) (h : db.patchEntity id file p = .ok db') :
    Follows base db db' := by
  have hstatus := hspares ⟨db', h⟩
  obtain ⟨-, -, rfl⟩ := patchEntity_eq_ok h
  refine .of_entities ?_ rfl rfl rfl
  refine (Table.revised_modify db.entities ⟨file, id⟩ p.apply).mono fun k e e' _ _ hstep howns => ?_
  subst hstep
  split
  next hk =>
    subst hk
    unfold EntityPatch.apply
    dsimp only
    cases hp : p.status with
    | none => exact .inl rfl
    | some s => exact .inr (hstatus howns s hp)
  next => exact .inl rfl

theorem markCompleted_follows (base : SyncId) (db : Database) (ids : List ChangesetId) :
    Follows base db (db.markCompleted ids).2 := by
  refine .of_entities ⟨fun _ e => if marks ids e then { e with status := .completed } else e, rfl,
    fun k e _ _ => ?_⟩ rfl rfl rfl
  dsimp only
  by_cases hmarks : marks ids e = true
  · rw [if_pos hmarks]
    exact .inr rfl
  · rw [if_neg hmarks]
    exact .inl rfl

theorem tryCloseFile_follows (base : SyncId) {id : FileId} {owner : Option SyncId}
    (h : FileClosing now db id owner db') : Follows base db db' := by
  cases h with
  | refused => exact .refl base db
  | closed =>
    constructor
    case entities => exact .refl fun _ _ _ _ => .inl rfl
    case files =>
      refine (Table.revised_modify db.files id (completeFile now)).mono fun k f f' _ _ hstep => ?_
      subst hstep
      split
      · exact ⟨rfl, .inr rfl⟩
      · exact ⟨rfl, .inl rfl⟩
    case syncs => exact .refl fun _ _ _ => rfl
    case changesets => rfl

theorem withCompleted_follows (base : SyncId) (db : Database) (now : Timestamp) (id : SyncId) :
    Follows base db (db.withCompleted now id) where
  entities := .refl fun _ _ _ _ => .inl rfl
  files := .refl fun _ _ _ => ⟨rfl, .inl rfl⟩
  syncs := withCompleted_continues db now id
  changesets := rfl

theorem tryCloseSync_follows (base : SyncId) {id : SyncId} {closed : List SyncId}
    (h : Closing now db id closed db') : Follows base db db' := by
  cases h with
  | refused => exact .refl base db
  | alone => exact withCompleted_follows base db now id
  | withRerun =>
    exact (withCompleted_follows base db now id).trans (withCompleted_follows base _ now _)

theorem pursue_follows {step : FollowUp} (hspares : db.Spares base step) (now : Timestamp) :
    Follows base db (db.pursue now step).2 := by
  cases step with
  | patchEntity id file patch =>
    cases h : db.patchEntity id file patch with
    | ok db' =>
      rw [pursue_patched h]
      exact patchEntity_follows hspares h
    | error e =>
      rw [pursue_unpatched h]
      exact .refl base db
  | closeChangesets ids => exact markCompleted_follows base db ids
  | closeFile id => exact tryCloseFile_follows base (tryCloseFile_closing now db id)
  | closeSync id => exact tryCloseSync_follows base (tryCloseSync_closing now db id)

theorem pursueAll_follows {steps : List (Clock × FollowUp)}
    (hspares : ∀ step ∈ steps, db.Spares base step.2) : Follows base db (db.pursueAll steps).2 := by
  induction steps generalizing db with
  | nil => exact .refl base db
  | cons step rest ih =>
    obtain ⟨clock, step⟩ := step
    have hstep := pursue_follows (hspares _ List.mem_cons_self) clock.wall
    exact hstep.trans (ih fun later hlater => hstep.spares (hspares later (List.mem_cons_of_mem _ hlater)))

end Steps

end SyncCascade.Database
