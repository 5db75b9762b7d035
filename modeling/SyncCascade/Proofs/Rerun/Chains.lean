import Mathlib.Data.List.Perm.Subperm
import SyncCascade.Proofs.Rerun.Effect
import SyncCascade.Proofs.Store.Integrity

/-!
# Chains of reruns

Only the latest rerun of a base is looked at before another one is made, and only the latest is closed
with its base. That is enough, because a rerun in progress is always the latest one. The reruns then
count up from 1, and none is in progress once the base is completed.
-/

namespace SyncCascade

namespace Database

structure Chained (db : Database) : Prop where
  rootBase : ∀ ⦃id s base⦄, db.syncs.find? id = some s → s.baseSyncId = some base →
    ∃ root, db.syncs.find? base = some root ∧ root.baseSyncId = none
  /-- The reruns of a base are numbered from 1 on, each number being given once. -/
  numbers : ∀ base, ((db.rerunsOf base).map fun r => r.runNumber.toInt).Perm
    ((List.range (db.rerunsOf base).length).map fun n : Nat => (n : Int) + 1)
  /-- A rerun in progress has the highest number, and so it is the only one. -/
  openHighest : ∀ ⦃base r r'⦄, r ∈ db.rerunsOf base → r' ∈ db.rerunsOf base →
    r.status = .inProgress → r' ≠ r → r'.runNumber.toInt < r.runNumber.toInt
  settled : ∀ ⦃base root⦄, db.syncs.find? base = some root → root.status = .completed →
    ∀ r ∈ db.rerunsOf base, r.status ≠ .inProgress

variable {db db' : Database} {now : Timestamp} {base id : SyncId} {r s : SyncRun}

theorem mem_rerunsOf :
    r ∈ db.rerunsOf base ↔ ∃ id, db.syncs.find? id = some r ∧ r.baseSyncId = some base := by
  unfold rerunsOf
  rw [List.mem_filter, Table.mem_rows, decide_eq_true_eq, exists_and_right]

theorem rerunsOf_congr (h : db'.syncs = db.syncs) (base : SyncId) :
    db'.rerunsOf base = db.rerunsOf base := by
  unfold rerunsOf
  rw [h]

theorem chained_empty : empty.Chained where
  rootBase _ _ _ hs := by cases hs
  numbers _ := .refl _
  openHighest _ _ _ hr := by cases hr
  settled _ _ hroot := by cases hroot

theorem Chained.of_syncs_eq (h : db.Chained) (hsyncs : db'.syncs = db.syncs) : db'.Chained := by
  constructor
  case rootBase =>
    rw [hsyncs]
    exact h.rootBase
  case numbers =>
    intro base
    rw [rerunsOf_congr hsyncs]
    exact h.numbers base
  case openHighest =>
    intro base r r'
    rw [rerunsOf_congr hsyncs]
    exact fun hr hr' => h.openHighest hr hr'
  case settled =>
    intro base root
    rw [hsyncs, rerunsOf_congr hsyncs]
    exact fun hroot => h.settled hroot

theorem Chained.number_le (h : db.Chained) (hr : r ∈ db.rerunsOf base) :
    r.runNumber.toInt ≤ (db.rerunsOf base).length := by
  have hmem := (h.numbers base).mem_iff.1 (List.mem_map_of_mem hr)
  obtain ⟨n, hn, heq⟩ := List.mem_map.1 hmem
  have hlt := List.mem_range.1 hn
  omega

theorem Chained.highestNumber_eq (h : db.Chained) (base : SyncId) :
    db.highestNumber base = (db.rerunsOf base).length := by
  rw [Database.highestNumber_eq]
  cases hlatest : db.latestRerun base with
  | none =>
    rw [latestRerun_eq_none hlatest]
    rfl
  | some r =>
    obtain ⟨hmem, hhighest⟩ := highestRerun_of_latestRerun hlatest
    have hpos := List.length_pos_of_mem hmem
    have hlast : ((db.rerunsOf base).length : Int) ∈
        (List.range (db.rerunsOf base).length).map fun n : Nat => (n : Int) + 1 := by
      refine List.mem_map.2 ⟨(db.rerunsOf base).length - 1, List.mem_range.2 ?_, ?_⟩ <;> omega
    obtain ⟨r', hr', hnumber⟩ := List.mem_map.1 ((h.numbers base).mem_iff.2 hlast)
    have hle := hhighest r' hr'
    have hbound := h.number_le hmem
    simp only [Option.map_some, Option.getD_some]
    omega

theorem Chained.latestRerun_of_inProgress (h : db.Chained) (hr : r ∈ db.rerunsOf base)
    (hopen : r.status = .inProgress) : db.latestRerun base = some r := by
  cases hlatest : db.latestRerun base with
  | none =>
    rw [latestRerun_eq_none hlatest] at hr
    cases hr
  | some l =>
    obtain ⟨hmem, hhighest⟩ := highestRerun_of_latestRerun hlatest
    by_cases hsame : l = r
    · rw [hsame]
    · have hlt := h.openHighest hr hmem hopen hsame
      have hle := hhighest r hr
      omega

theorem Chained.toInt_nextNumber (h : db.Chained) {number : Int32}
    (hnumber : Rerun.nextNumber (db.latestRerun base) = .ok number) :
    number.toInt = (db.rerunsOf base).length + 1 := by
  rw [Database.toInt_nextNumber hnumber, h.highestNumber_eq]

section Revised

variable (hrev : db.syncs.Revised (fun _ s s' => s.Settles s') db'.syncs)
include hrev

theorem numbers_revised (base : SyncId) :
    (db'.rerunsOf base).map (fun r => r.runNumber.toInt) =
      (db.rerunsOf base).map fun r => r.runNumber.toInt :=
  hrev.map_filter_rows fun _ _ _ h => ⟨by rw [h.1.2.1], by rw [h.1.2.2]⟩

theorem mem_rerunsOf_back {r' : SyncRun} (hr' : r' ∈ db'.rerunsOf base) :
    ∃ k r, db.syncs.find? k = some r ∧ db'.syncs.find? k = some r' ∧ r ∈ db.rerunsOf base ∧
      r.Settles r' := by
  obtain ⟨k, hk', hbase⟩ := mem_rerunsOf.1 hr'
  obtain ⟨r, hk, hsettles⟩ := hrev.find?_back hk'
  exact ⟨k, r, hk, hk', mem_rerunsOf.2 ⟨k, hk, hsettles.1.2.1.symm.trans hbase⟩, hsettles⟩

/-- A revision may complete a base only if none of its reruns is in progress. -/
theorem Chained.revised (h : db.Chained) (hkeyed : db.SyncsKeyed)
    (hsettled : ∀ ⦃base root⦄, db'.syncs.find? base = some root → root.status = .completed →
      ∀ r ∈ db.rerunsOf base, r.status ≠ .inProgress) : db'.Chained := by
  constructor
  case rootBase =>
    intro id s' base hs' hbase
    obtain ⟨s, hs, hsettles⟩ := hrev.find?_back hs'
    obtain ⟨root, hroot, hnone⟩ := h.rootBase hs (hsettles.1.2.1.symm.trans hbase)
    obtain ⟨root', hroot', hsettles'⟩ := hrev.find? hroot
    exact ⟨root', hroot', hsettles'.1.2.1.trans hnone⟩
  case numbers =>
    intro base
    have hlength := congrArg List.length (numbers_revised hrev base)
    rw [List.length_map, List.length_map] at hlength
    rw [numbers_revised hrev, hlength]
    exact h.numbers base
  case openHighest =>
    intro base r₁ r₂ hr₁ hr₂ hopen hne
    obtain ⟨k₁, s₁, hk₁, hk₁', hs₁, hsettles₁⟩ := mem_rerunsOf_back hrev hr₁
    obtain ⟨k₂, s₂, hk₂, hk₂', hs₂, hsettles₂⟩ := mem_rerunsOf_back hrev hr₂
    rw [hsettles₁.1.2.2, hsettles₂.1.2.2]
    refine h.openHighest hs₁ hs₂ (hsettles₁.2 hopen) ?_
    rintro rfl
    have hkey : k₁ = k₂ := (hkeyed hk₁).symm.trans (hkeyed hk₂)
    subst hkey
    exact hne (Option.some.inj (hk₂'.symm.trans hk₁'))
  case settled =>
    intro base root hroot hdone r' hr' hopen
    obtain ⟨_, r, -, -, hr, hsettles⟩ := mem_rerunsOf_back hrev hr'
    exact hsettled hroot hdone r hr (hsettles.2 hopen)

end Revised

theorem Chained.retotaled (h : db.Chained) (hkeyed : db.SyncsKeyed)
    (f : Option Int32 → Option Int32) (hsyncs : db'.syncs =
      db.syncs.modify id fun s => { s with totalFiles := f s.totalFiles }) : db'.Chained := by
  have hrev := revised_total db id f
  rw [← hsyncs] at hrev
  refine h.revised (hrev.mono fun _ _ _ _ _ hs => ⟨hs.1, fun hopen => hs.2.symm.trans hopen⟩) hkeyed ?_
  intro base root' hroot' hdone
  obtain ⟨root, hroot, hsame, hstatus⟩ := hrev.find?_back hroot'
  exact h.settled hroot (hstatus.symm.trans hdone)

theorem Chained.withCompleted (h : db.Chained) (hkeyed : db.SyncsKeyed) (now : Timestamp)
    (hquiet : ∀ r ∈ db.rerunsOf id, r.status ≠ .inProgress) : (db.withCompleted now id).Chained := by
  refine h.revised (revised_withCompleted db now id) hkeyed fun base root hroot hdone => ?_
  by_cases hbase : base = id
  · rw [hbase]
    exact hquiet
  · rw [find?_withCompleted, if_neg hbase] at hroot
    exact h.settled hroot hdone

theorem withCompleted_comm (db : Database) (now : Timestamp) (id id' : SyncId) :
    (db.withCompleted now id).withCompleted now id' =
      (db.withCompleted now id').withCompleted now id := by
  unfold Database.withCompleted Table.modify
  rw [Table.mapRows_mapRows, Table.mapRows_mapRows]
  congr 2
  funext k s
  by_cases hk : k = id
  · by_cases hk' : k = id'
    · rw [if_pos hk, if_pos hk', if_pos hk, if_pos hk']
    · rw [if_pos hk, if_neg hk', if_neg hk', if_pos hk]
  · by_cases hk' : k = id'
    · rw [if_neg hk, if_pos hk', if_neg hk]
    · rw [if_neg hk, if_neg hk', if_neg hk]

/-- No rerun is its own base, so a base keeps its latest rerun when it is completed. -/
theorem Chained.latestRerun_withCompleted (h : db.Chained) (now : Timestamp) (id : SyncId) :
    (db.withCompleted now id).latestRerun id = db.latestRerun id := by
  refine latestRerun_modify fun s hs => ?_
  have hne : s.baseSyncId ≠ some id := by
    intro hbase
    obtain ⟨root, hroot, hnone⟩ := h.rootBase hs hbase
    cases hroot.symm.trans hs
    rw [hnone] at hbase
    cases hbase
  exact ⟨hne, hne⟩

theorem Chained.closing (h : db.Chained) (hkeyed : db.SyncsKeyed) {closed : List SyncId}
    (hclosing : Closing now db id closed db') : db'.Chained := by
  cases hclosing with
  | refused => exact h
  | alone hs hcloses hlatest =>
    rw [h.latestRerun_withCompleted] at hlatest
    refine h.withCompleted hkeyed now fun r hr hopen => ?_
    exact hlatest r (h.latestRerun_of_inProgress hr hopen) hopen
  | @withRerun s r hs hcloses hlatest hopen =>
    rw [h.latestRerun_withCompleted] at hlatest
    have hmem := latestRerun_mem hlatest
    have hrow := find?_of_mem_rerunsOf hkeyed hmem
    -- a rerun is no base, so it may be completed before its own base
    have hleaf : ∀ r' ∈ db.rerunsOf r.id, r'.status ≠ .inProgress := by
      intro r' hr'
      obtain ⟨k, hk, hbase⟩ := mem_rerunsOf.1 hr'
      obtain ⟨root, hroot, hnone⟩ := h.rootBase hk hbase
      cases hroot.symm.trans hrow
      rw [latestRerun_base hlatest] at hnone
      cases hnone
    rw [withCompleted_comm]
    refine (h.withCompleted hkeyed now hleaf).withCompleted
      (withCompleted_syncsKeyed hkeyed now r.id) now ?_
    intro r' hr' hopen'
    obtain ⟨k, r₀, hk, hk', hr₀, hsettles⟩ :=
      mem_rerunsOf_back (revised_withCompleted db now r.id) hr'
    have hsame := h.latestRerun_of_inProgress hr₀ (hsettles.2 hopen')
    cases hlatest.symm.trans hsame
    rw [← hkeyed hk, find?_withCompleted, if_pos rfl, hrow] at hk'
    cases hk'
    cases hopen'

/-- How a sync may begin: as a root, or as the next rerun of a root that is not completed and has no
rerun in progress. -/
inductive Begins (db : Database) (s : SyncRun) : Prop
  | root (h : s.baseSyncId = none)
  | rerun {base : SyncId} {root : SyncRun} (hbase : s.baseSyncId = some base)
      (hroot : db.syncs.find? base = some root) (hnone : root.baseSyncId = none)
      (hopen : root.status ≠ .completed) (hquiet : ∀ r ∈ db.rerunsOf base, r.status ≠ .inProgress)
      (hnumber : s.runNumber.toInt = (db.rerunsOf base).length + 1)

theorem rerunsOf_insert_perm (hfree : db.syncs.contains s.id = false)
    (hsyncs : db'.syncs = db.syncs.insert s.id s) (base : SyncId) :
    (db'.rerunsOf base).Perm
      (if s.baseSyncId = some base then s :: db.rerunsOf base else db.rerunsOf base) := by
  have hperm := (Table.rows_insert_perm (r := s) hfree).filter
    fun s => decide (s.baseSyncId = some base)
  rw [List.filter_cons] at hperm
  unfold rerunsOf
  rw [hsyncs]
  simpa only [decide_eq_true_eq] using hperm

theorem mem_rerunsOf_insert (hfree : db.syncs.contains s.id = false)
    (hsyncs : db'.syncs = db.syncs.insert s.id s) (hr : r ∈ db'.rerunsOf base) :
    r = s ∧ s.baseSyncId = some base ∨ r ∈ db.rerunsOf base := by
  have hmem := (rerunsOf_insert_perm hfree hsyncs base).mem_iff.1 hr
  split at hmem
  next hbase => exact (List.mem_cons.1 hmem).imp_left fun heq => ⟨heq, hbase⟩
  next => exact .inr hmem

theorem numbers_insert (h : db.Chained) (hfree : db.syncs.contains s.id = false)
    (hbegins : db.Begins s) (hsyncs : db'.syncs = db.syncs.insert s.id s) (base : SyncId) :
    ((db'.rerunsOf base).map fun r => r.runNumber.toInt).Perm
      ((List.range (db'.rerunsOf base).length).map fun n : Nat => (n : Int) + 1) := by
  have hperm := rerunsOf_insert_perm hfree hsyncs base
  rw [hperm.length_eq]
  refine (hperm.map _).trans ?_
  split
  next hs =>
    cases hbegins with
    | root hroot =>
      rw [hroot] at hs
      cases hs
    | rerun hbase _ _ _ _ hnumber =>
      cases hbase.symm.trans hs
      rw [List.map_cons, hnumber, List.length_cons, List.range_succ, List.map_append, List.map_singleton]
      exact ((h.numbers base).cons _).trans (List.perm_append_singleton _ _).symm
  next => exact h.numbers base

theorem Chained.insert (h : db.Chained) (hfree : db.syncs.contains s.id = false)
    (hunused : db.rerunsOf s.id = []) (hbegins : db.Begins s)
    (hsyncs : db'.syncs = db.syncs.insert s.id s) : db'.Chained := by
  have hkept : ∀ ⦃id t⦄, db.syncs.find? id = some t → db'.syncs.find? id = some t := by
    intro id t ht
    rw [hsyncs]
    exact Table.find?_insert_of_free hfree ht
  constructor
  case rootBase =>
    intro id t base ht hbase
    rw [hsyncs, Table.find?_insert] at ht
    split at ht
    next =>
      cases ht
      cases hbegins with
      | root hroot =>
        rw [hroot] at hbase
        cases hbase
      | @rerun b root hb hroot hnone =>
        cases hb.symm.trans hbase
        exact ⟨root, hkept hroot, hnone⟩
    next =>
      obtain ⟨root, hroot, hnone⟩ := h.rootBase ht hbase
      exact ⟨root, hkept hroot, hnone⟩
  case numbers => exact numbers_insert h hfree hbegins hsyncs
  case openHighest =>
    intro base r r' hr hr' hopen hne
    rcases mem_rerunsOf_insert hfree hsyncs hr' with ⟨rfl, hbase⟩ | hold'
    · rcases mem_rerunsOf_insert hfree hsyncs hr with ⟨rfl, -⟩ | hold
      · exact absurd rfl hne
      · cases hbegins with
        | root hroot =>
          rw [hroot] at hbase
          cases hbase
        | rerun hb _ _ _ hquiet =>
          cases hb.symm.trans hbase
          exact absurd hopen (hquiet r hold)
    · rcases mem_rerunsOf_insert hfree hsyncs hr with ⟨rfl, hbase⟩ | hold
      · cases hbegins with
        | root hroot =>
          rw [hroot] at hbase
          cases hbase
        | rerun hb _ _ _ _ hnumber =>
          cases hb.symm.trans hbase
          have hle := h.number_le hold'
          omega
      · exact h.openHighest hold hold' hopen hne
  case settled =>
    intro base root hroot hdone r hr hopen
    rw [hsyncs, Table.find?_insert] at hroot
    rcases mem_rerunsOf_insert hfree hsyncs hr with ⟨rfl, hbase⟩ | hold
    · cases hbegins with
      | root hnone =>
        rw [hnone] at hbase
        cases hbase
      | rerun hb hb' _ hb'' =>
        cases hb.symm.trans hbase
        rw [if_neg (Table.ne_of_free hfree hb'), hb'] at hroot
        cases hroot
        exact hb'' hdone
    · split at hroot
      next hid =>
        rw [hid, hunused] at hold
        cases hold
      next => exact h.settled hroot hdone r hold hopen

theorem Integral.rerunsOf_free (h : db.Integral) (hfree : db.syncs.contains id = false) :
    db.rerunsOf id = [] := by
  refine List.eq_nil_iff_forall_not_mem.2 fun r hr => ?_
  obtain ⟨k, hk, hbase⟩ := mem_rerunsOf.1 hr
  exact Bool.eq_false_iff.1 hfree (h.syncBase hk hbase)

theorem Chained.apply (h : db.Chained) (hdb : db.Integral) {c : StoreCall} {reply : c.Reply}
    (hroot : ∀ s, c = .insertSync s → s.baseSyncId = none)
    (hok : db.apply now c = .ok (reply, db')) : db'.Chained := by
  cases c with
  | insertSync s =>
    obtain ⟨hfree, rfl⟩ := insertSync_eq_ok (eq_ok_of_map hok)
    exact h.insert hfree (hdb.rerunsOf_free hfree) (.root (hroot s rfl)) rfl
  | tryCloseSync id =>
    have heq : db.tryCloseSync now id = (reply, db') := Except.ok.inj hok
    exact h.closing hdb.syncsKeyed (heq ▸ tryCloseSync_closing now db id)
  | decrementTotalFiles id n =>
    cases decrementTotalFiles_eq_ok (eq_ok_of_map hok)
    exact h.retotaled hdb.syncsKeyed _ rfl
  | insertFile f =>
    obtain ⟨-, -, rfl⟩ := insertFile_eq_ok (eq_ok_of_map hok)
    exact h.of_syncs_eq rfl
  | tryCloseFile id =>
    have hsyncs := tryCloseFile_syncs_eq now db id
    have heq : db.tryCloseFile now id = (reply, db') := Except.ok.inj hok
    rw [heq] at hsyncs
    exact h.of_syncs_eq hsyncs
  | insertEntities es =>
    obtain ⟨-, rfl⟩ := insertEntities_eq_ok (eq_ok_of_map hok)
    exact h.of_syncs_eq rfl
  | patchEntity id file p =>
    obtain ⟨-, -, rfl⟩ := patchEntity_eq_ok (eq_ok_of_map hok)
    exact h.of_syncs_eq rfl
  | insertChangeset c =>
    obtain ⟨-, rfl⟩ := insertChangeset_eq_ok (eq_ok_of_map hok)
    exact h.of_syncs_eq rfl
  | findSync | latestRerun | findFile | deleteEmptyFiles | reopenFiles | findEntity |
    markCompleted | findFiles | resetEntities | findChangeset | archiveEntities | history =>
    cases hok
    exact h.of_syncs_eq rfl

theorem Chained.trimmed (h : db.Chained) (hkeyed : db.SyncsKeyed) (base : SyncId) :
    (db.trimmed base).Chained :=
  h.retotaled hkeyed _ rfl

theorem trimmed_syncsKeyed (h : db.SyncsKeyed) (base : SyncId) : (db.trimmed base).SyncsKeyed := by
  intro id s' hs'
  obtain ⟨s, hs, hsame, -⟩ := (revised_total db base _).find?_back hs'
  exact hsame.1.trans (h hs)

/-- The base of an attempt that is admitted has no rerun in progress. -/
theorem Chained.quiet_of_admits (h : db.Chained) {row : SyncRun} (hadmits : db.Admits base id row) :
    ∀ r ∈ db.rerunsOf base, r.status ≠ .inProgress := fun r hr hopen =>
  (Rerun.obstacle_eq_none_iff.1 hadmits.clear).2.2 r (h.latestRerun_of_inProgress hr hopen) hopen

theorem Chained.created (h : db.Chained) (hdb : db.Integral) {row : SyncRun} {number : Int32}
    {request : RerunRequest} (hadmits : db.Admits base request.id row)
    (hnumber : Rerun.nextNumber (db.latestRerun base) = .ok number) :
    ((db.trimmed base).withRow base (db.rerunRow base row number request)).Chained := by
  obtain ⟨hroot, hfailed, -⟩ := Rerun.obstacle_eq_none_iff.1 hadmits.clear
  have hreruns := rerunsOf_trimmed hadmits.row_eq hroot
  refine (h.trimmed hdb.syncsKeyed base).insert (s := db.rerunRow base row number request) ?_ ?_ ?_ rfl
  · exact (contains_trimmed ..).trans hadmits.free
  · exact (hreruns _).trans (hdb.rerunsOf_free hadmits.free)
  · refine .rerun rfl (find?_trimmed hadmits.row_eq) hroot ?_ ?_ ?_
    · simp [hfailed]
    · rw [hreruns]
      exact h.quiet_of_admits hadmits
    · rw [hreruns]
      exact h.toInt_nextNumber hnumber

theorem Chained.attempted (h : db.Chained) (hdb : db.Integral) {request : RerunRequest}
    {outcome : RerunOutcome} (hattempted : Attempted now db base request outcome db') :
    db'.Chained := by
  cases hattempted with
  | notCreated hadmits =>
    obtain ⟨hroot, -, -⟩ := Rerun.obstacle_eq_none_iff.1 hadmits.clear
    refine (h.trimmed hdb.syncsKeyed base).withCompleted
      (trimmed_syncsKeyed hdb.syncsKeyed base) now ?_
    rw [rerunsOf_trimmed hadmits.row_eq hroot]
    exact h.quiet_of_admits hadmits
  | created hadmits _ hnumber => exact h.created hdb hadmits hnumber

end Database

end SyncCascade
