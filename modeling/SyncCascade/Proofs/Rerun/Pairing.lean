import SyncCascade.Proofs.Rerun.Counting

/-!
# A base and its rerun close together

A rerun owns no file and declares as many as its base, so it never closes by itself. Its base closes
when all its files are completed, and then the rerun closes with it in the same call. Until then the
base is failed and the rerun in progress, whatever steps follow.
-/

namespace SyncCascade.Database

def syncStatus (db : Database) (id : SyncId) : Option SyncStatus :=
  (db.syncs.find? id).map SyncRun.status

/-- A counted root and its latest rerun, which owns no file but declares the same total. -/
structure Linked (db : Database) (base rerun : SyncId) : Prop where
  keyed : db.SyncsKeyed
  counted : db.Counted base
  base_row : ∃ s, db.syncs.find? base = some s ∧ s.baseSyncId = none
  rerun_row : ∃ r, db.syncs.find? rerun = some r ∧ r.baseSyncId = some base ∧
    r.totalFiles.map Int32.toInt = some (db.fileCount base : Int)
  no_file : db.fileCount rerun = 0
  latest : (db.latestRerun base).map SyncRun.id = some rerun

/-- The base waits for the rerun to resolve it. -/
structure Waits (db : Database) (base rerun : SyncId) : Prop where
  base_failed : db.syncStatus base = some .failed
  rerun_open : db.syncStatus rerun = some .inProgress

/-- The rerun has resolved the base. -/
structure Done (db : Database) (base rerun : SyncId) : Prop where
  base_completed : db.syncStatus base = some .completed
  rerun_completed : db.syncStatus rerun = some .completed
  files_completed : db.AllCompleted base

variable {base rerun id : SyncId} {closed : List SyncId} {db db' : Database} {now : Timestamp}

theorem Waits.of_find? (h : db.Waits base rerun)
    (hbase : db'.syncs.find? base = db.syncs.find? base)
    (hrerun : db'.syncs.find? rerun = db.syncs.find? rerun) : db'.Waits base rerun :=
  ⟨(congrArg _ hbase).trans h.base_failed, (congrArg _ hrerun).trans h.rerun_open⟩

theorem Done.of_find? (h : db.Done base rerun)
    (hbase : db'.syncs.find? base = db.syncs.find? base)
    (hrerun : db'.syncs.find? rerun = db.syncs.find? rerun) (hfiles : db'.AllCompleted base) :
    db'.Done base rerun :=
  ⟨(congrArg _ hbase).trans h.base_completed, (congrArg _ hrerun).trans h.rerun_completed, hfiles⟩

theorem Linked.rerun_ne (h : db.Linked base rerun) : rerun ≠ base := by
  rintro rfl
  obtain ⟨s, hs, hroot⟩ := h.base_row
  obtain ⟨r, hr, hbase, -⟩ := h.rerun_row
  rw [hs] at hr
  cases hr
  rw [hroot] at hbase
  cases hbase

theorem Linked.rerun_stays (h : db.Linked base rerun) {r : SyncRun}
    (hr : db.syncs.find? rerun = some r) : db.syncCloses rerun r = false := by
  obtain ⟨r', hr', -, htotal⟩ := h.rerun_row
  rw [hr] at hr'
  cases hr'
  refine Bool.eq_false_iff.2 fun hcloses => ?_
  have hcount : db.completedFiles rerun = db.completedCount rerun := completedFiles_eq db rerun
  have hle := completedCount_le_fileCount db rerun
  have hzero : db.completedFiles rerun = 0 := by
    rw [hcount]
    exact Nat.le_zero.1 (h.no_file ▸ hle)
  unfold syncCloses at hcloses
  rw [Bool.and_eq_true, beq_iff_eq, hzero] at hcloses
  have hempty := count_eq_total htotal (Nat.zero_le _) hcloses.2
  exact absurd h.counted.nonempty (Nat.not_lt.2 (Nat.le_of_eq hempty.symm))

theorem Linked.closing_elsewhere (h : db.Linked base rerun) (hne : id ≠ base)
    (hclosing : Closing now db id closed db') :
    (base ∉ closed ∧ rerun ∉ closed) ∧ db'.syncs.find? base = db.syncs.find? base ∧
      db'.syncs.find? rerun = db.syncs.find? rerun := by
  have hid : ∀ {s}, db.syncs.find? id = some s → db.syncCloses id s = true → id ≠ rerun := by
    rintro s hs hcloses rfl
    rw [h.rerun_stays hs] at hcloses
    cases hcloses
  cases hclosing with
  | refused => exact ⟨⟨List.not_mem_nil, List.not_mem_nil⟩, rfl, rfl⟩
  | alone hs hcloses =>
    have hne' := hid hs hcloses
    refine ⟨⟨?_, ?_⟩, ?_, ?_⟩
    · simpa using Ne.symm hne
    · simpa using Ne.symm hne'
    · rw [find?_withCompleted, if_neg (Ne.symm hne)]
    · rw [find?_withCompleted, if_neg (Ne.symm hne')]
  | @withRerun s r hs hcloses hlatest hopen =>
    have hne' := hid hs hcloses
    have hbase := latestRerun_base hlatest
    have hr := find?_latestRerun (withCompleted_syncsKeyed h.keyed now id) hlatest
    rw [find?_withCompleted] at hr
    -- The rerun that closes is one of `id`, so it is neither the root nor a rerun of that.
    have hr₁ : r.id ≠ base := by
      intro heq
      obtain ⟨s', hs', hroot⟩ := h.base_row
      rw [heq, if_neg (Ne.symm hne), hs'] at hr
      cases hr
      rw [hroot] at hbase
      cases hbase
    have hr₂ : r.id ≠ rerun := by
      intro heq
      obtain ⟨r', hr', hbase', -⟩ := h.rerun_row
      rw [heq, if_neg (Ne.symm hne'), hr'] at hr
      cases hr
      rw [hbase'] at hbase
      exact hne (Option.some.inj hbase).symm
    refine ⟨⟨?_, ?_⟩, ?_, ?_⟩
    · simpa using ⟨Ne.symm hne, Ne.symm hr₁⟩
    · simpa using ⟨Ne.symm hne', Ne.symm hr₂⟩
    · rw [find?_withCompleted, if_neg (Ne.symm hr₁), find?_withCompleted, if_neg (Ne.symm hne)]
    · rw [find?_withCompleted, if_neg (Ne.symm hr₂), find?_withCompleted, if_neg (Ne.symm hne')]

/-- The base closes with the rerun or not at all. -/
theorem Linked.closing_base (h : db.Linked base rerun) (hwaits : db.Waits base rerun)
    (hclosing : Closing now db base closed db') :
    closed = [] ∧ db' = db ∨ closed = [base, rerun] ∧ db'.Done base rerun := by
  have hkeyed := withCompleted_syncsKeyed h.keyed now base
  obtain ⟨r₀, hr₀, hrerun⟩ := Option.map_eq_some_iff.1 h.latest
  cases hclosing with
  | refused => exact .inl ⟨rfl, rfl⟩
  | alone hs hcloses hlatest =>
    obtain ⟨r, hr, hid⟩ := latestRerun_withCompleted now base hr₀
    have hfind := find?_latestRerun hkeyed hr
    rw [hid, hrerun, find?_withCompleted, if_neg h.rerun_ne] at hfind
    have hopen := hwaits.rerun_open
    unfold syncStatus at hopen
    rw [hfind, Option.map_some] at hopen
    exact absurd (Option.some.inj hopen) (hlatest r hr)
  | @withRerun s r hs hcloses hlatest hopen =>
    obtain ⟨r₁, hr₁, hid⟩ := latestRerun_withCompleted_back hlatest
    rw [hr₀] at hr₁
    cases hr₁
    rw [hrerun] at hid
    subst hid
    refine .inr ⟨rfl, ?_, ?_, ?_⟩
    · unfold syncStatus
      rw [find?_withCompleted, if_neg (Ne.symm h.rerun_ne), find?_withCompleted, if_pos rfl, hs]
      rfl
    · unfold syncStatus
      rw [find?_withCompleted, if_pos rfl, find?_latestRerun hkeyed hlatest]
      rfl
    · exact allCompleted_of_syncCloses (h.counted.totalFiles hs) hcloses

theorem Linked.closing_done (h : db.Linked base rerun) (hwaits : db.Waits base rerun)
    (hcompleted : db.AllCompleted base) (hclosing : Closing now db base closed db') :
    db'.Done base rerun := by
  rcases h.closing_base hwaits hclosing with ⟨hnone, -⟩ | ⟨-, hdone⟩
  · cases hclosing with
    | alone => cases hnone
    | withRerun => cases hnone
    | refused hrefused =>
      obtain ⟨s, hs, -⟩ := h.base_row
      have hfailed := hwaits.base_failed
      unfold syncStatus at hfailed
      rw [hs, Option.map_some] at hfailed
      have hready : db.syncReady base s = true := by
        unfold syncReady
        rw [Option.some.inj hfailed, h.counted.totalFiles hs, allCompleted_iff.1 hcompleted]
        simp [SyncStatus.isClosable]
      have hcloses := syncCloses_of_syncReady hready
      rw [hrefused s hs] at hcloses
      cases hcloses
  · exact hdone

theorem Done.closing_base (h : db.Done base rerun) (hclosing : Closing now db base closed db') :
    closed = [] ∧ db' = db := by
  have hstays : ∀ {s}, db.syncs.find? base = some s → ¬ db.syncCloses base s = true := by
    intro s hs hcloses
    have hcompleted := h.base_completed
    unfold syncStatus at hcompleted
    rw [hs, Option.map_some] at hcompleted
    exact open_of_syncCloses hcloses (Option.some.inj hcompleted)
  cases hclosing with
  | refused => exact ⟨rfl, rfl⟩
  | alone hs hcloses => exact absurd hcloses (hstays hs)
  | withRerun hs hcloses => exact absurd hcloses (hstays hs)

section Steps

variable {step : FollowUp}

theorem pursue_syncs (db : Database) (now : Timestamp) (step : FollowUp) :
    ((db.pursue now step).1 = [] ∧ (db.pursue now step).2.syncs = db.syncs) ∨
      ∃ id, Closing now db id (db.pursue now step).1 (db.pursue now step).2 := by
  cases step with
  | patchEntity id file patch =>
    cases h : db.patchEntity id file patch with
    | ok db' =>
      rw [pursue_patched h]
      obtain ⟨-, -, rfl⟩ := patchEntity_eq_ok h
      exact .inl ⟨rfl, rfl⟩
    | error e =>
      rw [pursue_unpatched h]
      exact .inl ⟨rfl, rfl⟩
  | closeChangesets ids => exact .inl ⟨rfl, rfl⟩
  | closeFile id => exact .inl ⟨rfl, tryCloseFile_syncs_eq now db id⟩
  | closeSync id => exact .inr ⟨id, tryCloseSync_closing now db id⟩

theorem pursue_fileCloses {id : FileId} {f f' : File} (hf : db.files.find? id = some f)
    (hf' : (db.pursue now step).2.files.find? id = some f') (hstatus : f'.status ≠ f.status) :
    db.fileCloses id f = true := by
  have hsame : ∀ {db' : Database}, db'.files = db.files → db'.files.find? id = some f' → False := by
    intro db' hfiles hf'
    rw [hfiles, hf] at hf'
    cases hf'
    exact hstatus rfl
  cases step with
  | patchEntity entity file patch =>
    cases h : db.patchEntity entity file patch with
    | ok db' =>
      rw [pursue_patched h] at hf'
      obtain ⟨-, -, rfl⟩ := patchEntity_eq_ok h
      exact (hsame rfl hf').elim
    | error e =>
      rw [pursue_unpatched h] at hf'
      exact (hsame rfl hf').elim
  | closeChangesets ids => exact (hsame rfl hf').elim
  | closeSync sync => exact (hsame (tryCloseSync_frame (tryCloseSync_closing now db sync)).1 hf').elim
  | closeFile file =>
    have hclosing := tryCloseFile_closing now db file
    unfold pursue at hf'
    dsimp only at hf'
    generalize (db.tryCloseFile now file).1 = owner at hclosing
    generalize (db.tryCloseFile now file).2 = db' at hclosing hf'
    cases hclosing with
    | refused => exact (hsame rfl hf').elim
    | closed hfile hcloses =>
      rw [Table.find?_modify] at hf'
      split at hf'
      next hid =>
        subst hid
        rw [hf] at hfile
        cases hfile
        exact hcloses
      next => exact (hsame rfl hf').elim

theorem Linked.pursue (h : db.Linked base rerun) (hspares : db.Spares base step)
    (now : Timestamp) : (db.pursue now step).2.Linked base rerun := by
  have hfollows := pursue_follows hspares now
  constructor
  case keyed => exact hfollows.syncsKeyed h.keyed
  case counted => exact hfollows.counted h.counted pursue_fileCloses
  case base_row =>
    obtain ⟨s, hs, hroot⟩ := h.base_row
    obtain ⟨s', hs', hsame⟩ := hfollows.syncs.find? hs
    refine ⟨s', hs', ?_⟩
    rwa [hsame]
  case rerun_row =>
    obtain ⟨r, hr, hbase, htotal⟩ := h.rerun_row
    obtain ⟨r', hr', hsame⟩ := hfollows.syncs.find? hr
    refine ⟨r', hr', ?_⟩
    rw [← hfollows.fileCount_eq, hsame]
    exact ⟨hbase, htotal⟩
  case no_file => exact (hfollows.fileCount_eq rerun).symm.trans h.no_file
  case latest => exact (latestRerun_id hfollows.syncs base).trans h.latest

theorem Linked.pursue_waits (h : db.Linked base rerun) (hwaits : db.Waits base rerun)
    (now : Timestamp) (step : FollowUp) :
    (¬ (base ∈ (db.pursue now step).1 ∨ rerun ∈ (db.pursue now step).1) ∧
        (db.pursue now step).2.Waits base rerun) ∨
      (db.pursue now step).1 = [base, rerun] ∧ (db.pursue now step).2.Done base rerun := by
  rcases pursue_syncs db now step with ⟨hnone, hsyncs⟩ | ⟨id, hclosing⟩
  · rw [hnone]
    exact .inl ⟨by simp, hwaits.of_find? (by rw [hsyncs]) (by rw [hsyncs])⟩
  · by_cases hid : id = base
    · subst hid
      rcases h.closing_base hwaits hclosing with ⟨hnone, hdb'⟩ | hdone
      · rw [hnone, hdb']
        exact .inl ⟨by simp, hwaits⟩
      · exact .inr hdone
    · obtain ⟨⟨hbase, hrerun⟩, hbase', hrerun'⟩ := h.closing_elsewhere hid hclosing
      exact .inl ⟨not_or.2 ⟨hbase, hrerun⟩, hwaits.of_find? hbase' hrerun'⟩

theorem Linked.pursue_done (h : db.Linked base rerun) (hdone : db.Done base rerun)
    (hspares : db.Spares base step) (now : Timestamp) :
    ¬ (base ∈ (db.pursue now step).1 ∨ rerun ∈ (db.pursue now step).1) ∧
      (db.pursue now step).2.Done base rerun := by
  have hfiles := (pursue_follows hspares now).allCompleted hdone.files_completed
  rcases pursue_syncs db now step with ⟨hnone, hsyncs⟩ | ⟨id, hclosing⟩
  · rw [hnone]
    exact ⟨by simp, hdone.of_find? (by rw [hsyncs]) (by rw [hsyncs]) hfiles⟩
  · by_cases hid : id = base
    · subst hid
      obtain ⟨hnone, hdb'⟩ := hdone.closing_base hclosing
      rw [hnone, hdb']
      exact ⟨by simp, hdone⟩
    · obtain ⟨⟨hbase, hrerun⟩, hbase', hrerun'⟩ := h.closing_elsewhere hid hclosing
      exact ⟨not_or.2 ⟨hbase, hrerun⟩, hdone.of_find? hbase' hrerun' hfiles⟩

end Steps

section Runs

variable {steps : List (Clock × FollowUp)}

theorem Linked.pursueAll (h : db.Linked base rerun)
    (hspares : ∀ step ∈ steps, db.Spares base step.2) : (db.pursueAll steps).2.Linked base rerun := by
  induction steps generalizing db with
  | nil => exact h
  | cons step rest ih =>
    obtain ⟨clock, step⟩ := step
    have hstep := hspares _ List.mem_cons_self
    exact ih (h.pursue hstep clock.wall) fun later hlater =>
      (pursue_follows hstep clock.wall).spares (hspares later (List.mem_cons_of_mem _ hlater))

/-- What was told that mentions one of the two. -/
def mentioning (base rerun : SyncId) (closings : List (List SyncId)) : List (List SyncId) :=
  closings.filter fun closed => base ∈ closed ∨ rerun ∈ closed

theorem Linked.pursueAll_done (h : db.Linked base rerun) (hdone : db.Done base rerun)
    (hspares : ∀ step ∈ steps, db.Spares base step.2) :
    mentioning base rerun (db.pursueAll steps).1 = [] ∧ (db.pursueAll steps).2.Done base rerun := by
  induction steps generalizing db with
  | nil => exact ⟨rfl, hdone⟩
  | cons step rest ih =>
    obtain ⟨clock, step⟩ := step
    have hstep := hspares _ List.mem_cons_self
    obtain ⟨hsilent, hdone'⟩ := h.pursue_done hdone hstep clock.wall
    obtain ⟨hrest, hlast⟩ := ih (h.pursue hstep clock.wall) hdone' fun later hlater =>
      (pursue_follows hstep clock.wall).spares (hspares later (List.mem_cons_of_mem _ hlater))
    refine ⟨?_, hlast⟩
    rw [pursueAll_cons, mentioning, List.filter_cons_of_neg (by simpa using hsilent)]
    exact hrest

/-- In a run the two wait on, or they are told together by exactly one step. -/
theorem Linked.pursueAll_waits (h : db.Linked base rerun) (hwaits : db.Waits base rerun)
    (hspares : ∀ step ∈ steps, db.Spares base step.2) :
    mentioning base rerun (db.pursueAll steps).1 = [] ∧ (db.pursueAll steps).2.Waits base rerun ∨
      mentioning base rerun (db.pursueAll steps).1 = [[base, rerun]] ∧
        (db.pursueAll steps).2.Done base rerun := by
  induction steps generalizing db with
  | nil => exact .inl ⟨rfl, hwaits⟩
  | cons step rest ih =>
    obtain ⟨clock, step⟩ := step
    have hstep := hspares _ List.mem_cons_self
    have hlinked := h.pursue hstep clock.wall
    have hrest : ∀ later ∈ rest, (db.pursue clock.wall step).2.Spares base later.2 :=
      fun later hlater =>
        (pursue_follows hstep clock.wall).spares (hspares later (List.mem_cons_of_mem _ hlater))
    rw [pursueAll_cons, mentioning]
    rcases h.pursue_waits hwaits clock.wall step with ⟨hsilent, hwaits'⟩ | ⟨htold, hdone⟩
    · rw [List.filter_cons_of_neg (by simpa using hsilent)]
      exact ih hlinked hwaits' hrest
    · obtain ⟨hnone, hlast⟩ := hlinked.pursueAll_done hdone hrest
      rw [htold, List.filter_cons_of_pos (by simp)]
      exact .inr ⟨congrArg (List.cons _) hnone, hlast⟩

theorem Counted.closing_file (h : db.Counted base) {file : FileId} {owner : Option SyncId}
    (howns : db.ownsFile base file = true) (hresolved : db.AllResolved file)
    (hclosing : FileClosing now db file owner db') :
    ∃ f, db'.files.find? file = some f ∧ f.status = .completed := by
  obtain ⟨f, hf, hsync⟩ := ownsFile_iff.1 howns
  cases hclosing with
  | refused hrefused =>
    refine ⟨f, hf, ?_⟩
    rcases h.status hf hsync with hopen | ⟨hdone, -⟩
    · have hcloses := h.fileCloses hf hsync hopen hresolved
      rw [hrefused f hf] at hcloses
      cases hcloses
    · exact hdone
  | closed =>
    refine ⟨completeFile now f, ?_, rfl⟩
    rw [Table.find?_modify, if_pos rfl, hf, Option.map_some]

theorem Linked.completed_of_mem (h : db.Linked base rerun) (hresolved : ¬ db.Unresolved base)
    (hspares : ∀ step ∈ steps, db.Spares base step.2) {clock : Clock} {file : FileId}
    {correlationId : String} (howns : db.ownsFile base file = true)
    (hmem : (clock, .closeFile file correlationId) ∈ steps) :
    ∃ f, (db.pursueAll steps).2.files.find? file = some f ∧ f.status = .completed := by
  induction steps generalizing db with
  | nil => cases hmem
  | cons step rest ih =>
    obtain ⟨clock', step⟩ := step
    have hstep := hspares _ List.mem_cons_self
    have hfollows := pursue_follows hstep clock'.wall
    have hrest : ∀ later ∈ rest, (db.pursue clock'.wall step).2.Spares base later.2 :=
      fun later hlater => hfollows.spares (hspares later (List.mem_cons_of_mem _ hlater))
    rw [pursueAll_cons]
    rcases List.mem_cons.1 hmem with heq | hmem
    · cases heq
      obtain ⟨f, hf, hdone⟩ := h.counted.closing_file howns
        (allResolved_of_not_unresolved hresolved howns) (tryCloseFile_closing clock.wall db file)
      exact (pursueAll_follows hrest).completed hf hdone
    · exact ih (h.pursue hstep clock'.wall) (hfollows.not_unresolved hresolved) hrest
        ((hfollows.ownsFile_eq base file).trans howns) hmem

theorem Linked.allCompleted_of_closed (h : db.Linked base rerun) (hresolved : ¬ db.Unresolved base)
    (hspares : ∀ step ∈ steps, db.Spares base step.2)
    (hclosed : ∀ file, db.ownsFile base file = true →
      ∃ clock correlationId, (clock, .closeFile file correlationId) ∈ steps) :
    (db.pursueAll steps).2.AllCompleted base := by
  intro file f hf hsync
  have howns := ownsFile_iff.2 ⟨f, hf, hsync⟩
  rw [(pursueAll_follows hspares).ownsFile_eq] at howns
  obtain ⟨clock, correlationId, hmem⟩ := hclosed file howns
  obtain ⟨f', hf', hdone⟩ := h.completed_of_mem hresolved hspares howns hmem
  rw [hf] at hf'
  cases hf'
  exact hdone

/-- After the entities of all files are resolved and every file was closed, closing the base ends the
waiting, if it has not ended before. -/
theorem Linked.resolves (h : db.Linked base rerun) (hwaits : db.Waits base rerun)
    {before after : List (Clock × FollowUp)}
    (hspares : ∀ step ∈ before ++ after, db.Spares base step.2)
    (hresolved : ¬ (db.pursueAll before).2.Unresolved base)
    (hclosed : ∀ file, db.ownsFile base file = true →
      ∃ clock correlationId, (clock, .closeFile file correlationId) ∈ after)
    (clock : Clock) (correlationId : String) :
    let steps := before ++ after ++ [(clock, .closeSync base correlationId)]
    mentioning base rerun (db.pursueAll steps).1 = [[base, rerun]] ∧
      (db.pursueAll steps).2.Done base rerun := by
  intro steps
  have hbefore : ∀ step ∈ before, db.Spares base step.2 :=
    fun step hstep => hspares step (List.mem_append_left _ hstep)
  have hfollows := pursueAll_follows hbefore
  have hcompleted : (db.pursueAll (before ++ after)).2.AllCompleted base := by
    rw [pursueAll_append]
    refine (h.pursueAll hbefore).allCompleted_of_closed hresolved (fun step hstep => ?_)
      fun file howns => hclosed file ((hfollows.ownsFile_eq base file).symm.trans howns)
    exact hfollows.spares (hspares step (List.mem_append_right _ hstep))
  have hlast : (db.pursueAll steps).2 =
      ((db.pursueAll (before ++ after)).2.tryCloseSync clock.wall base).2 := by
    rw [pursueAll_append]
    rfl
  have hclosing := tryCloseSync_closing clock.wall (db.pursueAll (before ++ after)).2 base
  have hdone : (db.pursueAll steps).2.Done base rerun := by
    rw [hlast]
    rcases h.pursueAll_waits hwaits hspares with ⟨-, hwaits'⟩ | ⟨-, hdone⟩
    · exact (h.pursueAll hspares).closing_done hwaits' hcompleted hclosing
    · rw [(hdone.closing_base hclosing).2]
      exact hdone
  have hsteps : ∀ step ∈ steps, db.Spares base step.2 := by
    intro step hstep
    rcases List.mem_append.1 hstep with hstep | hstep
    · exact hspares step hstep
    · rw [List.mem_singleton.1 hstep]
      trivial
  rcases h.pursueAll_waits hwaits hsteps with ⟨-, hwaits'⟩ | hresolves
  · have hfailed := hwaits'.base_failed
    rw [hdone.base_completed] at hfailed
    cases hfailed
  · exact hresolves

end Runs

end SyncCascade.Database
