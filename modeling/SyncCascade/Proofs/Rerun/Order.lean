import SyncCascade.Proofs.Rerun.Calls

/-!
# Reruns over any storage

Whatever a storage answers, the calls that an attempt makes of it come in the order of the calls of a
rerun, and one attempt follows another until one commits or the transaction is given up. The events
that a traced storage writes down tell so.
-/

namespace SyncCascade

namespace Rerun

section Heard

open SyncCascade.Action

variable {σ β α : Type} {S : Storage σ} {base : SyncId} {request : RerunRequest}
  {before done : List Event} {w : World (Traced σ) β}

def Heard (events : List Event) (w : World (Traced σ) β) : Prop := w.store.events = events

theorem heard_blind {events : List Event} : World.Blind (Heard (σ := σ) (β := β) events) :=
  fun _ _ _ h => h

theorem step_heard {ρ : Type} (event : Except Failure ρ → Event)
    {f : Clock → Traced σ → Except Failure ρ × Traced σ}
    (hf : ∀ clock t, (f clock t).2.events = t.events ++ [event (f clock t).1]) (h : Heard done w) :
    (onStore f : Action (Traced σ) β ρ).Ensures w
      (fun r w' => Heard (done ++ [event (.ok r)]) w')
      fun e w' => Heard (done ++ [event (.error e)]) w' := by
  have hevents := hf w.clock w.store
  rw [h] at hevents
  rw [ensures_onStore]
  generalize f w.clock w.store = out at hevents ⊢
  obtain ⟨e | r, t⟩ := out
  · exact hevents
  · exact hevents

theorem query_heard (c : StoreCall) (h : Heard done w) :
    (Transaction.query S.traced c).Ensures w
      (fun reply w' => Heard (done ++ [.call c (.ok reply)]) w')
      fun e w' => Heard (done ++ [.call c (.error e)]) w' := by
  unfold Transaction.query
  refine Ensures.announcingIf ?_ (fun _ => heard_blind) _
  exact step_heard (.call c) (fun _ t => t.events_next _ _) h

theorem start_heard (level : IsolationLevel) (h : Heard done w) :
    (Transaction.start S.traced level).Ensures w
      (fun _ w' => Heard (done ++ [.start level (.ok ())]) w')
      fun e w' => Heard (done ++ [.start level (.error e)]) w' := by
  unfold Transaction.start
  refine Ensures.announcingIf ?_ (fun _ => heard_blind) _
  exact step_heard (.start level) (fun _ t => t.events_next _ _) h

theorem commit_heard (h : Heard done w) :
    (Transaction.commit S.traced).Ensures w (fun _ w' => Heard (done ++ [.commit (.ok ())]) w')
      fun e w' => Heard (done ++ [.commit (.error e)]) w' :=
  step_heard .commit (fun _ t => t.events_next _ _) h

/-- After those before, events were written down of which `P` holds. -/
def HeardAfter (before : List Event) (P : List Event → Prop) (w : World (Traced σ) β) : Prop :=
  ∃ events, P events ∧ Heard (before ++ events) w

theorem query_bind_heard {front made : List Event} {c : StoreCall}
    {k : c.Reply → Action (Traced σ) β α} {R : α → World (Traced σ) β → Prop}
    (h : Heard (before ++ (front ++ made)) w) (hnext : Next base request (front ++ made) c)
    (hk : ∀ reply w, Heard (before ++ (front ++ (made ++ [.call c (.ok reply)]))) w →
      (k reply).Ensures w R fun _ w' => HeardAfter before (Stopped base request) w') :
    (Transaction.query S.traced c >>= k).Ensures w R
      fun _ w' => HeardAfter before (Stopped base request) w' := by
  rw [ensures_bind]
  refine (query_heard c h).mono (fun reply w' h' => hk reply w' ?_) fun e w' h' => ?_
  · rwa [← List.append_assoc front, ← List.append_assoc before]
  · refine ⟨_, .erred hnext e, ?_⟩
    rwa [← List.append_assoc before]

/-- The insertion ends an attempt that went on until there. Without a number it ends before. -/
theorem insertNext_heard (a : Answers) (hclear : obstacle base a.row a.latest = none)
    (hbuilds : a.closesBase = false) {made : List Event} {total : Option Int32}
    (htotal : total = if a.deleted = 0 then a.row.totalFiles else a.reread.bind SyncRun.totalFiles)
    (hmade : a.building base request = made ++ a.insertion base request)
    (h : Heard (before ++ (a.opening base request ++ a.trimming base ++ made)) w)
    (report : SyncRun → Notice) :
    (insertNext S.traced base a.row a.latest total request report).Ensures w
      (fun _ w' => HeardAfter before (Complete base request) w')
      fun _ w' => HeardAfter before (Stopped base request) w' := by
  subst htotal
  have hcalls : a.calls base request =
      a.opening base request ++ a.trimming base ++ (made ++ a.insertion base request) := by
    rw [a.calls_of_builds base request hbuilds, hmade]
  unfold insertNext
  rw [ensures_bind, ensures_ofExcept]
  cases hnumber : nextNumber a.latest with
  | error e =>
    rw [a.insertion_of_error base request hnumber, List.append_nil] at hcalls
    refine ⟨_, .unnumbered hclear hbuilds hnumber, ?_⟩
    rw [hcalls]
    exact h
  | ok number =>
    rw [a.insertion_of_ok base request hnumber] at hcalls
    refine query_bind_heard h (a.next hclear () ⟨[], ?_⟩) fun _ w₁ h₁ => ?_
    · rw [hcalls, List.append_nil, List.append_assoc _ made]
      rfl
    refine ensures_note_bind heard_blind h₁ fun w₂ h₂ => ⟨_, ⟨a, hclear, ?_, ?_⟩, h₂⟩
    · exact fun _ => ⟨number, hnumber⟩
    · rw [hcalls]
      rfl

theorem build_heard (a : Answers) (hclear : obstacle base a.row a.latest = none)
    (hbuilds : a.closesBase = false)
    (h : Heard (before ++ (a.opening base request ++ a.trimming base)) w) :
    (build S.traced base a.row a.latest a.deleted request).Ensures w
      (fun _ w' => HeardAfter before (Complete base request) w')
      fun _ w' => HeardAfter before (Stopped base request) w' := by
  have h₀ : Heard (before ++ (a.opening base request ++ a.trimming base ++ [])) w := by
    rwa [List.append_nil]
  unfold build
  refine query_bind_heard h₀ (a.next_building hclear hbuilds _ ⟨_, rfl⟩) fun archived w₁ h₁ => ?_
  let a₁ : Answers := { a with archived := archived }
  refine query_bind_heard h₁ (a₁.next_building hclear hbuilds _ ⟨_, rfl⟩) fun reopened w₂ h₂ => ?_
  let a₂ : Answers := { a₁ with reopened := reopened }
  refine query_bind_heard h₂ (a₂.next_building hclear hbuilds _ ⟨_, rfl⟩) fun reset w₃ h₃ => ?_
  let a₃ : Answers := { a₂ with reset := reset }
  dsimp only
  split
  next hzero =>
    rw [ensures_bind, ensures_pure]
    exact insertNext_heard a₃ hclear hbuilds (if_pos hzero).symm
      (a₃.building_of_eq_zero base request hzero) h₃ _
  next hne =>
    refine query_bind_heard h₃ (a₃.next_building hclear hbuilds a₃.reread ?_)
      fun reread w₄ h₄ => ?_
    · rw [a₃.building_of_ne_zero base request hne]
      exact ⟨_, rfl⟩
    let a₄ : Answers := { a₃ with reread := reread }
    rw [ensures_bind, ensures_pure]
    exact insertNext_heard a₄ hclear hbuilds (if_neg hne).symm
      (a₄.building_of_ne_zero base request hne) h₄ _

theorem checkLatest_heard {row : SyncRun} {latest : Option SyncRun}
    {k : Unit → Action (Traced σ) β α} {R : α → World (Traced σ) β → Prop}
    (hbarred : ∀ f, obstacle base row latest = some f → HeardAfter before (Stopped base request) w)
    (hk : obstacle base row latest = none →
      (k ()).Ensures w R fun _ w' => HeardAfter before (Stopped base request) w') :
    (checkLatest base row latest >>= k).Ensures w R
      fun _ w' => HeardAfter before (Stopped base request) w' := by
  unfold checkLatest
  cases hf : obstacle base row latest with
  | none => exact ensures_bind.2 (hk hf)
  | some f => exact ensures_bind.2 (hbarred f hf)

theorem checkBase_eq (base : SyncId) (row : SyncRun) :
    (checkBase base row : Action σ β Unit) = checkLatest base row none := rfl

theorem trim_heard {row : SyncRun} {latest : Option SyncRun}
    (hclear : obstacle base row latest = none)
    (h : Heard (before ++ [.call (.findSync base) (.ok (some row)),
      .call (.latestRerun base) (.ok latest), .call (.findSync request.id) (.ok none)]) w) :
    (do
      let deleted ← Transaction.query S.traced (.deleteEmptyFiles base)
      if deleted = 0 then build S.traced base row latest deleted request
      else
        Transaction.query S.traced (.decrementTotalFiles base deleted)
        let closed ← Transaction.query S.traced (.tryCloseSync base)
        if closed.isEmpty then build S.traced base row latest deleted request
        else pure (.notCreated closed) : Action (Traced σ) β RerunOutcome).Ensures w
      (fun _ w' => HeardAfter before (Complete base request) w')
      fun _ w' => HeardAfter before (Stopped base request) w' := by
  let a₀ := Answers.first row latest
  have h₀ : Heard (before ++ ([] ++ [.call (.findSync base) (.ok (some row)),
    .call (.latestRerun base) (.ok latest), .call (.findSync request.id) (.ok none)])) w := h
  refine query_bind_heard h₀ (a₀.next hclear a₀.deleted ⟨_, rfl⟩) fun deleted w₁ h₁ => ?_
  let a₁ : Answers := { a₀ with deleted := deleted }
  split
  next hzero =>
    refine build_heard a₁ hclear ?_ ?_
    · simp [Answers.closesBase, a₁, hzero]
    · rw [a₁.trimming_of_eq_zero base hzero]
      exact h₁
  next hne =>
    refine query_bind_heard h₁ (a₁.next hclear () ?_) fun _ w₂ h₂ => ?_
    · unfold Answers.calls
      rw [a₁.trimming_of_ne_zero base hne]
      exact ⟨_, rfl⟩
    refine query_bind_heard h₂ (a₁.next hclear a₁.closed ?_) fun closed w₃ h₃ => ?_
    · unfold Answers.calls
      rw [a₁.trimming_of_ne_zero base hne]
      exact ⟨_, rfl⟩
    let a₂ : Answers := { a₁ with closed := closed }
    split
    next hnone =>
      refine build_heard a₂ hclear ?_ ?_
      · simp [Answers.closesBase, a₂, hnone]
      · rw [a₂.trimming_of_ne_zero base hne]
        exact h₃
    next hsome =>
      have hcloses : a₂.closesBase = true := by simp [Answers.closesBase, a₂, a₁, hne, hsome]
      refine ⟨_, ⟨a₂, hclear, fun hbuilds => ?_, ?_⟩, h₃⟩
      · cases hbuilds.symm.trans hcloses
      unfold Answers.calls
      rw [a₂.trimming_of_ne_zero base hne, hcloses]
      rfl

theorem attempt_heard (h : Heard before w) :
    (attempt S.traced base request).Ensures w (fun _ w' => HeardAfter before (Complete base request) w')
      fun _ w' => HeardAfter before (Stopped base request) w' := by
  -- every order begins with the same call
  let a₀ := Answers.first (Sample.baseRow 0) none
  have h₀ : Heard (before ++ ([] ++ [])) w := by simpa using h
  unfold attempt
  refine query_bind_heard h₀ (a₀.next rfl (some a₀.row) ⟨_, rfl⟩) fun found w₁ h₁ => ?_
  cases found with
  | none => exact ⟨_, .missing, h₁⟩
  | some row =>
    dsimp only
    rw [checkBase_eq]
    refine checkLatest_heard (fun f hf => ⟨_, .barred hf, h₁⟩) fun hrow => ?_
    let a₁ : Answers := { a₀ with row := row }
    refine query_bind_heard h₁ (a₁.next hrow a₁.latest ⟨_, rfl⟩) fun latest w₂ h₂ => ?_
    refine checkLatest_heard (fun f hf => ⟨_, .barredByRerun hrow hf, h₂⟩) fun hclear => ?_
    let a₂ : Answers := { a₁ with latest := latest }
    refine query_bind_heard h₂ (a₂.next hclear none ⟨_, rfl⟩) fun taken w₃ h₃ => ?_
    cases taken with
    | some other => exact ⟨_, .taken hclear, h₃⟩
    | none => exact trim_heard hclear h₃

end Heard

section Attempts

open SyncCascade.Action

variable {σ β : Type} {S : Storage σ} {base : SyncId} {request : RerunRequest}
  {level : IsolationLevel} {before : List Event} {w : World (Traced σ) β}

theorem not_committed {first last : Event} {calls : List Event}
    (hcalls : ∀ e ∈ calls, e.isCall = true) (hfirst : first ≠ .commit (.ok ()))
    (hlast : last ≠ .commit (.ok ())) : ¬ .commit (.ok ()) ∈ first :: calls ++ [last] := by
  intro h
  rcases List.mem_append.1 h with h | h
  · rcases List.mem_cons.1 h with h | h
    · exact hfirst h.symm
    · cases hcalls _ h
  · exact hlast (List.mem_singleton.1 h).symm

def Succeeded (level : IsolationLevel) (base : SyncId) (request : RerunRequest)
    (events : List Event) : Prop :=
  InOrder level base request events ∧ .commit (.ok ()) ∈ events

def Failed (level : IsolationLevel) (base : SyncId) (request : RerunRequest)
    (events : List Event) : Prop :=
  InOrder level base request events ∧ ¬ .commit (.ok ()) ∈ events

theorem once_heard (level : IsolationLevel) (h : Heard before w) :
    (Transaction.once S.traced level (attempt S.traced base request)).Ensures w
      (fun _ w' => HeardAfter before (Succeeded level base request) w')
      fun _ w' => HeardAfter before (Failed level base request) w' := by
  refine Transaction.once_ensures ?_
  refine (start_heard level h).mono (fun _ w₁ h₁ => ?_) fun e w₁ h₁ =>
    ⟨_, ⟨.notStarted e, by simp⟩, h₁⟩
  refine (attempt_heard h₁).mono ?_ ?_
  case refine_1 =>
    rintro _ w₂ ⟨calls, ⟨a, hclear, hnumbered, rfl⟩, h₂⟩
    refine (commit_heard h₂).mono (fun _ w₃ h₃ => ?_) fun e w₃ h₃ => ?_
    · refine ⟨_, ⟨.finished ⟨a, hclear, hnumbered, rfl⟩ (.ok ()), by simp⟩, ?_⟩
      simpa using h₃
    · refine ⟨_, ⟨.finished ⟨a, hclear, hnumbered, rfl⟩ (.error e), not_committed a.isCall nofun nofun⟩, ?_⟩
      simpa using h₃
  case refine_2 =>
    rintro _ w₂ ⟨calls, hstopped, h₂⟩
    refine ⟨_, ⟨.stopped hstopped, not_committed hstopped.isCall nofun nofun⟩, ?_⟩
    have hevents : w₂.store.events = _ := h₂
    change (w₂.store.next .rollback _).events = _
    rw [Traced.events_next, hevents]
    simp

def HeardAttempts (level : IsolationLevel) (base : SyncId) (request : RerunRequest)
    (P : List Event → Prop) (w : World (Traced σ) β) : Prop :=
  ∃ earlier : List (List Event), (∀ a ∈ earlier, Failed level base request a) ∧
    HeardAfter earlier.flatten P w

theorem heardAttempts_blind {P : List Event → Prop} :
    World.Blind (HeardAttempts (σ := σ) (β := β) level base request P) := fun _ _ _ h => h

theorem run_heard {config : TransactionConfig} (hallowed : 0 < config.retry.attempts)
    (context : WorkContext) (h : Heard [] w) :
    (Transaction.run S.traced config context (attempt S.traced base request)).Ensures w
      (fun _ w' => HeardAttempts config.isolation base request
        (Succeeded config.isolation base request) w')
      fun _ w' => HeardAttempts config.isolation base request
        (Failed config.isolation base request) w' := by
  refine Transaction.withRetries_rule (fun hnone => absurd hnone (Nat.ne_of_gt hallowed)) ?_
  refine Transaction.repeating_rule
    (P := fun _ => HeardAttempts config.isolation base request (· = []))
    (fun _ => heardAttempts_blind) (fun _ => heardAttempts_blind) ?_ context _ 1
    ⟨[], nofun, [], rfl, h⟩
  rintro remaining w ⟨earlier, hfailed, _, rfl, h⟩
  rw [List.append_nil] at h
  refine (once_heard config.isolation h).mono (fun _ w' h' => ⟨earlier, hfailed, h'⟩) ?_
  rintro e w' ⟨last, hlast, h'⟩
  have hgivenUp : HeardAttempts config.isolation base request
      (Failed config.isolation base request) w' := ⟨earlier, hfailed, last, hlast, h'⟩
  -- the attempt that failed is an earlier one of the next
  have hagain : HeardAttempts config.isolation base request (· = []) w' := by
    refine ⟨earlier ++ [last], ?_, [], rfl, ?_⟩
    · exact List.forall_mem_append.2 ⟨hfailed, List.forall_mem_singleton.2 hlast⟩
    · simpa using h'
  split
  · cases remaining with
    | zero => exact hgivenUp
    | succ remaining => exact hagain
  · exact hgivenUp

theorem create_heard {config : TransactionConfig} (hallowed : 0 < config.retry.attempts)
    (h : Heard [] w) :
    (create S.traced config base request).Ensures w
      (fun _ w' => HeardAttempts config.isolation base request
        (Succeeded config.isolation base request) w')
      fun _ w' => HeardAttempts config.isolation base request
        (Failed config.isolation base request) w' := by
  unfold create
  refine Ensures.announcing ?_ fun _ => heardAttempts_blind
  rw [ensures_bind]
  refine (run_heard hallowed _ h).mono (fun outcome w' h' => ?_) fun _ _ h' => h'
  cases outcome with
  | created sync => exact h'
  | notCreated closed => exact ensures_note_bind heardAttempts_blind h' fun _ h'' => h''

/-- The result and the world after a rerun was asked for, with the trace of it. -/
def tracedCreate (S : Storage σ) (config : TransactionConfig) (base : SyncId)
    (request : RerunRequest) (w : World σ β) :
    Except Failure RerunOutcome × World (Traced σ) β :=
  (create S.traced config base request).run (w.withStore (.fresh w.store))

theorem tracedCreate_erases (S : Storage σ) (config : TransactionConfig) (base : SyncId)
    (request : RerunRequest) (w : World σ β) :
    (create S config base request).run w =
      ((tracedCreate S config base request w).1,
        (tracedCreate S config base request w).2.withStore
          (tracedCreate S config base request w).2.store.state) := by
  obtain ⟨s, hrun, hs⟩ := create_mirrors S.traced_mirrors config base request
    (w.withStore (.fresh w.store)) w.store rfl
  rw [← hs] at hrun
  exact hrun

theorem tracedCreate_heard (S : Storage σ) {config : TransactionConfig}
    (hallowed : 0 < config.retry.attempts) (base : SyncId) (request : RerunRequest) (w : World σ β) :
    HeardAttempts config.isolation base request
      (fun last => InOrder config.isolation base request last ∧
        ((tracedCreate S config base request w).1.isOk = true ↔ .commit (.ok ()) ∈ last))
      (tracedCreate S config base request w).2 := by
  have h : (create S.traced config base request).Ensures (w.withStore (.fresh w.store)) _ _ :=
    create_heard hallowed rfl
  unfold Ensures at h
  unfold tracedCreate
  split at h
  next heq =>
    obtain ⟨earlier, hfailed, last, ⟨horder, hcommitted⟩, h⟩ := h
    rw [heq]
    exact ⟨earlier, hfailed, last, ⟨horder, iff_of_true rfl hcommitted⟩, h⟩
  next heq =>
    obtain ⟨earlier, hfailed, last, ⟨horder, hnot⟩, h⟩ := h
    rw [heq]
    exact ⟨earlier, hfailed, last, ⟨horder, iff_of_false Bool.false_ne_true hnot⟩, h⟩

theorem tracedCreate_unheard (S : Storage σ) {config : TransactionConfig}
    (hnone : config.retry.attempts = 0) (base : SyncId) (request : RerunRequest) (w : World σ β) :
    (tracedCreate S config base request w).1 = .error .overflow ∧
      (tracedCreate S config base request w).2.store.events = [] := by
  have h : (create S.traced config base request).Ensures (w.withStore (.fresh w.store)) _ _ :=
    create_stops (P := Heard []) heard_blind hnone base request rfl
  unfold Ensures at h
  unfold tracedCreate
  split at h
  next => exact h.elim
  next heq =>
    rw [heq]
    exact ⟨congrArg Except.error h.1, h.2⟩

/-- Over any storage the events of a rerun are those of one attempt after another, each in order, unless
the policy allows no attempt. An attempt neither reopens a file nor resets an entity before it archived,
and does nothing but commit once the base closed. Only the last attempt may commit, and there is a result
if it does. The trace in which this is read changes nothing. -/
theorem create_in_order (S : Storage σ) (config : TransactionConfig) (base : SyncId)
    (request : RerunRequest) (w : World σ β) :
    let traced := tracedCreate S config base request w
    (create S config base request).run w =
        (traced.1, traced.2.withStore traced.2.store.state) ∧
      (config.retry.attempts = 0 ∧ traced.1 = .error .overflow ∧ traced.2.store.events = [] ∨
        ∃ (earlier : List (List Event)) (last : List Event),
          traced.2.store.events = earlier.flatten ++ last ∧
          (∀ a ∈ earlier ++ [last], InOrder config.isolation base request a ∧
            ArchivesFirst base request.id a ∧ ClosingEnds a) ∧
          (∀ a ∈ earlier, ¬ .commit (.ok ()) ∈ a) ∧
          (traced.1.isOk = true ↔ .commit (.ok ()) ∈ last)) := by
  intro traced
  refine ⟨tracedCreate_erases S config base request w, ?_⟩
  rcases Nat.eq_zero_or_pos config.retry.attempts with hnone | hallowed
  · exact .inl ⟨hnone, tracedCreate_unheard S hnone base request w⟩
  refine .inr ?_
  obtain ⟨earlier, hfailed, last, ⟨horder, hresult⟩, hevents⟩ :=
    tracedCreate_heard S hallowed base request w
  refine ⟨earlier, last, hevents, ?_, fun a ha => (hfailed a ha).2, hresult⟩
  have hall : ∀ a ∈ earlier ++ [last], InOrder config.isolation base request a :=
    List.forall_mem_append.2
      ⟨fun a ha => (hfailed a ha).1, List.forall_mem_singleton.2 horder⟩
  exact fun a ha => ⟨hall a ha, (hall a ha).archives_first, (hall a ha).closing_ends⟩

end Attempts

end Rerun

end SyncCascade
