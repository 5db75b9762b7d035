import SyncCascade.Proofs.Rerun.Attempt
import SyncCascade.Proofs.Trace

/-!
# The calls of a rerun and their order

The calls of an attempt follow one order, which the answers decide. An attempt that comes to the end of
the order commits; one that meets a failure, or an answer that forbids the rerun or leaves it without a
number, ends there and is undone. So the entities are archived before any of them is reset or a file
reopened, and after the base closed there is only the commit.
-/

namespace SyncCascade

def Event.isCall : Event → Bool
  | call .. => true
  | _ => false

def StoreCall.resets : StoreCall → Bool
  | reopenFiles _ | resetEntities _ => true
  | _ => false

namespace Rerun

/-- The answers to the calls of an attempt that comes to the end of them. -/
structure Answers where
  row : SyncRun
  latest : Option SyncRun
  deleted : Nat
  closed : List SyncId
  archived : Nat
  reopened : Nat
  reset : Nat
  reread : Option SyncRun

namespace Answers

def first (row : SyncRun) (latest : Option SyncRun) : Answers := ⟨row, latest, 0, [], 0, 0, 0, none⟩

variable (a : Answers) (base : SyncId) (request : RerunRequest)

def opening : List Event :=
  [.call (.findSync base) (.ok (some a.row)), .call (.latestRerun base) (.ok a.latest),
    .call (.findSync request.id) (.ok none), .call (.deleteEmptyFiles base) (.ok a.deleted)]

def trimming : List Event :=
  if a.deleted = 0 then []
  else
    [.call (.decrementTotalFiles base a.deleted) (.ok ()),
      .call (.tryCloseSync base) (.ok a.closed)]

/-- Without its empty files the base could close. -/
def closesBase : Bool := a.deleted != 0 && !a.closed.isEmpty

def rereading : List Event :=
  if a.deleted = 0 then [] else [.call (.findSync base) (.ok a.reread)]

def rerun (number : Int32) : SyncRun :=
  newRow base a.row number
    (if a.deleted = 0 then a.row.totalFiles else a.reread.bind SyncRun.totalFiles) request

def insertion : List Event :=
  match nextNumber a.latest with
  | .ok number => [.call (.insertSync (a.rerun base request number)) (.ok ())]
  | .error _ => []

def building : List Event :=
  .call (.archiveEntities base request.id) (.ok a.archived) ::
    .call (.reopenFiles base) (.ok a.reopened) ::
    .call (.resetEntities base) (.ok a.reset) :: (a.rereading base ++ a.insertion base request)

def calls : List Event :=
  a.opening base request ++ a.trimming base ++
    if a.closesBase then [] else a.building base request

variable {a}

theorem trimming_of_eq_zero (h : a.deleted = 0) : a.trimming base = [] := if_pos h

theorem trimming_of_ne_zero (h : a.deleted ≠ 0) : a.trimming base =
    [.call (.decrementTotalFiles base a.deleted) (.ok ()),
      .call (.tryCloseSync base) (.ok a.closed)] :=
  if_neg h

theorem insertion_of_ok {number : Int32} (h : nextNumber a.latest = .ok number) :
    a.insertion base request = [.call (.insertSync (a.rerun base request number)) (.ok ())] := by
  unfold insertion
  rw [h]

theorem insertion_of_error {e : Failure} (h : nextNumber a.latest = .error e) :
    a.insertion base request = [] := by
  unfold insertion
  rw [h]

theorem building_of_eq_zero (h : a.deleted = 0) : a.building base request =
    .call (.archiveEntities base request.id) (.ok a.archived) ::
      .call (.reopenFiles base) (.ok a.reopened) :: .call (.resetEntities base) (.ok a.reset) ::
      a.insertion base request := by
  unfold building rereading
  rw [if_pos h]
  rfl

theorem building_of_ne_zero (h : a.deleted ≠ 0) : a.building base request =
    .call (.archiveEntities base request.id) (.ok a.archived) ::
      .call (.reopenFiles base) (.ok a.reopened) :: .call (.resetEntities base) (.ok a.reset) ::
      .call (.findSync base) (.ok a.reread) :: a.insertion base request := by
  unfold building rereading
  rw [if_neg h]
  rfl

theorem calls_of_builds (h : a.closesBase = false) : a.calls base request =
    a.opening base request ++ a.trimming base ++ a.building base request := by
  unfold calls
  rw [h, if_neg Bool.false_ne_true]

end Answers

def Answers.Numbered (a : Answers) : Prop :=
  a.closesBase = false → ∃ number, nextNumber a.latest = .ok number

/-- All calls of an attempt that comes to its commit. -/
def Complete (base : SyncId) (request : RerunRequest) (calls : List Event) : Prop :=
  ∃ a : Answers, obstacle base a.row a.latest = none ∧ a.Numbered ∧ calls = a.calls base request

/-- After these calls of an attempt this one may come. -/
def Next (base : SyncId) (request : RerunRequest) (done : List Event) (c : StoreCall) : Prop :=
  ∃ (a : Answers) (reply : c.Reply), obstacle base a.row a.latest = none ∧
    done ++ [.call c (.ok reply)] <+: a.calls base request

section Next

variable {base : SyncId} {request : RerunRequest} {done : List Event}

theorem Answers.next (a : Answers) (hclear : obstacle base a.row a.latest = none) {c : StoreCall}
    (reply : c.Reply) (h : done ++ [.call c (.ok reply)] <+: a.calls base request) :
    Next base request done c :=
  ⟨a, reply, hclear, h⟩

theorem Answers.next_building (a : Answers) (hclear : obstacle base a.row a.latest = none)
    (hbuilds : a.closesBase = false) {made : List Event} {c : StoreCall} (reply : c.Reply)
    (h : made ++ [.call c (.ok reply)] <+: a.building base request) :
    Next base request (a.opening base request ++ a.trimming base ++ made) c := by
  refine a.next hclear reply ?_
  rw [a.calls_of_builds base request hbuilds, List.append_assoc _ made]
  exact (List.prefix_append_right_inj _).2 h

end Next

/-- The calls of an attempt that is given up: the last one failed, or its answer forbids the rerun, or all
went well but no number is left. -/
inductive Stopped (base : SyncId) (request : RerunRequest) : List Event → Prop
  | erred {done : List Event} {c : StoreCall} (h : Next base request done c) (e : Failure) :
      Stopped base request (done ++ [.call c (.error e)])
  | missing : Stopped base request [.call (.findSync base) (.ok none)]
  | barred {row : SyncRun} {f : Failure} (h : obstacle base row none = some f) :
      Stopped base request [.call (.findSync base) (.ok (some row))]
  | barredByRerun {row : SyncRun} {latest : Option SyncRun} {f : Failure}
      (hrow : obstacle base row none = none) (h : obstacle base row latest = some f) :
      Stopped base request
        [.call (.findSync base) (.ok (some row)), .call (.latestRerun base) (.ok latest)]
  | taken {row other : SyncRun} {latest : Option SyncRun} (h : obstacle base row latest = none) :
      Stopped base request
        [.call (.findSync base) (.ok (some row)), .call (.latestRerun base) (.ok latest),
          .call (.findSync request.id) (.ok (some other))]
  | unnumbered {a : Answers} {e : Failure} (hclear : obstacle base a.row a.latest = none)
      (hbuilds : a.closesBase = false) (h : nextNumber a.latest = .error e) :
      Stopped base request (a.calls base request)

/-- The events of one attempt. -/
inductive InOrder (level : IsolationLevel) (base : SyncId) (request : RerunRequest) :
    List Event → Prop
  | notStarted (e : Failure) : InOrder level base request [.start level (.error e)]
  | stopped {calls : List Event} (h : Stopped base request calls) :
      InOrder level base request (.start level (.ok ()) :: calls ++ [.rollback])
  | finished {calls : List Event} (h : Complete base request calls) (answer : Except Failure Unit) :
      InOrder level base request (.start level (.ok ()) :: calls ++ [.commit answer])

/-- Nothing is reopened or reset before the archiving succeeded. -/
def ArchivesFirst (base rerun : SyncId) (events : List Event) : Prop :=
  ∀ ⦃before c answer after⦄, events = before ++ .call c answer :: after → c.resets = true →
    ∃ n, .call (.archiveEntities base rerun) (.ok n) ∈ before

/-- Where a sync was told to be closed, there is only the commit after it. -/
def ClosingEnds (events : List Event) : Prop :=
  ∀ ⦃before id closed after⦄, events = before ++ .call (.tryCloseSync id) (.ok closed) :: after →
    closed ≠ [] → ∃ answer, after = [.commit answer]

section Split

variable {α : Type} {l₁ l₂ before after : List α} {x y : α}

theorem mem_before (h : l₁ ++ y :: l₂ = before ++ x :: after) (hx : x ∉ l₁) (hne : x ≠ y) :
    y ∈ before := by
  rcases List.append_eq_append_iff.1 h with ⟨as, rfl, hrest⟩ | ⟨bs, rfl, hrest⟩
  · cases as with
    | nil => exact absurd (List.cons.inj hrest).1.symm hne
    | cons a as =>
      rw [(List.cons.inj hrest).1]
      simp
  · cases bs with
    | nil => exact absurd (List.cons.inj hrest).1 hne
    | cons b bs =>
      rw [(List.cons.inj hrest).1] at hx
      simp at hx

theorem after_eq_nil (h : l₁ ++ [y] = before ++ x :: after) (hx : x ∉ l₁) : after = [] := by
  rcases List.append_eq_append_iff.1 h with ⟨as, rfl, hrest⟩ | ⟨bs, rfl, hrest⟩
  · cases as with
    | nil => exact (List.cons.inj hrest).2.symm
    | cons a as => simp at hrest
  · cases bs with
    | nil => exact (List.cons.inj hrest).2
    | cons b bs =>
      rw [(List.cons.inj hrest).1] at hx
      simp at hx

/-- What stands strictly between the first and the last element stands in the list between them. -/
theorem split_between {first last : α} (h : first :: l₁ ++ [last] = before ++ x :: after)
    (hfirst : x ≠ first) (hlast : x ≠ last) :
    ∃ before' after', before = first :: before' ∧ after = after' ++ [last] ∧
      l₁ = before' ++ x :: after' := by
  cases before with
  | nil => exact absurd (List.cons.inj h).1.symm hfirst
  | cons b before =>
    rw [List.cons_append, List.cons_append, List.cons.injEq] at h
    obtain ⟨rfl, h⟩ := h
    rcases List.eq_nil_or_concat' after with rfl | ⟨after, z, rfl⟩
    · exact absurd (List.cons.inj (List.append_inj' h rfl).2).1.symm hlast
    · rw [← List.cons_append, ← List.append_assoc] at h
      obtain ⟨hl, hz⟩ := List.append_inj' h rfl
      exact ⟨before, after, rfl, by rw [hz], hl⟩

end Split

section Consequences

variable {base : SyncId} {request : RerunRequest} {calls before after : List Event} {c : StoreCall}
  {answer : Except Failure c.Reply}

theorem Answers.not_resets (a : Answers)
    (h : .call c answer ∈ a.opening base request ++ a.trimming base) : c.resets = false := by
  rcases List.mem_append.1 h with h | h
  · simp only [opening, List.mem_cons, Event.call.injEq, List.not_mem_nil, or_false] at h
    rcases h with ⟨rfl, -⟩ | ⟨rfl, -⟩ | ⟨rfl, -⟩ | ⟨rfl, -⟩ <;> rfl
  · unfold trimming at h
    split at h
    · cases h
    · simp only [List.mem_cons, Event.call.injEq, List.not_mem_nil, or_false] at h
      rcases h with ⟨rfl, -⟩ | ⟨rfl, -⟩ <;> rfl

theorem Answers.archives_first (a : Answers) :
    ArchivesFirst base request.id (a.calls base request) := by
  intro before c answer after hsplit hresets
  have hfront : ¬ Event.call c answer ∈ a.opening base request ++ a.trimming base := fun hmem => by
    rw [a.not_resets hmem] at hresets
    cases hresets
  cases hcloses : a.closesBase with
  | true =>
    refine absurd ?_ hfront
    unfold Answers.calls at hsplit
    rw [hcloses, if_pos rfl, List.append_nil] at hsplit
    rw [hsplit]
    simp
  | false =>
    rw [a.calls_of_builds base request hcloses] at hsplit
    refine ⟨a.archived, mem_before hsplit hfront ?_⟩
    rintro heq
    cases heq
    cases hresets

theorem Answers.isCall (a : Answers) : ∀ e ∈ a.calls base request, e.isCall = true := by
  unfold calls opening trimming building rereading insertion
  cases nextNumber a.latest <;> split_ifs <;> simp [Event.isCall]

theorem Answers.closing_mem (a : Answers) {id : SyncId} {closed : List SyncId}
    (h : .call (.tryCloseSync id) (.ok closed) ∈ a.calls base request) :
    a.deleted ≠ 0 ∧ a.closed = closed := by
  have hinsertion : ¬ Event.call (.tryCloseSync id) (.ok closed) ∈ a.insertion base request := by
    unfold insertion
    split <;> simp
  unfold calls opening trimming building rereading at h
  split_ifs at h <;> simp_all

theorem Answers.closing_last (a : Answers) {id : SyncId} {closed : List SyncId}
    (h : a.calls base request = before ++ .call (.tryCloseSync id) (.ok closed) :: after)
    (hsome : closed ≠ []) : after = [] := by
  obtain ⟨hne, rfl⟩ := a.closing_mem (h ▸ List.mem_append_right _ List.mem_cons_self)
  have hcloses : a.closesBase = true := by simp [closesBase, hne, hsome]
  have hcalls : a.calls base request =
      (a.opening base request ++ [.call (.decrementTotalFiles base a.deleted) (.ok ())]) ++
        [.call (.tryCloseSync base) (.ok a.closed)] := by
    unfold calls
    rw [hcloses, a.trimming_of_ne_zero base hne, if_pos rfl, List.append_nil, List.append_assoc]
    rfl
  rw [hcalls] at h
  exact after_eq_nil h (by simp [opening])

/-- An attempt is given up at a call that comes next, and not because it closed the base. -/
theorem Stopped.at_call (h : Stopped base request calls) :
    ∃ (a : Answers) (done : List Event) (c : StoreCall) (answer : Except Failure c.Reply)
      (reply : c.Reply) (rest : List Event), calls = done ++ [.call c answer] ∧
        a.calls base request = done ++ .call c (.ok reply) :: rest ∧
        ∀ id closed, Event.call c answer ≠ .call (.tryCloseSync id) (.ok closed) := by
  cases h with
  | @erred done c hnext e =>
    obtain ⟨a, reply, -, rest, hrest⟩ := hnext
    refine ⟨a, done, c, .error e, reply, rest, rfl, ?_, ?_⟩
    · rw [← hrest, List.append_assoc]
      rfl
    · rintro id closed heq
      cases heq
  | missing =>
    exact ⟨.first (Sample.baseRow 0) none, [], _, _, _, _, rfl, rfl, by simp⟩
  | @barred row =>
    exact ⟨.first row none, [], _, _, _, _, rfl, rfl, by simp⟩
  | @barredByRerun row latest =>
    exact ⟨.first row latest, [_], _, _, _, _, rfl, rfl, by simp⟩
  | @taken row other latest =>
    exact ⟨.first row latest, [_, _], _, _, _, _, rfl, rfl, by simp⟩
  | @unnumbered a e _ hbuilds h =>
    -- without the insertion the resetting is the last call, or the reading of the base after it
    have hcalls := a.calls_of_builds base request hbuilds
    let front := a.opening base request ++ a.trimming base ++
      [.call (.archiveEntities base request.id) (.ok a.archived),
        .call (.reopenFiles base) (.ok a.reopened)]
    by_cases hzero : a.deleted = 0
    · rw [a.building_of_eq_zero base request hzero, a.insertion_of_error base request h] at hcalls
      have hlast : a.calls base request = front ++ [.call (.resetEntities base) (.ok a.reset)] := by
        simp [hcalls, front]
      exact ⟨a, _, _, _, _, [], hlast, hlast, by simp⟩
    · rw [a.building_of_ne_zero base request hzero, a.insertion_of_error base request h] at hcalls
      have hlast : a.calls base request = front ++ [.call (.resetEntities base) (.ok a.reset)] ++
          [.call (.findSync base) (.ok a.reread)] := by
        simp [hcalls, front]
      exact ⟨a, _, _, _, _, [], hlast, hlast, by simp⟩

theorem Stopped.isCall (h : Stopped base request calls) : ∀ e ∈ calls, e.isCall = true := by
  obtain ⟨a, done, c, answer, reply, rest, rfl, hcalls, -⟩ := h.at_call
  intro e he
  rcases List.mem_append.1 he with he | he
  · exact a.isCall e (hcalls ▸ List.mem_append_left _ he)
  · rw [List.mem_singleton.1 he]
    rfl

theorem Stopped.archives_first (h : Stopped base request calls) :
    ArchivesFirst base request.id calls := by
  obtain ⟨a, done, c, answer, reply, rest, rfl, hcalls, -⟩ := h.at_call
  intro before c' answer' after hsplit hresets
  rcases List.eq_nil_or_concat' after with rfl | ⟨after, last, rfl⟩
  · obtain ⟨rfl, hlast⟩ := List.append_inj' hsplit rfl
    cases hlast
    exact a.archives_first hcalls hresets
  · rw [← List.cons_append, ← List.append_assoc] at hsplit
    obtain ⟨rfl, -⟩ := List.append_inj' hsplit rfl
    rw [List.append_assoc] at hcalls
    exact a.archives_first hcalls hresets

theorem Stopped.not_closed (h : Stopped base request calls) (id : SyncId) {closed : List SyncId}
    (hsome : closed ≠ []) : ¬ .call (.tryCloseSync id) (.ok closed) ∈ calls := by
  obtain ⟨a, done, c, answer, reply, rest, rfl, hcalls, hlast⟩ := h.at_call
  intro hmem
  rcases List.mem_append.1 hmem with hmem | hmem
  · obtain ⟨before, after, rfl⟩ := List.append_of_mem hmem
    rw [List.append_assoc] at hcalls
    have hnil := a.closing_last hcalls hsome
    simp at hnil
  · exact hlast id closed (List.mem_singleton.1 hmem).symm

theorem ArchivesFirst.between {rerun : SyncId} {first last : Event}
    (h : ArchivesFirst base rerun calls) (hfirst : first.isCall = false)
    (hlast : last.isCall = false) : ArchivesFirst base rerun (first :: calls ++ [last]) := by
  intro before c answer after hsplit hresets
  obtain ⟨before, after, rfl, -, hcalls⟩ := split_between hsplit
    (by rintro rfl; cases hfirst) (by rintro rfl; cases hlast)
  obtain ⟨n, hn⟩ := h hcalls hresets
  exact ⟨n, List.mem_cons_of_mem _ hn⟩

theorem InOrder.archives_first {level : IsolationLevel} {events : List Event}
    (h : InOrder level base request events) : ArchivesFirst base request.id events := by
  cases h with
  | notStarted e =>
    intro before c answer after hsplit
    have hmem : Event.call c answer ∈ [.start level (.error e)] := by simp [hsplit]
    simp at hmem
  | stopped h => exact h.archives_first.between rfl rfl
  | finished h answer =>
    obtain ⟨a, -, -, rfl⟩ := h
    exact a.archives_first.between rfl rfl

theorem InOrder.closing_ends {level : IsolationLevel} {events : List Event}
    (h : InOrder level base request events) : ClosingEnds events := by
  intro before id closed after hsplit hsome
  cases h with
  | notStarted e =>
    have hmem : Event.call (.tryCloseSync id) (.ok closed) ∈ [.start level (.error e)] := by
      simp [hsplit]
    simp at hmem
  | stopped h =>
    obtain ⟨before, after, -, -, hcalls⟩ := split_between hsplit nofun nofun
    refine absurd ?_ (h.not_closed id hsome)
    simp [hcalls]
  | finished h answer =>
    obtain ⟨a, -, -, rfl⟩ := h
    obtain ⟨before, after, -, rfl, hcalls⟩ := split_between hsplit nofun nofun
    rw [a.closing_last hcalls hsome]
    exact ⟨answer, rfl⟩

end Consequences

end Rerun

end SyncCascade
