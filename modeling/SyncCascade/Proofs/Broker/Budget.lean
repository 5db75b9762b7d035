import Mathlib.Algebra.GroupWithZero.Nat
import SyncCascade.Proofs.Broker.Tokens

/-!
# The attempts of a job

An observer who sees the calls on a lane and their replies, and nothing of its state, keeps a dossier of
every job that was added: the attempts it was given, how often it was claimed, the failures that its
owner reported, the times it stalled, and the repetitions that its owner asked for. The jobs of the lane
are as their dossiers tell, whatever the clients do: failures and stalls use up attempts, repetitions do
not, and a job fails for good with its last attempt and not before.
-/

namespace SyncCascade

/-- What is known of a job that was added. -/
structure Dossier where
  id : String
  /-- The attempts it was given. -/
  budget : Nat
  claims : Nat
  /-- The failures that its owner reported. -/
  failures : Nat
  /-- How often it was taken back because its lease had run out. -/
  stalls : Nat
  /-- The repetitions that its owner asked for. -/
  repeats : Nat

namespace Dossier

def opened (job : JobPayload) (options : LaneOptions) : Dossier :=
  ⟨job.id, max 1 options.attempts.toNat, 0, 0, 0, 0⟩

def claimed (d : Dossier) : Dossier := { d with claims := d.claims + 1 }

def failed (d : Dossier) : Dossier := { d with failures := d.failures + 1 }

def stalled (d : Dossier) : Dossier := { d with stalls := d.stalls + 1 }

def repeated (d : Dossier) : Dossier := { d with repeats := d.repeats + 1 }

def spent (d : Dossier) : Nat := d.failures + d.stalls

/-- What never changes. -/
def mark (d : Dossier) : String × Nat := (d.id, d.budget)

/-- The job has used up what the dossier says, and not all that it was given. -/
structure Describes (d : Dossier) (job : QueuedJob) : Prop where
  id : d.id = job.payload.id
  budget : job.maxAttempts = d.budget
  spent : job.attemptsMade = d.spent
  left : d.spent < d.budget

end Dossier

/-- The dossiers of the jobs that were added to a lane. -/
structure Register where
  pending : Table String Dossier
  /-- With the tokens of the claims. -/
  claimed : Table String (Nat × Dossier)
  failed : List Dossier
  /-- Of the jobs that were completed, or gave way to a newer one. -/
  closed : List Dossier

namespace Register

def empty : Register := ⟨.empty, .empty, [], []⟩

def all (r : Register) : List Dossier :=
  r.pending.rows ++ r.claimed.rows.map Prod.snd ++ r.failed ++ r.closed

def release (r : Register) (id : String) : Register := { r with claimed := r.claimed.erase id }

def add (r : Register) (d : Dossier) : Register :=
  { r with pending := r.pending.insert d.id d }

/-- Where a job goes that is no longer claimed. -/
def file (r : Register) (d : Dossier) : Disposition → Register
  | .retrying _ => r.add d
  | .superseded => { r with closed := r.closed ++ [d] }
  | .failed => { r with failed := r.failed ++ [d] }

def claim (r : Register) : Option ClaimedJob → Register
  | none => r
  | some job =>
    match r.pending.find? job.payload.id with
    | some d =>
      { r with
        pending := r.pending.erase job.payload.id
        claimed := r.claimed.insert job.payload.id (job.token, d.claimed) }
    | none => r

/-- The job is settled if the token is that of its claim. -/
def settle (r : Register) (id : String) (token : Nat) (note : Dossier → Dossier)
    (disposition : Disposition) : Register :=
  match r.claimed.find? id with
  | some c => if c.1 = token then (r.release id).file (note c.2) disposition else r
  | none => r

def stall (r : Register) (job : StalledJob) : Register :=
  match r.claimed.find? job.payload.id with
  | some c => (r.release job.payload.id).file c.2.stalled job.disposition
  | none => r

def enter (r : Register) : (c : BrokerCall) → c.Reply → Register
  | .add _ job options _, reply => if reply = .added then r.add (.opened job options) else r
  | .claim _ _, reply => r.claim reply
  | .complete _ id token, reply =>
    if reply = true then r.settle id token (fun d => d) .superseded else r
  | .fail _ id token _, reply => r.settle id token .failed reply
  | .retryLater _ payload token _, reply => r.settle payload.id token .repeated reply
  | .recoverStalled _, reply => reply.foldl stall r
  | _, _ => r

def after (lane : Lane) (r : Register) (l : Lanes) : List TimedCall → Register
  | [] => r
  | e :: rest =>
    after lane (if e.call.lane = lane then r.enter e.call (l.apply e.clock e.call).1 else r)
      (l.apply e.clock e.call).2 rest

end Register

namespace Register

/-- On the way from `r` to `r'` these jobs were added, with their attempts, and so many claims entered. -/
structure Accounts (r : Register) (added : List (String × Nat)) (claims : Nat) (r' : Register) :
    Prop where
  marks : (r'.all.map Dossier.mark).Perm (added ++ r.all.map Dossier.mark)
  claims : (r'.all.map Dossier.claims).sum = (r.all.map Dossier.claims).sum + claims

variable {r r' r'' : Register} {d : Dossier} {id : String} {token : Nat}

theorem Accounts.refl (r : Register) : r.Accounts [] 0 r := ⟨.refl _, rfl⟩

theorem Accounts.trans {added added' : List (String × Nat)} {claims claims' : Nat}
    (h : r.Accounts added claims r') (h' : r'.Accounts added' claims' r'') :
    r.Accounts (added ++ added') (claims + claims') r'' where
  marks := by
    refine h'.marks.trans ((h.marks.append_left added').trans ?_)
    rw [← List.append_assoc]
    exact List.perm_append_comm.append_right _
  claims := by rw [h'.claims, h.claims, Nat.add_assoc]

theorem accounts_of_perm {d' : Dossier} {rest : List Dossier} {claims : Nat}
    (hr : r.all.Perm (d :: rest)) (hr' : r'.all.Perm (d' :: rest)) (hmark : d'.mark = d.mark)
    (hclaims : d'.claims = d.claims + claims) : r.Accounts [] claims r' where
  marks := by
    refine (hr'.map Dossier.mark).trans ?_
    rw [List.map_cons, hmark, ← List.map_cons]
    exact (hr.map Dossier.mark).symm
  claims := by
    rw [(hr'.map Dossier.claims).sum_nat, (hr.map Dossier.claims).sum_nat, List.map_cons,
      List.map_cons, List.sum_cons, List.sum_cons, hclaims]
    omega

theorem all_pending {rest : Table String Dossier} (hpending : r.pending.rows.Perm (d :: rest.rows)) :
    r.all.Perm (d :: { r with pending := rest }.all) :=
  ((hpending.append_right _).append_right _).append_right _

theorem all_claimed {rest : Table String (Nat × Dossier)}
    (hclaimed : r.claimed.rows.Perm ((token, d) :: rest.rows)) :
    r.all.Perm (d :: { r with claimed := rest }.all) := by
  have hmiddle : (r.pending.rows ++ r.claimed.rows.map Prod.snd).Perm
      (d :: (r.pending.rows ++ rest.rows.map Prod.snd)) :=
    ((hclaimed.map Prod.snd).append_left _).trans List.perm_middle
  exact (hmiddle.append_right _).append_right _

theorem all_release (hd : r.claimed.find? id = some (token, d)) :
    r.all.Perm (d :: (r.release id).all) :=
  all_claimed (Table.rows_erase_perm hd)

theorem all_add (hfree : r.pending.contains d.id = false) : (r.add d).all.Perm (d :: r.all) :=
  all_pending (Table.rows_insert_perm hfree)

theorem all_close (r : Register) (d : Dossier) :
    { r with closed := r.closed ++ [d] }.all.Perm (d :: r.all) := by
  unfold all
  rw [← List.append_assoc]
  exact List.perm_append_singleton ..

theorem all_fail (r : Register) (d : Dossier) :
    { r with failed := r.failed ++ [d] }.all.Perm (d :: r.all) := by
  unfold all
  rw [← List.append_assoc]
  exact (List.perm_append_singleton ..).append_right _

theorem accounts_add (hfree : r.pending.contains d.id = false) (hclaims : d.claims = 0) :
    r.Accounts [d.mark] 0 (r.add d) where
  marks := (all_add hfree).map Dossier.mark
  claims := by
    rw [((all_add hfree).map Dossier.claims).sum_nat, List.map_cons, List.sum_cons, hclaims]
    omega

end Register

namespace LaneState

/-- The register tells of the jobs of the lane what they have used up. -/
structure Matches (s : LaneState) (r : Register) : Prop where
  pending : s.pending.Paired
    (fun job d => d.Describes job ∧ d.claims = d.spent + d.repeats) r.pending
  claimed : s.active.Paired
    (fun a c => c.1 = a.token ∧ c.2.Describes a.job ∧ c.2.claims = c.2.spent + c.2.repeats + 1)
    r.claimed
  failed : s.failed.map (fun f => (f.payload.id, f.attemptsMade)) = r.failed.map Dossier.mark
  exhausted : ∀ d ∈ r.failed, d.spent = d.budget ∧ d.claims = d.spent + d.repeats
  closed : ∀ d ∈ r.closed, d.spent < d.budget ∧ d.claims ≤ d.spent + d.repeats + 1

theorem matches_empty : empty.Matches .empty where
  pending := Table.paired_empty
  claimed := Table.paired_empty
  failed := rfl
  exhausted _ h := by cases h
  closed _ h := by cases h

/-- What can become of a job that is no longer claimed and has used up its `attemptsMade`. -/
inductive Filed (s : LaneState) (job : QueuedJob) : Disposition → LaneState → Prop
  | retrying (delay : Timespan) {job' : QueuedJob} (hpayload : job'.payload = job.payload)
      (hmade : job'.attemptsMade = job.attemptsMade) (hmax : job'.maxAttempts = job.maxAttempts)
      (hleft : job.attemptsMade < job.maxAttempts)
      (hfree : s.pending.contains job.payload.id = false) :
      Filed s job (.retrying delay)
        { s with seq := s.seq + 1, pending := s.pending.insert job.payload.id job' }
  | superseded (hleft : job.attemptsMade < job.maxAttempts) : Filed s job .superseded s
  | failed {record : FailedJob} (hpayload : record.payload = job.payload)
      (hmade : record.attemptsMade = job.attemptsMade)
      (hspent : job.maxAttempts ≤ job.attemptsMade) :
      Filed s job .failed { s with failed := s.failed ++ [record] }

theorem requeue_filed (s : LaneState) (now : Nat) {job : QueuedJob} (delay : Timespan)
    (hleft : job.attemptsMade < job.maxAttempts) :
    Filed s job (s.requeue now job delay).1 (s.requeue now job delay).2 := by
  unfold requeue
  cases h : s.pending.contains job.payload.id with
  | true => exact .superseded hleft
  | false => exact .retrying delay rfl rfl rfl hleft h

theorem consumeAttempt_filed (s : LaneState) (clock : Clock) (job : QueuedJob) (error : String)
    (delay : Timespan) :
    Filed s { job with attemptsMade := job.attemptsMade + 1 }
      (s.consumeAttempt clock job error delay).1 (s.consumeAttempt clock job error delay).2 := by
  unfold consumeAttempt
  by_cases h : job.attemptsMade + 1 < job.maxAttempts
  · simp only [if_pos h]
    exact requeue_filed s clock.elapsed delay h
  · simp only [if_neg h]
    exact .failed rfl rfl (Nat.le_of_not_lt h)

variable {s s' : LaneState} {r : Register} {job : QueuedJob} {d : Dossier}

theorem Matches.release (h : s.Matches r) (id : String) : (s.unclaim id).Matches (r.release id) :=
  ⟨h.pending, h.claimed.erase id, h.failed, h.exhausted, h.closed⟩

theorem Matches.file (h : s.Matches r) {disposition : Disposition}
    (hfiled : Filed s job disposition s') (hid : d.id = job.payload.id)
    (hbudget : job.maxAttempts = d.budget) (hspent : job.attemptsMade = d.spent)
    (hle : d.spent ≤ d.budget) (hclaims : d.claims = d.spent + d.repeats) :
    s'.Matches (r.file d disposition) ∧ (r.file d disposition).all.Perm (d :: r.all) := by
  cases hfiled with
  | retrying delay hpayload hmade hmax hleft hfree =>
    have hdescribes : d.Describes _ :=
      ⟨hid.trans (congrArg JobPayload.id hpayload.symm), hmax.trans hbudget, hmade.trans hspent,
        by rwa [hspent, hbudget] at hleft⟩
    have hpending := h.pending.insert d.id ⟨hdescribes, hclaims⟩
    rw [← hid, ← h.pending.contains_eq] at hfree
    refine ⟨⟨?_, h.claimed, h.failed, h.exhausted, h.closed⟩, Register.all_add hfree⟩
    rw [hid] at hpending
    simpa only [Register.file, Register.add, hid] using hpending
  | superseded hleft =>
    refine ⟨⟨h.pending, h.claimed, h.failed, h.exhausted, fun d' hd' => ?_⟩, r.all_close d⟩
    rcases List.mem_append.1 hd' with hd' | hd'
    · exact h.closed d' hd'
    · obtain rfl := List.mem_singleton.1 hd'
      omega
  | failed hpayload hmade hall =>
    have hexhausted : d.spent = d.budget := by omega
    refine ⟨⟨h.pending, h.claimed, ?_, fun d' hd' => ?_, h.closed⟩, r.all_fail d⟩
    · simp only [Register.file, List.map_append, h.failed, List.map_cons, List.map_nil, Dossier.mark,
        hpayload, hmade, hid, hspent, hexhausted]
    · rcases List.mem_append.1 hd' with hd' | hd'
      · exact h.exhausted d' hd'
      · obtain rfl := List.mem_singleton.1 hd'
        exact ⟨hexhausted, hclaims⟩

/-- The lane goes with `r'`, which comes from `r` by these additions and so many claims. -/
structure Tracks (s : LaneState) (r : Register) (added : List (String × Nat)) (claims : Nat)
    (r' : Register) : Prop where
  goes : s.Matches r'
  accounts : r.Accounts added claims r'

theorem Matches.tracks (h : s.Matches r) : s.Tracks r [] 0 r := ⟨h, .refl r⟩

theorem Matches.letGo (h : s.Matches r) {id : String} {token : Nat} {d' : Dossier}
    {disposition : Disposition} (hd : r.claimed.find? id = some (token, d))
    (hfiled : Filed (s.unclaim id) job disposition s') (hmark : d'.mark = d.mark)
    (hsame : d'.claims = d.claims) (hid : d'.id = job.payload.id)
    (hbudget : job.maxAttempts = d'.budget) (hspent : job.attemptsMade = d'.spent)
    (hle : d'.spent ≤ d'.budget) (hclaims : d'.claims = d'.spent + d'.repeats) :
    s'.Tracks r [] 0 ((r.release id).file d' disposition) := by
  obtain ⟨hgoes, hall⟩ := (h.release id).file hfiled hid hbudget hspent hle hclaims
  exact ⟨hgoes, Register.accounts_of_perm (Register.all_release hd) hall hmark hsame⟩

/-- A claimed job that fails or stalls uses up one attempt, which `d'` has more than its dossier. -/
theorem Matches.spend (h : s.Matches r) {id : String} {token : Nat} (d' : Dossier)
    (hd : r.claimed.find? id = some (token, d)) (hdescribes : d.Describes job)
    (hclaims : d.claims = d.spent + d.repeats + 1) (hmark : d'.mark = d.mark)
    (hsame : d'.claims = d.claims) (hrepeats : d'.repeats = d.repeats)
    (hmore : d'.spent = d.spent + 1) (clock : Clock) (error : String) (delay : Timespan) :
    ((s.unclaim id).consumeAttempt clock job error delay).2.Tracks r [] 0
      ((r.release id).file d' ((s.unclaim id).consumeAttempt clock job error delay).1) := by
  obtain ⟨hid, hbudget, hspent, hleft⟩ := hdescribes
  obtain ⟨hid', hbudget'⟩ : d'.id = d.id ∧ d'.budget = d.budget := Prod.ext_iff.1 hmark
  refine h.letGo hd (consumeAttempt_filed ..) hmark hsame (hid'.trans hid)
    (hbudget.trans hbudget'.symm) ?_ ?_ ?_
  · exact (congrArg (· + 1) hspent).trans hmore.symm
  · omega
  · omega

theorem Matches.add (h : s.Matches r) (now : Nat) (job : JobPayload) (options : LaneOptions)
    (delay : Timespan) : (s.add now job options delay).2.Tracks r
      (if (s.add now job options delay).1 = .added then [(Dossier.opened job options).mark] else []) 0
      (if (s.add now job options delay).1 = .added then r.add (.opened job options) else r) := by
  unfold LaneState.add
  cases hthere : s.pending.contains job.id with
  | true =>
    simp only [if_true, reduceCtorEq, if_false]
    exact h.tracks
  | false =>
    simp only [Bool.false_eq_true, if_false, if_true]
    constructor
    case goes =>
      refine ⟨h.pending.insert job.id ⟨⟨rfl, Nat.max_comm .., rfl, ?_⟩, rfl⟩, h.claimed, h.failed,
        h.exhausted, h.closed⟩
      exact Nat.lt_of_lt_of_le Nat.one_pos (Nat.le_max_left 1 _)
    case accounts => exact Register.accounts_add ((h.pending.contains_eq _).trans hthere) rfl

theorem Matches.defer (h : s.Matches r) (now : Nat) (id : String) (delay : Timespan) :
    (s.defer now id delay).2.Matches r := by
  unfold LaneState.defer
  split
  · refine ⟨h.pending.modify id ?_, h.claimed, h.failed, h.exhausted, h.closed⟩
    rintro job d ⟨⟨hid, hbudget, hspent, hleft⟩, hclaims⟩
    exact ⟨⟨hid, hbudget, hspent, hleft⟩, hclaims⟩
  · exact h

theorem Matches.claim (h : s.Matches r) (hs : s.Carries fun _ => True) (now : Nat)
    (lease : Timespan) : (s.claim now lease).2.Tracks r []
      ((s.claim now lease).1.map ClaimedJob.token).toList.length
      (r.claim (s.claim now lease).1) := by
  cases hnext : s.nextJob now with
  | none =>
    rw [claim_of_idle lease hnext]
    exact h.tracks
  | some job =>
    rw [claim_of_nextJob lease hnext]
    obtain ⟨hpending, hfree, -⟩ := nextJob_eq_some hs hnext
    obtain ⟨d, hd, ⟨hid, hbudget, hspent, hleft⟩, hclaims⟩ := h.pending.find? hpending
    have hclaimed : d.claimed.claims = d.spent + d.repeats + 1 := congrArg (· + 1) hclaims
    rw [← h.claimed.contains_eq] at hfree
    simp only [Register.claim, hd]
    constructor
    case goes =>
      exact ⟨h.pending.erase _, h.claimed.insert _ ⟨rfl, ⟨hid, hbudget, hspent, hleft⟩, hclaimed⟩,
        h.failed, h.exhausted, h.closed⟩
    case accounts =>
      exact Register.accounts_of_perm (Register.all_pending (Table.rows_erase_perm hd))
        (Register.all_claimed (Table.rows_insert_perm hfree)) rfl rfl

theorem Matches.dossier (h : s.Matches r) {id : String} {a : ActiveJob}
    (ha : s.active.find? id = some a) :
    ∃ d, r.claimed.find? id = some (a.token, d) ∧ d.Describes a.job ∧
      d.claims = d.spent + d.repeats + 1 := by
  obtain ⟨⟨token, d⟩, hd, htoken, hdescribes, hclaims⟩ := h.claimed.find? ha
  subst htoken
  exact ⟨d, hd, hdescribes, hclaims⟩

theorem Matches.settle_of_not_owns (h : s.Matches r) {id : String} {token : Nat}
    (hnot : s.owns id token = false) (note : Dossier → Dossier) (disposition : Disposition) :
    r.settle id token note disposition = r := by
  unfold Register.settle
  cases ha : s.active.find? id with
  | none => rw [h.claimed.find?_eq_none ha]
  | some a =>
    obtain ⟨d, hd, -⟩ := h.dossier ha
    have hne : a.token ≠ token := fun heq => by
      rw [owns_eq_true.2 ⟨a, ha, heq⟩] at hnot
      cases hnot
    rw [hd]
    exact if_neg hne

theorem settle_of_dossier {id : String} {token : Nat}
    (hd : r.claimed.find? id = some (token, d)) (note : Dossier → Dossier)
    (disposition : Disposition) :
    r.settle id token note disposition = (r.release id).file (note d) disposition := by
  unfold Register.settle
  rw [hd]
  exact if_pos rfl

theorem Matches.complete (h : s.Matches r) (id : String) (token : Nat) :
    (s.complete id token).2.Tracks r [] 0
      (if (s.complete id token).1 = true then r.settle id token (fun d => d) .superseded else r) := by
  rcases complete_cases s id token with ⟨-, heq⟩ | ⟨a, ha, rfl, heq⟩
  · rw [heq]
    exact h.tracks
  · obtain ⟨d, hd, hdescribes, hclaims⟩ := h.dossier ha
    rw [heq, settle_of_dossier hd]
    constructor
    case goes =>
      have hrelease := h.release id
      refine ⟨hrelease.pending, hrelease.claimed, hrelease.failed, hrelease.exhausted,
        fun d' hd' => ?_⟩
      rcases List.mem_append.1 hd' with hd' | hd'
      · exact hrelease.closed d' hd'
      · obtain rfl := List.mem_singleton.1 hd'
        exact ⟨hdescribes.left, Nat.le_of_eq hclaims⟩
    case accounts =>
      exact Register.accounts_of_perm (Register.all_release hd) (Register.all_close ..) rfl rfl

theorem Matches.fail (h : s.Matches r) (clock : Clock) (id : String) (token : Nat) (error : String) :
    (s.fail clock id token error).2.Tracks r [] 0
      (r.settle id token .failed (s.fail clock id token error).1) := by
  rcases fail_cases s clock id token error with ⟨howns, heq⟩ | ⟨a, ha, rfl, heq⟩
  · rw [heq, h.settle_of_not_owns howns]
    exact h.tracks
  · obtain ⟨d, hd, hdescribes, hclaims⟩ := h.dossier ha
    have hfailed : d.failed.spent = d.spent + 1 := Nat.add_right_comm ..
    rw [heq, settle_of_dossier hd]
    exact h.spend d.failed hd hdescribes hclaims rfl rfl rfl hfailed ..

theorem Matches.retryLater (h : s.Matches r) (hs : s.Carries fun _ => True) (now : Nat)
    (payload : JobPayload) (token : Nat) (delay : Timespan) :
    (s.retryLater now payload token delay).2.Tracks r [] 0
      (r.settle payload.id token .repeated (s.retryLater now payload token delay).1) := by
  rcases retryLater_cases s now payload token delay with ⟨howns, heq⟩ | ⟨a, ha, rfl, heq⟩
  · rw [heq, h.settle_of_not_owns howns]
    exact h.tracks
  · obtain ⟨d, hd, ⟨hid, hbudget, hspent, hleft⟩, hclaims⟩ := h.dossier ha
    rw [heq, settle_of_dossier hd]
    refine h.letGo hd (requeue_filed _ _ _ ?_) rfl rfl ?_ hbudget hspent (Nat.le_of_lt hleft) hclaims
    · rw [hspent, hbudget]
      exact hleft
    · exact hid.trans (hs.active ha).1

theorem Matches.recoverJob (h : s.Matches r) (hs : s.Carries fun _ => True) (clock : Clock)
    (id : String) : (recoverJob clock s id).2.Tracks r [] 0
      ((recoverJob clock s id).1.toList.foldl Register.stall r) := by
  cases ha : s.active.find? id with
  | none =>
    rw [recoverJob_of_not_active clock ha]
    exact h.tracks
  | some a =>
    obtain ⟨d, hd, ⟨hid, hbudget, hspent, hleft⟩, hclaims⟩ := h.dossier ha
    have hkey : a.job.payload.id = id := (hs.active ha).1
    simp only [LaneState.recoverJob, ha, Option.toList_some, List.foldl_cons, List.foldl_nil,
      Register.stall, hkey, hd]
    refine h.spend d.stalled hd ?_ hclaims rfl rfl rfl rfl ..
    exact ⟨hid.trans hkey, hbudget, hspent, hleft⟩

theorem Matches.recoverAll (clock : Clock) (ids : List String) (h : s.Matches r)
    (hs : s.Carries fun _ => True) : (recoverAll clock s ids).2.Tracks r [] 0
      ((recoverAll clock s ids).1.foldl Register.stall r) := by
  induction ids generalizing s r with
  | nil => exact h.tracks
  | cons id rest ih =>
    have hfirst := h.recoverJob hs clock id
    have hrest := ih hfirst.goes (recoverJob_carries aboutWork_true hs clock id)
    rw [← List.foldl_append] at hrest
    exact ⟨hrest.goes, hfirst.accounts.trans hrest.accounts⟩

theorem Matches.open_or_failed (h : s.Matches r) (hd : d ∈ r.all) :
    d ∈ r.failed ∨ d.spent < d.budget ∧ d.claims ≤ d.spent + d.repeats + 1 := by
  rcases List.mem_append.1 hd with hd | hd
  · rcases List.mem_append.1 hd with hd | hd
    · rcases List.mem_append.1 hd with hd | hd
      · obtain ⟨job, hdescribes, hclaims⟩ := h.pending.of_row hd
        exact .inr ⟨hdescribes.left, by omega⟩
      · obtain ⟨c, hc, rfl⟩ := List.mem_map.1 hd
        obtain ⟨a, -, hdescribes, hclaims⟩ := h.claimed.of_row hc
        exact .inr ⟨hdescribes.left, by omega⟩
    · exact .inl hd
  · exact .inr (h.closed d hd)

theorem Matches.bounds (h : s.Matches r) (hd : d ∈ r.all) :
    (d ∈ r.failed ↔ d.spent = d.budget) ∧ d.spent ≤ d.budget ∧ d.claims ≤ d.budget + d.repeats := by
  rcases h.open_or_failed hd with hfailed | ⟨hleft, hclaims⟩
  · obtain ⟨hspent, hclaims⟩ := h.exhausted d hfailed
    exact ⟨⟨fun _ => hspent, fun _ => hfailed⟩, by omega, by omega⟩
  · refine ⟨⟨fun hfailed => (h.exhausted d hfailed).1, fun hspent => ?_⟩, by omega, by omega⟩
    omega

end LaneState

/-- The job that the call added to the lane, with the attempts it was given. -/
def BrokerCall.added (lane : Lane) : (c : BrokerCall) → c.Reply → List (String × Nat)
  | add lane' job options _, reply =>
    if lane' = lane ∧ reply = .added then [(job.id, max 1 options.attempts.toNat)] else []
  | _, _ => []

namespace Lanes

/-- All jobs that were added to the lane over a history, with the attempts they were given. -/
def addedOver (lane : Lane) (l : Lanes) : List TimedCall → List (String × Nat)
  | [] => []
  | e :: rest => e.call.added lane (l.apply e.clock e.call).1 ++
      addedOver lane (l.apply e.clock e.call).2 rest

theorem apply_tracks {l : Lanes} {lane : Lane} {r : Register} (hl : l.Keyed)
    (h : (l.get lane).Matches r) (clock : Clock) (c : BrokerCall) :
    ((l.apply clock c).2.get lane).Tracks r (c.added lane (l.apply clock c).1)
      (c.issued lane (l.apply clock c).1).length
      (if c.lane = lane then r.enter c (l.apply clock c).1 else r) := by
  by_cases hlane : lane = c.lane
  · subst hlane
    cases c with
    | add lane job options delay =>
      simp only [BrokerCall.lane, apply, step_fst, step_snd, get_set_self, BrokerCall.added,
        BrokerCall.issued, List.length_nil, Register.enter, if_true, true_and]
      exact h.add ..
    | defer lane id delay =>
      simp only [BrokerCall.lane, apply, step_snd, get_set_self, if_true]
      exact (h.defer ..).tracks
    | claim lane lease =>
      simp only [BrokerCall.lane, apply, step_fst, step_snd, get_set_self, BrokerCall.added,
        BrokerCall.issued, Register.enter, if_true]
      exact h.claim (hl lane) ..
    | complete lane id token =>
      simp only [BrokerCall.lane, apply, step_fst, step_snd, get_set_self, BrokerCall.added,
        BrokerCall.issued, List.length_nil, Register.enter, if_true]
      exact h.complete ..
    | fail lane id token error =>
      simp only [BrokerCall.lane, apply, step_fst, step_snd, get_set_self, BrokerCall.added,
        BrokerCall.issued, List.length_nil, Register.enter, if_true]
      exact h.fail ..
    | retryLater lane payload token delay =>
      simp only [BrokerCall.lane, apply, step_fst, step_snd, get_set_self, BrokerCall.added,
        BrokerCall.issued, List.length_nil, Register.enter, if_true]
      exact h.retryLater (hl lane) ..
    | recoverStalled lane =>
      simp only [BrokerCall.lane, apply, step_fst, step_snd, get_set_self, BrokerCall.added,
        BrokerCall.issued, List.length_nil, Register.enter, if_true]
      exact h.recoverAll _ _ (hl lane)
    | counts lane | failedJobs lane =>
      simp only [BrokerCall.lane, if_true]
      exact h.tracks
  · have hne := Ne.symm hlane
    have hnone : c.added lane (l.apply clock c).1 = [] ∧ c.issued lane (l.apply clock c).1 = [] := by
      cases c <;> simp only [BrokerCall.lane] at hne <;>
        simp [BrokerCall.added, BrokerCall.issued, hne]
    rw [apply_get_of_ne l clock hlane, hnone.1, hnone.2, if_neg hne]
    exact h.tracks

theorem after_tracks {l : Lanes} {lane : Lane} {r : Register} (hl : l.Keyed)
    (h : (l.get lane).Matches r) (history : List TimedCall) :
    ((l.after history).get lane).Tracks r (addedOver lane l history)
      (issuedOver lane l history).length (r.after lane l history) := by
  induction history generalizing l r with
  | nil => exact h.tracks
  | cons e rest ih =>
    have hstep := apply_tracks hl h e.clock e.call
    have hrest := ih (keyed_apply l e.clock e.call hl) hstep.goes
    have haccounts := hstep.accounts.trans hrest.accounts
    rw [← List.length_append] at haccounts
    exact ⟨hrest.goes, haccounts⟩

/-- After any history of a fresh broker, with the dossiers that are kept from the calls and their replies
alone: every pending and every claimed job has used up the failures and stalls of its dossier, which are
fewer than the attempts it was given when it was added; the failed jobs are those whose attempts are used
up, all of them; no job was claimed more often than it was given attempts and repeated; and there is one
dossier for each job that was added, with the attempts that it was given then, and one entry for each
claim. -/
theorem attempts_within_budget (lane : Lane) (history : List TimedCall) :
    let s := (empty.after history).get lane
    let r := Register.empty.after lane empty history
    s.pending.Paired (fun job d => d.Describes job) r.pending ∧
    s.active.Paired (fun a c => c.1 = a.token ∧ c.2.Describes a.job) r.claimed ∧
    s.failed.map (fun f => (f.payload.id, f.attemptsMade)) = r.failed.map Dossier.mark ∧
    (∀ d ∈ r.all, (d ∈ r.failed ↔ d.spent = d.budget) ∧ d.spent ≤ d.budget ∧
      d.claims ≤ d.budget + d.repeats) ∧
    (r.all.map Dossier.mark).Perm (addedOver lane empty history) ∧
    (r.all.map Dossier.claims).sum = (issuedOver lane empty history).length := by
  intro s r
  have hempty : (empty.get lane).Matches .empty := by
    rw [get_empty]
    exact LaneState.matches_empty
  have htracks := after_tracks keyed_empty hempty history
  have hgoes : s.Matches r := htracks.goes
  have hmarks := htracks.accounts.marks
  have hclaims := htracks.accounts.claims
  have hnone : Register.empty.all = [] := rfl
  rw [hnone, List.map_nil, List.append_nil] at hmarks
  rw [hnone, List.map_nil, List.sum_nil, Nat.zero_add] at hclaims
  refine ⟨hgoes.pending.mono fun _ _ h => h.1, hgoes.claimed.mono fun _ _ h => ⟨h.1, h.2.1⟩,
    hgoes.failed, fun d hd => hgoes.bounds hd, hmarks, hclaims⟩

end Lanes

end SyncCascade
