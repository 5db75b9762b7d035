import Mathlib.Data.ENat.Lattice
import SyncCascade.Proofs.Transaction

/-!
# How often work is repeated

The calls of the work end as a script says. An outcome that is not a transaction failure is final, so the
first final outcome of the script decides where the loop stops, unless the attempts run out before it is
reached. The attempts are counted out in a 32-bit word before the first one: the greatest number of
repetitions stops the program there.
-/

namespace SyncCascade

/-- One attempt and as many repetitions as the policy names. -/
def RetryPolicy.budget (p : RetryPolicy) : Nat := if p.enabled then p.numRetries.toNat + 1 else 1

/-- How the calls of the work end, the first one first. -/
abbrev Script (α : Type) := Nat → Except Failure α

namespace Script

variable {α : Type} (script : Script α) {k n : Nat}

/-- The call is a success, or it fails otherwise than as a transaction. -/
def Final (i : Nat) : Prop :=
  match script i with
  | .ok _ => True
  | .error e => e.isTransaction = false

def FirstFinal (k : Nat) : Prop := script.Final k ∧ ∀ i < k, ¬ script.Final i

/-- The place of the first final outcome, `⊤` if there is none. -/
noncomputable def firstFinal : ℕ∞ := ⨅ i, ⨅ _ : script.Final i, (i : ℕ∞)

variable {script}

theorem not_final_iff {i : Nat} :
    ¬ script.Final i ↔ ∃ e, script i = .error e ∧ e.isTransaction = true := by
  unfold Final
  cases script i <;> simp

theorem firstFinal_lt_iff : script.firstFinal < n ↔ ∃ i < n, script.Final i := by
  simp only [firstFinal, iInf_lt_iff, Nat.cast_lt, exists_prop]
  exact exists_congr fun i => And.comm

theorem FirstFinal.firstFinal_eq (h : script.FirstFinal k) : script.firstFinal = k := by
  apply le_antisymm
  · exact iInf₂_le k h.1
  · refine le_iInf₂ fun i hi => ?_
    by_contra hlt
    exact h.2 i (by simpa using hlt) hi

theorem firstFinal_or (script : Script α) (n : Nat) :
    (∃ k < n, script.FirstFinal k) ∨ ∀ i < n, ¬ script.Final i := by
  induction n with
  | zero => simp
  | succ n ih =>
    rcases ih with ⟨k, hk, hfirst⟩ | hnone
    · exact .inl ⟨k, by omega, hfirst⟩
    · by_cases hn : script.Final n
      · exact .inl ⟨n, by omega, hn, hnone⟩
      · refine .inr fun i hi => ?_
        rcases Nat.lt_succ_iff_lt_or_eq.1 hi with hlt | rfl
        · exact hnone i hlt
        · exact hn

end Script

namespace Transaction

variable {β α : Type}

/-- The store counts the calls of the work, and each ends as the script says. -/
def scripted (script : Script α) : Action Nat β α :=
  .onStore fun _ calls => (script calls, calls + 1)

/-- What the repeated work ends in, and how often it was called. -/
def rehearse (policy : RetryPolicy) (context : WorkContext) (script : Script α) (w : World Nat β) :
    Except Failure α × Nat :=
  let out := (withRetries policy context (scripted script)).run { w with store := 0 }
  (out.1, out.2.store)

section Repeating

variable {policy : RetryPolicy} {script : Script α} {w : World Nat β} {k : Nat}
  (context : WorkContext)

/-- One call more is made before the loop goes on: the outcome is a transaction failure, and the policy
lets it be repeated. -/
theorem repeating_again (henabled : policy.enabled = true) (hagain : ¬ script.Final w.store)
    (remaining attempt : Nat) :
    ∃ journal, (repeating policy context (scripted script) (remaining + 1) attempt).run w =
      (repeating policy context (scripted script) remaining (attempt + 1)).run
        { w with store := w.store + 1, journal := journal } := by
  obtain ⟨e, he, htransaction⟩ := Script.not_final_iff.1 hagain
  refine ⟨w.journal.push (.transactionRepeated context attempt e), ?_⟩
  rw [run_repeating_succ]
  simp [scripted, Action.run_onStore, he, htransaction, henabled]

theorem repeating_ends (hends : policy.enabled = false ∨ script.Final w.store)
    (remaining attempt : Nat) :
    (repeating policy context (scripted script) remaining attempt).run w =
      (script w.store, { w with store := w.store + 1 }) := by
  have hfinal : ∀ e, script w.store = .error e → (e.isTransaction && policy.enabled) = false := by
    intro e he
    rcases hends with hdisabled | hfinal
    · simp [hdisabled]
    · simp only [Script.Final, he] at hfinal
      simp [hfinal]
  cases hscript : script w.store with
  | ok r => cases remaining <;> simp [run_repeating_zero, run_repeating_succ, scripted,
      Action.run_onStore, hscript]
  | error e => cases remaining <;> simp [run_repeating_zero, run_repeating_succ, scripted,
      Action.run_onStore, hscript, hfinal e hscript]

/-- The loop stops at the first final outcome that is within the budget. -/
theorem repeating_stops (henabled : policy.enabled = true) {remaining : Nat} (hk : k ≤ remaining)
    (hfinal : script.Final (w.store + k)) (hbefore : ∀ i < k, ¬ script.Final (w.store + i))
    (attempt : Nat) :
    ((repeating policy context (scripted script) remaining attempt).run w).1 = script (w.store + k) ∧
      ((repeating policy context (scripted script) remaining attempt).run w).2.store =
        w.store + k + 1 := by
  induction k generalizing remaining attempt w with
  | zero => rw [repeating_ends context (.inr hfinal)]; simp
  | succ k ih =>
    obtain ⟨remaining, rfl⟩ : ∃ r, remaining = r + 1 := ⟨remaining - 1, by omega⟩
    obtain ⟨journal, hrun⟩ := repeating_again context henabled
      (hbefore 0 (by omega)) remaining attempt
    have hnext : ∀ i, w.store + 1 + i = w.store + (i + 1) := by omega
    have hle : k ≤ remaining := by omega
    have hrest := ih (w := { w with store := w.store + 1, journal := journal }) hle
      (by simpa only [hnext] using hfinal)
      (fun i hi => by simpa only [hnext] using hbefore (i + 1) (by omega)) (attempt + 1)
    rw [hrun]
    simpa only [hnext] using hrest

/-- Where no outcome within the budget is final, all of the budget is used. -/
theorem repeating_exhausts (henabled : policy.enabled = true) {remaining : Nat}
    (hnone : ∀ i ≤ remaining, ¬ script.Final (w.store + i)) (attempt : Nat) :
    ((repeating policy context (scripted script) remaining attempt).run w).1 =
        .error (.retriesExceeded policy.numRetries) ∧
      ((repeating policy context (scripted script) remaining attempt).run w).2.store =
        w.store + remaining + 1 := by
  induction remaining generalizing attempt w with
  | zero =>
    obtain ⟨e, he, htransaction⟩ := Script.not_final_iff.1 (hnone 0 (Nat.le_refl 0))
    rw [Nat.add_zero] at he
    simp [run_repeating_zero, scripted, Action.run_onStore, he, htransaction, henabled]
  | succ remaining ih =>
    obtain ⟨journal, hrun⟩ := repeating_again context henabled
      (hnone 0 (by omega)) remaining attempt
    have hnext : ∀ i, w.store + 1 + i = w.store + (i + 1) := by omega
    have hrest := ih (w := { w with store := w.store + 1, journal := journal })
      (fun i hi => by simpa only [hnext] using hnone (i + 1) (by omega)) (attempt + 1)
    rw [hrun]
    simpa only [hnext] using hrest

end Repeating

section Rehearse

variable {policy : RetryPolicy} {script : Script α} {k : Nat} (context : WorkContext) (w : World Nat β)

theorem rehearse_of_disabled (hdisabled : policy.enabled = false) :
    rehearse policy context script w = (script 0, 1) := by
  unfold rehearse
  rw [withRetries_eq, policy.attempts_of_disabled hdisabled, if_neg Nat.one_ne_zero,
    repeating_ends context (.inl hdisabled)]

theorem rehearse_of_firstFinal (henabled : policy.enabled = true) (hfirst : script.FirstFinal k)
    (hk : k < policy.attempts) : rehearse policy context script w = (script k, k + 1) := by
  have hle : k ≤ policy.attempts - 1 := by omega
  have hstops := repeating_stops context (w := { w with store := 0 }) henabled hle
    (by simpa using hfirst.1) (by simpa using hfirst.2) 1
  simp only [Nat.zero_add] at hstops
  unfold rehearse
  rw [withRetries_eq, if_neg (by omega)]
  exact Prod.ext hstops.1 hstops.2

theorem rehearse_of_exhausted (henabled : policy.enabled = true) (hpos : 0 < policy.attempts)
    (hnone : ∀ i < policy.attempts, ¬ script.Final i) :
    rehearse policy context script w =
      (.error (.retriesExceeded policy.numRetries), policy.attempts) := by
  have hnone' : ∀ i ≤ policy.attempts - 1, ¬ script.Final (0 + i) := by
    intro i hi
    rw [Nat.zero_add]
    exact hnone i (by omega)
  have hexhausts := repeating_exhausts context (w := { w with store := 0 }) henabled hnone' 1
  simp only [Nat.zero_add, Nat.sub_add_cancel hpos] at hexhausts
  unfold rehearse
  rw [withRetries_eq, if_neg (Nat.ne_of_gt hpos)]
  exact Prod.ext hexhausts.1 hexhausts.2

end Rehearse

theorem attempts_eq_budget {policy : RetryPolicy}
    (h : policy.numRetries.toNat < Word.limit 32 - 1) : policy.attempts = policy.budget := by
  unfold RetryPolicy.budget
  cases henabled : policy.enabled with
  | false => exact policy.attempts_of_disabled henabled
  | true => exact policy.attempts_of_lt henabled h

theorem budget_pos (policy : RetryPolicy) : 0 < policy.budget := by
  unfold RetryPolicy.budget
  split <;> omega

/-- The work is called until its first final outcome, whose result is that of the whole; if the budget
does not reach so far, all of it is used, and the calls fail for want of attempts. Without repetitions
the first outcome is the result, whatever it is. -/
theorem withRetries_closed_form {policy : RetryPolicy}
    (hretries : policy.numRetries.toNat < Word.limit 32 - 1) (context : WorkContext)
    (script : Script α) (w : World Nat β) :
    let out := rehearse policy context script w
    (script.firstFinal < policy.budget ∨ policy.enabled = false →
      (out.2 : ℕ∞) = min script.firstFinal (policy.budget - 1 : ℕ) + 1 ∧
        out.1 = script (out.2 - 1)) ∧
    (¬ (script.firstFinal < policy.budget ∨ policy.enabled = false) →
      out.2 = policy.budget ∧ out.1 = .error (.retriesExceeded policy.numRetries)) := by
  intro out
  have hattempts := attempts_eq_budget hretries
  by_cases henabled : policy.enabled = true
  · rcases script.firstFinal_or policy.budget with ⟨k, hk, hfirst⟩ | hnone
    · have hout : out = (script k, k + 1) :=
        rehearse_of_firstFinal context w henabled hfirst (by omega)
      have hmin : min (k : ℕ∞) (policy.budget - 1 : ℕ) = k := min_eq_left (by norm_cast; omega)
      rw [hout, hfirst.firstFinal_eq, hmin]
      exact ⟨fun _ => ⟨Nat.cast_succ k, rfl⟩, fun hbeyond => absurd (.inl (by simpa using hk)) hbeyond⟩
    · have hout : out = (.error (.retriesExceeded policy.numRetries), policy.attempts) :=
        rehearse_of_exhausted context w henabled (hattempts ▸ budget_pos policy) (hattempts ▸ hnone)
      have hbeyond : ¬ script.firstFinal < policy.budget := by
        rw [Script.firstFinal_lt_iff]
        rintro ⟨i, hi, hfinal⟩
        exact hnone i hi hfinal
      simp [hout, hbeyond, henabled, hattempts]
  · have hdisabled : policy.enabled = false := by simpa using henabled
    have hout : out = (script 0, 1) := rehearse_of_disabled context w hdisabled
    have hbudget : policy.budget = 1 := by simp [RetryPolicy.budget, hdisabled]
    simp [hout, hdisabled, hbudget]

def thirdSucceeds : Script Nat := fun i => if i < 2 then .error (.transaction "busy") else .ok i

theorem withRetries_closed_form_third :
    RetryPolicy.default.numRetries.toNat < Word.limit 32 - 1 ∧
      thirdSucceeds.firstFinal < RetryPolicy.default.budget ∧
      rehearse .default ⟨"work", ""⟩ thirdSucceeds (.initial 0 ()) = (.ok 2, 3) ∧
      ((3 : ℕ) : ℕ∞) = min thirdSucceeds.firstFinal (RetryPolicy.default.budget - 1 : ℕ) + 1 := by
  have hretries : RetryPolicy.default.numRetries.toNat < Word.limit 32 - 1 := by decide
  have hlt : thirdSucceeds.firstFinal < RetryPolicy.default.budget :=
    Script.firstFinal_lt_iff.2 ⟨2, by decide, trivial⟩
  have hrun : rehearse .default ⟨"work", ""⟩ thirdSucceeds (.initial 0 ()) = (.ok 2, 3) := by
    decide +kernel
  have hclosed := (withRetries_closed_form hretries ⟨"work", ""⟩ thirdSucceeds
    (World.initial 0 ())).1 (.inl hlt)
  rw [hrun] at hclosed
  exact ⟨hretries, hlt, hrun, hclosed.1⟩

/-- Of two policies the one that repeats more often calls the work at least as often, and what succeeds
under the other one succeeds under it with the same value. -/
theorem larger_budget_outlasts {few many : RetryPolicy} (hfew : few.enabled = true)
    (hmany : many.enabled = true) (hle : few.numRetries ≤ many.numRetries)
    (hretries : many.numRetries.toNat < Word.limit 32 - 1) (context : WorkContext)
    (script : Script α) (w : World Nat β) :
    (rehearse few context script w).2 ≤ (rehearse many context script w).2 ∧
      ∀ value, (rehearse few context script w).1 = .ok value →
        (rehearse many context script w).1 = .ok value := by
  have hle' : few.numRetries.toNat ≤ many.numRetries.toNat := UInt32.le_iff_toNat_le.1 hle
  have hfews : few.attempts = few.numRetries.toNat + 1 := few.attempts_of_lt hfew (by omega)
  have hmanys : many.attempts = many.numRetries.toNat + 1 := many.attempts_of_lt hmany hretries
  rcases script.firstFinal_or few.attempts with ⟨k, hk, hfirst⟩ | hnone
  · rw [rehearse_of_firstFinal context w hfew hfirst hk,
      rehearse_of_firstFinal context w hmany hfirst (by omega)]
    exact ⟨Nat.le_refl _, fun _ h => h⟩
  · rw [rehearse_of_exhausted context w hfew (by omega) hnone]
    refine ⟨?_, nofun⟩
    rcases script.firstFinal_or many.attempts with ⟨k, hk, hfirst⟩ | hnone'
    · rw [rehearse_of_firstFinal context w hmany hfirst hk]
      by_contra hlt
      exact hnone k (by omega) hfirst.1
    · rw [rehearse_of_exhausted context w hmany (by omega) hnone']
      show few.attempts ≤ many.attempts
      omega

theorem larger_budget_outlasts_third :
    let few : RetryPolicy := ⟨true, 2⟩
    few.numRetries ≤ RetryPolicy.default.numRetries ∧
      rehearse few ⟨"work", ""⟩ thirdSucceeds (.initial 0 ()) = (.ok 2, 3) ∧
      3 ≤ (rehearse .default ⟨"work", ""⟩ thirdSucceeds (.initial 0 ())).2 ∧
      (rehearse .default ⟨"work", ""⟩ thirdSucceeds (.initial 0 ())).1 = .ok 2 := by
  intro few
  have hle : few.numRetries ≤ RetryPolicy.default.numRetries := by decide
  have hrun : rehearse few ⟨"work", ""⟩ thirdSucceeds (.initial 0 ()) = (.ok 2, 3) := by
    decide +kernel
  have hretries : RetryPolicy.default.numRetries.toNat < Word.limit 32 - 1 := by decide
  have houtlasts := larger_budget_outlasts (show few.enabled = true from rfl) rfl hle hretries
    ⟨"work", ""⟩ thirdSucceeds (World.initial 0 ())
  rw [hrun] at houtlasts
  exact ⟨hle, hrun, houtlasts.1, houtlasts.2 2 rfl⟩

/-- The greatest number of repetitions leaves no attempt at all: work that succeeds at its third call is
never called, and the program stops. -/
theorem greatest_budget_stops :
    let few : RetryPolicy := ⟨true, 2⟩
    let many : RetryPolicy := ⟨true, 4294967295⟩
    few.numRetries ≤ many.numRetries ∧
      rehearse few ⟨"work", ""⟩ thirdSucceeds (.initial 0 ()) = (.ok 2, 3) ∧
      rehearse many ⟨"work", ""⟩ thirdSucceeds (.initial 0 ()) = (.error .overflow, 0) := by
  decide +kernel

end Transaction

end SyncCascade
