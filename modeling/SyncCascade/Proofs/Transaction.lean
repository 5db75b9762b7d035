import SyncCascade.Proofs.Action
import SyncCascade.Transaction

/-!
# What a transaction ensures

One attempt starts, works and commits or undoes. The attempts of a repeated transaction share an
invariant: what every failed attempt keeps holds when the next one starts and when the transaction
gives up. If the attempts that are to fail are counted, they are wanting only where there are as many
of them as the policy allows in all. A policy whose attempts no word can count allows none.
-/

namespace SyncCascade

namespace RetryPolicy

/-- How often a unit of work is tried, before it is given up. -/
def attempts (p : RetryPolicy) : Nat :=
  match p.maxAttempts with
  | .ok attempts => attempts.toNat
  | .error _ => 0

variable {p : RetryPolicy}

theorem maxAttempts_cases (p : RetryPolicy) :
    (∃ n, p.maxAttempts = .ok n ∧ p.attempts = n.toNat ∧ 0 < n.toNat) ∨
      p.maxAttempts = .error .overflow ∧ p.attempts = 0 := by
  unfold attempts
  cases h : p.maxAttempts with
  | ok n =>
    refine .inl ⟨n, rfl, rfl, ?_⟩
    unfold maxAttempts at h
    split at h
    · have hn := Word.uint32_eq_ok.1 h
      omega
    · cases h
      decide
  | error e =>
    unfold maxAttempts at h
    split at h
    · rw [← (Word.checked_eq_error.1 h).2]
      exact .inr ⟨rfl, rfl⟩
    · cases h

theorem attempts_of_disabled (h : p.enabled = false) : p.attempts = 1 := by
  simp [attempts, maxAttempts, h]

theorem attempts_of_lt (henabled : p.enabled = true) (h : p.numRetries.toNat < Word.limit 32 - 1) :
    p.attempts = p.numRetries.toNat + 1 := by
  have hlimit : Word.limit 32 = 4294967296 := rfl
  rcases p.maxAttempts_cases with ⟨n, hmax, hattempts, -⟩ | ⟨hmax, -⟩
  · rw [maxAttempts, if_pos henabled] at hmax
    have hn := Word.uint32_eq_ok.1 hmax
    omega
  · rw [maxAttempts, if_pos henabled] at hmax
    have hbeyond := (Word.checked_eq_error.1 hmax).1
    omega

theorem attempts_pos_of_lt (h : p.numRetries.toNat < Word.limit 32 - 1) : 0 < p.attempts := by
  cases henabled : p.enabled with
  | false => exact attempts_of_disabled henabled ▸ Nat.one_pos
  | true => exact attempts_of_lt henabled h ▸ Nat.succ_pos _

end RetryPolicy

namespace Transaction

open SyncCascade.Action

variable {σ β α : Type}

theorem run_repeating_zero (policy : RetryPolicy) (context : WorkContext) (work : Action σ β α)
    (attempt : Nat) (w : World σ β) :
    (repeating policy context work 0 attempt).run w =
      match work.run w with
      | (.ok a, w') => (.ok a, w')
      | (.error e, w') =>
        if e.isTransaction && policy.enabled then
          (.error (.retriesExceeded policy.numRetries),
            { w' with journal := w'.journal.push (.retriesExhausted context attempt e) })
        else (.error e, w') := by
  unfold repeating
  rfl

theorem run_repeating_succ (policy : RetryPolicy) (context : WorkContext) (work : Action σ β α)
    (remaining attempt : Nat) (w : World σ β) :
    (repeating policy context work (remaining + 1) attempt).run w =
      match work.run w with
      | (.ok a, w') => (.ok a, w')
      | (.error e, w') =>
        if e.isTransaction && policy.enabled then
          (repeating policy context work remaining (attempt + 1)).run
            { w' with journal := w'.journal.push (.transactionRepeated context attempt e) }
        else (.error e, w') := by
  rw [repeating]
  rfl

theorem withRetries_eq (policy : RetryPolicy) (context : WorkContext) (work : Action σ β α) :
    withRetries policy context work =
      if policy.attempts = 0 then .fail .overflow
      else repeating policy context work (policy.attempts - 1) 1 := by
  unfold withRetries
  rcases policy.maxAttempts_cases with ⟨n, hmax, hattempts, hpos⟩ | ⟨hmax, hattempts⟩
  · rw [hmax, hattempts, if_neg (Nat.ne_of_gt hpos)]
  · rw [hmax, if_pos hattempts]

section Ensures

variable {R : α → World σ β → Prop} {F : Failure → World σ β → Prop} {w : World σ β}

theorem once_ensures {S : Storage σ} {level : IsolationLevel} {work : Action σ β α}
    (h : (start S level).Ensures w
      (fun _ w => work.Ensures w (fun r w => (commit S).Ensures w (fun _ w => R r w) F)
        fun e w => F e { w with store := S.rollback w.store }) F) :
    (once S level work).Ensures w R F := by
  unfold once
  rw [ensures_bind]
  refine h.mono (fun _ w' h => ?_) fun _ _ h => h
  rw [ensures_bind, ensures_attempt]
  refine h.mono (fun r w'' h => ?_) fun e w'' h => h
  exact ensures_bind.2 h

/-- The rule of the loop, with an invariant for each number of repetitions that remain. -/
theorem repeating_rule {P : Nat → World σ β → Prop} {policy : RetryPolicy} {work : Action σ β α}
    (hP : ∀ remaining, World.Blind (P remaining)) (hF : ∀ e, World.Blind (F e))
    (hwork : ∀ remaining w, P remaining w → work.Ensures w R fun e w' =>
      if e.isTransaction && policy.enabled then
        match remaining with
        | 0 => F (.retriesExceeded policy.numRetries) w'
        | remaining + 1 => P remaining w'
      else F e w')
    (context : WorkContext) (remaining attempt : Nat) (hw : P remaining w) :
    (repeating policy context work remaining attempt).Ensures w R F := by
  induction remaining generalizing attempt w with
  | zero =>
    have h := hwork 0 w hw
    simp only [Ensures, run_repeating_zero] at h ⊢
    generalize work.run w = out at h ⊢
    obtain ⟨e | r, w'⟩ := out
    · by_cases hrepeat : (e.isTransaction && policy.enabled) = true
      · simp only [if_pos hrepeat] at h ⊢
        exact hF _ (w'.journal.push _) w'.metrics h
      · simp only [if_neg hrepeat] at h ⊢
        exact h
    · exact h
  | succ remaining ih =>
    have h := hwork (remaining + 1) w hw
    simp only [Ensures, run_repeating_succ] at h ⊢
    generalize work.run w = out at h ⊢
    obtain ⟨e | r, w'⟩ := out
    · by_cases hrepeat : (e.isTransaction && policy.enabled) = true
      · simp only [if_pos hrepeat] at h ⊢
        exact ih (attempt + 1) (hP remaining (w'.journal.push _) w'.metrics h)
      · simp only [if_neg hrepeat] at h ⊢
        exact h
    · exact h

theorem repeating_ensures {P : World σ β → Prop} {work : Action σ β α} (hP : World.Blind P)
    (hwork : ∀ w, P w → work.Ensures w R fun _ w' => P w') (policy : RetryPolicy)
    (context : WorkContext) (remaining attempt : Nat) (hw : P w) :
    (repeating policy context work remaining attempt).Ensures w R fun _ w' => P w' := by
  refine repeating_rule (P := fun _ => P) (fun _ => hP) (fun _ => hP) (fun remaining w hw => ?_)
    context remaining attempt hw
  refine (hwork w hw).mono (fun _ _ h => h) fun e w' h => ?_
  cases remaining <;> simpa using h

/-- `P n` tells how many attempts are still to fail as transactions. Only that many can be wanting:
what fails otherwise fails as the work does. -/
theorem repeating_counted {P : Nat → World σ β → Prop} {policy : RetryPolicy} {work : Action σ β α}
    (hP : ∀ n, World.Blind (P n)) (hF : ∀ e, World.Blind (F e))
    (hwork : ∀ n w, P n w → work.Ensures w R fun e w' =>
      e.isTransaction = false ∧ F e w' ∨ e.isTransaction = true ∧ ∃ m, n = m + 1 ∧ P m w')
    (context : WorkContext) {remaining n : Nat} (attempt : Nat) (hw : P n w) :
    (repeating policy context work remaining attempt).Ensures w R fun e w' =>
      F e w' ∨ (policy.enabled = true → remaining < n) ∧ 0 < n ∧ ∃ m, P m w' := by
  refine repeating_rule
    (P := fun r w => r ≤ remaining ∧ ∃ m, m + remaining = n + r ∧ P m w)
    ?_ ?_ ?_ context remaining attempt ⟨Nat.le_refl _, n, rfl, hw⟩
  · rintro r w journal metrics ⟨hr, m, hm, h⟩
    exact ⟨hr, m, hm, hP m journal metrics h⟩
  · rintro e w journal metrics (h | ⟨hspent, hpos, m, h⟩)
    · exact .inl (hF e journal metrics h)
    · exact .inr ⟨hspent, hpos, m, hP m journal metrics h⟩
  · rintro r w ⟨hr, m, hm, h⟩
    refine (hwork m w h).mono (fun _ _ h => h) fun e w' h' => ?_
    rcases h' with ⟨hfinal, h'⟩ | ⟨hfailed, k, rfl, h'⟩
    · rw [hfinal, Bool.false_and, if_neg Bool.false_ne_true]
      exact .inl h'
    · rw [hfailed, Bool.true_and]
      cases henabled : policy.enabled with
      | false => exact .inr ⟨nofun, by omega, k, h'⟩
      | true =>
        cases r with
        | zero => exact .inr ⟨fun _ => by omega, by omega, k, h'⟩
        | succ r => exact ⟨by omega, k, by omega, h'⟩

/-- A policy that allows no attempt stops the program before the first one. -/
theorem withRetries_rule {policy : RetryPolicy} {context : WorkContext} {work : Action σ β α}
    (hstop : policy.attempts = 0 → F .overflow w)
    (hwork : (repeating policy context work (policy.attempts - 1) 1).Ensures w R F) :
    (withRetries policy context work).Ensures w R F := by
  rw [withRetries_eq]
  split
  next hnone => exact hstop hnone
  next => exact hwork

theorem run_counted {P : Nat → World σ β → Prop} {S : Storage σ} {work : Action σ β α}
    {config : TransactionConfig} (hP : ∀ n, World.Blind (P n)) (hF : ∀ e, World.Blind (F e))
    (hwork : ∀ n w, P n w → (once S config.isolation work).Ensures w R fun e w' =>
      e.isTransaction = false ∧ F e w' ∨ e.isTransaction = true ∧ ∃ m, n = m + 1 ∧ P m w')
    (context : WorkContext) {n : Nat} (hw : P n w) :
    (run S config context work).Ensures w R fun e w' =>
      F e w' ∨ config.retry.attempts ≤ n ∧ ∃ m, P m w' := by
  refine withRetries_rule (fun hnone => .inr ⟨hnone ▸ Nat.zero_le n, n, hw⟩) ?_
  refine (repeating_counted hP hF hwork context 1 hw).mono (fun _ _ h => h) fun e w' h => ?_
  refine h.imp_right fun ⟨hspent, hpos, hm⟩ => ⟨?_, hm⟩
  cases henabled : config.retry.enabled with
  | false => exact RetryPolicy.attempts_of_disabled henabled ▸ hpos
  | true =>
    have hle := hspent henabled
    omega

theorem run_ensures {P : World σ β → Prop} {S : Storage σ} {work : Action σ β α}
    (hP : World.Blind P) (config : TransactionConfig) (context : WorkContext)
    (hwork : ∀ w, P w → (once S config.isolation work).Ensures w R fun _ w' => P w') (hw : P w) :
    (run S config context work).Ensures w R fun _ w' => P w' :=
  withRetries_rule (fun _ => hw) (repeating_ensures hP hwork config.retry context _ _ hw)

theorem run_allowed (S : Storage σ) (config : TransactionConfig) (context : WorkContext)
    (work : Action σ β α) (w : World σ β) :
    (run S config context work).Ensures w (fun _ _ => 0 < config.retry.attempts)
      fun _ _ => True := by
  unfold run
  rw [withRetries_eq]
  split
  next => trivial
  next hsome => exact Ensures.of_forall (fun _ _ => Nat.pos_of_ne_zero hsome) fun _ _ => trivial

end Ensures

end Transaction

end SyncCascade
