import SyncCascade.Proofs.Redis.Sending
import SyncCascade.Settings

/-!
# Deadlines in Redis

A deadline is what the clock reads and a span of whole milliseconds, added as signed 64-bit words. The
settings admit spans of an unsigned word, whose range is twice as long. As long as the sum fits into a
signed word the deadline is that sum. Where it does not, a span that fits one by itself stops the program,
and with a longer one the deadline that is sent has passed already.
-/

namespace SyncCascade.Redis

open Client

section Deadline

variable {clock : Clock} {ms ms' : Nat}

/-- The sum is told by its remainder, which is taken around zero. -/
theorem toInt_deadline (clock : Clock) (ms : Nat) :
    (deadline clock (.ofMillis ms)).toInt = ((nowMillis clock).toInt + ms).bmod (Word.limit 64) := by
  have hmillis : (Timespan.ofMillis ms).wholeMillis = ms := Nat.mul_div_cancel ms (by decide)
  rw [deadline, hmillis, Int64.toInt_add, Int64.toInt_ofInt]
  exact Int.add_bmod_bmod

theorem toInt_deadline_of_lt (hnow : 0 ≤ (nowMillis clock).toInt)
    (hroom : (nowMillis clock).toInt + ms < Word.limit 63) :
    (deadline clock (.ofMillis ms)).toInt = (nowMillis clock).toInt + ms := by
  have hlimit : Word.limit 63 = 9223372036854775808 := rfl
  have hlimit' : Word.limit 64 = 18446744073709551616 := rfl
  rw [toInt_deadline]
  exact Int.bmod_eq_of_le (by omega) (by omega)

/-- Without room the deadline falls short by the number of all words, which is more than the span. -/
theorem toInt_deadline_of_le (hms : ms < Word.limit 64)
    (hroom : (Word.limit 63 : Int) ≤ (nowMillis clock).toInt + ms) :
    (deadline clock (.ofMillis ms)).toInt = (nowMillis clock).toInt + ms - Word.limit 64 := by
  have hlimit : Word.limit 63 = 9223372036854775808 := rfl
  have hlimit' : Word.limit 64 = 18446744073709551616 := rfl
  have hword := (nowMillis clock).toInt_lt
  rw [toInt_deadline, ← Int.sub_bmod_right]
  exact Int.bmod_eq_of_le (by omega) (by omega)

/-- The deadline lies exactly so many milliseconds ahead if that fits into a signed word, and otherwise
it has passed. -/
structure DueIn (now due : Int) (ms : Nat) : Prop where
  exact_iff : due = now + ms ↔ now + ms < Word.limit 63
  le_iff : now ≤ due ↔ now + ms < Word.limit 63

theorem deadline_dueIn (hnow : 0 ≤ (nowMillis clock).toInt) (hms : ms < Word.limit 64) :
    DueIn (nowMillis clock).toInt (deadline clock (.ofMillis ms)).toInt ms := by
  by_cases hroom : (nowMillis clock).toInt + ms < Word.limit 63
  · have hdue := toInt_deadline_of_lt hnow hroom
    constructor <;> omega
  · have hlimit' : (Word.limit 64 : Int) = 18446744073709551616 := rfl
    have hdue := toInt_deadline_of_le hms (Int.not_lt.1 hroom)
    constructor <;> omega

/-- The program stops exactly where the span fits into a signed word and the sum does not. -/
theorem isOk_checkedDeadline_iff (hnow : 0 ≤ (nowMillis clock).toInt) (hms : ms < Word.limit 64) :
    (checkedDeadline clock (.ofMillis ms)).isOk = true ↔
      (ms < Word.limit 63 → (nowMillis clock).toInt + ms < Word.limit 63) := by
  have hlimit : Word.limit 63 = 9223372036854775808 := rfl
  have hlimit' : Word.limit 64 = 18446744073709551616 := rfl
  have hsize : Int64.size = 18446744073709551616 := rfl
  have hword := (nowMillis clock).toInt_lt
  have hspan : (Timespan.ofMillis ms).wholeMillis = ms := Nat.mul_div_cancel ms (by decide)
  rw [checkedDeadline, Word.int64, Word.isOk_checked, hspan, Int64.toInt_ofInt]
  by_cases hsigned : ms < Word.limit 63
  · rw [Int.bmod_eq_of_le (by omega) (by omega)]
    omega
  · rw [← Int.sub_bmod_right, Int.bmod_eq_of_le (by omega) (by omega)]
    omega

theorem deadline_lt_deadline (hnow : 0 ≤ (nowMillis clock).toInt) (hlt : ms < ms')
    (hroom : (nowMillis clock).toInt + ms' < Word.limit 63) :
    (deadline clock (.ofMillis ms)).toInt < (deadline clock (.ofMillis ms')).toInt := by
  rw [toInt_deadline_of_lt hnow hroom, toInt_deadline_of_lt hnow (by omega)]
  omega

end Deadline

/-- The score with which a pending job is moved back. -/
def readyScore (clock : Clock) (s : Settings) (lane : Lane) : Int :=
  (deadline clock (s.queue.lane lane).dedupDelay).toInt

/-- The score with which a job is claimed. -/
def leaseExpiry (clock : Clock) (s : Settings) : Int := (deadline clock s.worker.lease).toInt

theorem isTimely_defer_iff {clock : Clock} {s : Settings} (hnow : 0 ≤ (nowMillis clock).toInt)
    (hdelay : s.dedupDelayMillis < Word.limit 64) (lane : Lane) (id : String) :
    isTimely clock (.defer lane id (s.queue.lane lane).dedupDelay) = true ↔
      (s.dedupDelayMillis < Word.limit 63 →
        (nowMillis clock).toInt + s.dedupDelayMillis < Word.limit 63) := by
  rw [← isOk_checkedDeadline_iff hnow hdelay]
  cases lane <;> rfl

theorem isTimely_claim_iff {clock : Clock} {s : Settings} (hnow : 0 ≤ (nowMillis clock).toInt)
    (hlease : s.leaseMillis < Word.limit 64) (lane : Lane) :
    isTimely clock (.claim lane s.worker.lease) = true ↔
      (s.leaseMillis < Word.limit 63 → (nowMillis clock).toInt + s.leaseMillis < Word.limit 63) :=
  isOk_checkedDeadline_iff hnow hlease

theorem readyScore_eq (clock : Clock) (s : Settings) (lane : Lane) :
    readyScore clock s lane = (deadline clock (.ofMillis s.dedupDelayMillis)).toInt := by
  cases lane <;> rfl

section Requests

variable (keyPrefix : String) (clock : Clock) (s : Settings) (lane : Lane) (id : String)

/-- What is sent to move back a job until `score`. -/
def deferringUntil (score : Int) : Request :=
  .run .defer [key keyPrefix lane "pending", key keyPrefix lane ("job:" ++ id)]
    [id, Numeral.integerText score]

/-- What is sent at the time `now` to claim a job until `expiry`. -/
def claimingUntil (now expiry : Int) : Request :=
  .run .claim [key keyPrefix lane "pending", key keyPrefix lane "active"]
    [base keyPrefix lane, Numeral.integerText now, Numeral.integerText expiry, Numeral.text claimScan]

theorem sends_deferringUntil :
    Sends keyPrefix clock (.defer lane id (s.queue.lane lane).dedupDelay)
      (deferringUntil keyPrefix lane id (readyScore clock s lane)) :=
  sends_defer keyPrefix clock lane id _

theorem sends_claimingUntil :
    Sends keyPrefix clock (.claim lane s.worker.lease)
      (claimingUntil keyPrefix lane (nowMillis clock).toInt (leaseExpiry clock s)) :=
  sends_claim keyPrefix clock lane _

end Requests

/-- Jobs are moved back and claimed until deadlines that are the reading of the clock and the span of the
settings, exactly as far as that fits into a signed word; only then they do not lie in the past. Where it
does not fit, but the span does, the program stops instead. As far as it fits the deadlines grow with the
settings. -/
theorem deadlines_exact_iff (keyPrefix : String) (clock : Clock) (lane : Lane) (id : String)
    (s : Settings) (hnow : 0 ≤ (nowMillis clock).toInt) (hdelay : s.dedupDelayMillis < Word.limit 64)
    (hlease : s.leaseMillis < Word.limit 64) :
    let now := (nowMillis clock).toInt
    let score := readyScore clock s lane
    let expiry := leaseExpiry clock s
    Sends keyPrefix clock (.defer lane id (s.queue.lane lane).dedupDelay)
        (deferringUntil keyPrefix lane id score) ∧
      Sends keyPrefix clock (.claim lane s.worker.lease) (claimingUntil keyPrefix lane now expiry) ∧
      DueIn now score s.dedupDelayMillis ∧ DueIn now expiry s.leaseMillis ∧
      (isTimely clock (.defer lane id (s.queue.lane lane).dedupDelay) = true ↔
        (s.dedupDelayMillis < Word.limit 63 → now + s.dedupDelayMillis < Word.limit 63)) ∧
      (isTimely clock (.claim lane s.worker.lease) = true ↔
        (s.leaseMillis < Word.limit 63 → now + s.leaseMillis < Word.limit 63)) ∧
      ∀ s' : Settings,
        (s.dedupDelayMillis < s'.dedupDelayMillis → now + s'.dedupDelayMillis < Word.limit 63 →
          score < readyScore clock s' lane) ∧
        (s.leaseMillis < s'.leaseMillis → now + s'.leaseMillis < Word.limit 63 →
          expiry < leaseExpiry clock s') := by
  intro now score expiry
  have hscore : score = (deadline clock (.ofMillis s.dedupDelayMillis)).toInt :=
    readyScore_eq clock s lane
  refine ⟨sends_deferringUntil keyPrefix clock s lane id, sends_claimingUntil keyPrefix clock s lane,
    ?_, deadline_dueIn hnow hlease, isTimely_defer_iff hnow hdelay lane id,
    isTimely_claim_iff hnow hlease lane, fun s' => ⟨fun hlt hroom => ?_, deadline_lt_deadline hnow⟩⟩
  · rw [hscore]
    exact deadline_dueIn hnow hdelay
  · rw [hscore, readyScore_eq]
    exact deadline_lt_deadline hnow hlt hroom

/-- The default spans, and a lease that has just enough room. -/
theorem deadlines_exact_iff_default :
    let clock : Clock := ⟨⟨1704067200, 0⟩, 0⟩
    let s := Settings.default
    let s' := { s with leaseMillis := 9223370332787575807 }
    0 ≤ (nowMillis clock).toInt ∧ s.dedupDelayMillis < Word.limit 64 ∧ s.leaseMillis < Word.limit 64 ∧
      Sends "synctrack" clock (.defer .files "f1" (s.queue.lane .files).dedupDelay)
        (deferringUntil "synctrack" .files "f1" 1704067201000) ∧
      Sends "synctrack" clock (.claim .files s.worker.lease)
        (claimingUntil "synctrack" .files (nowMillis clock).toInt 1704067230000) ∧
      leaseExpiry clock s < leaseExpiry clock s' := by
  intro clock s s'
  have hnow : 0 ≤ (nowMillis clock).toInt := by decide
  have hdelay : s.dedupDelayMillis < Word.limit 64 := by decide
  have hlease : s.leaseMillis < Word.limit 64 := by decide
  obtain ⟨hdefer, hclaim, -, -, -, -, hgrow⟩ :=
    deadlines_exact_iff "synctrack" clock .files "f1" s hnow hdelay hlease
  rw [show readyScore clock s .files = 1704067201000 by decide] at hdefer
  rw [show leaseExpiry clock s = 1704067230000 by decide] at hclaim
  exact ⟨hnow, hdelay, hlease, hdefer, hclaim, (hgrow s').2 (by decide) (by decide)⟩

/-- The longest spans that the settings admit ended a millisecond ago, and they are what is sent. -/
theorem longest_spans_have_passed :
    let clock : Clock := ⟨⟨1704067200, 0⟩, 0⟩
    let s := { Settings.default with
      dedupDelayMillis := 18446744073709551615, leaseMillis := 18446744073709551615 }
    let now := (nowMillis clock).toInt
    (Settings.parse ["--dedup-delay-ms=18446744073709551615",
        "--lease-ms=18446744073709551615"]).toOption = some s ∧
      readyScore clock s .files = now - 1 ∧ leaseExpiry clock s = now - 1 ∧
      ¬ Sends "synctrack" clock (.defer .files "f1" (s.queue.lane .files).dedupDelay)
        (deferringUntil "synctrack" .files "f1" (now + s.dedupDelayMillis)) ∧
      ¬ Sends "synctrack" clock (.claim .files s.worker.lease)
        (claimingUntil "synctrack" .files now (now + s.leaseMillis)) := by
  intro clock s now
  refine ⟨by decide +kernel, by decide, by decide, fun h => ?_, fun h => ?_⟩
  · have hsame := h.unique (sends_deferringUntil "synctrack" clock s .files "f1") (by decide)
    revert hsame
    decide +kernel
  · have hsame := h.unique (sends_claimingUntil "synctrack" clock s .files) (by decide)
    revert hsame
    decide +kernel

end SyncCascade.Redis
