import SyncCascade.Proofs.Redis.Hash
import SyncCascade.Proofs.Redis.Sending

/-!
# Jobs that come back from their hashes

A server that answers a claim with the hash of a job makes the client return that job, and one that
answers for each record of a failure with its hash makes it return these failures. The hash may be
listed in any order, and its counters may have changed since the job was added.
-/

namespace SyncCascade.Redis

namespace Reply

def ofTexts (texts : List String) : Reply := .list (texts.map .text)

theorem mapM_text? (texts : List String) : (texts.map Reply.text).mapM text? = some texts := by
  induction texts with
  | nil => rfl
  | cons t rest ih => simp [List.mapM_cons, ih, text?]

theorem texts?_ofTexts (texts : List String) : (ofTexts texts).texts? = some texts :=
  mapM_text? texts

theorem breaksRules_ofTexts (texts : List String) : (ofTexts texts).breaksRules = false := by
  unfold breaksRules ofTexts nestingLimit
  rw [breaksWithin]
  induction texts with
  | nil => rfl
  | cons t rest ih => simpa [anyBreaksWithin, breaksWithin] using ih

theorem asksForScript_ofTexts (texts : List String) : (ofTexts texts).asksForScript = false := by
  have hnone : firstRefusal? (texts.map .text) = none := by
    induction texts with
    | nil => rfl
    | cons t rest ih => simpa [firstRefusal?, refusal?] using ih
  simp [asksForScript, ofTexts, refusal?, hnone]

end Reply

namespace Fields

def reply (fields : Fields) : Reply := .ofTexts (fields.flatMap fun f => [f.1, f.2])

theorem ofTexts?_flatMap (fields : Fields) :
    ofTexts? (fields.flatMap fun f => [f.1, f.2]) = some fields := by
  induction fields with
  | nil => rfl
  | cons f rest ih => simp [ofTexts?, ih]

theorem fields?_reply (fields : Fields) : fields.reply.fields? = some fields := by
  have htexts := Reply.mapM_text? (fields.flatMap fun f => [f.1, f.2])
  simp only [reply, Reply.ofTexts, Reply.fields?, htexts]
  exact ofTexts?_flatMap fields

end Fields

namespace Client

variable {ρ α : Type} {L : Link ρ} {keyPrefix : String} {clock : Clock} {lane : Lane} {s s' : ρ}

theorem ask_of_answer {r : Request} {read : Reply → Option α} {reply : Reply} {a : α}
    (h : answerOnceLoaded L r s = (reply, s')) (hread : read reply = some a) :
    ask L r read s = (.ok a, s') := by
  simp [ask, h, hread, orGarbled]

theorem answerOnceLoaded_ofTexts {r : Request} {texts : List String}
    (h : L.send r s = (.ofTexts texts, s')) : answerOnceLoaded L r s = (.ofTexts texts, s') := by
  have hanswer : answer L r s = (.ofTexts texts, s') := by
    simp [answer, h, Reply.breaksRules_ofTexts]
  unfold answerOnceLoaded
  cases r.script? <;> simp [hanswer, Reply.asksForScript_ofTexts]

/-- The server answers for the records of failures one after another with these hashes; some records may
be gone. -/
inductive Fetches (L : Link ρ) (keyPrefix : String) (lane : Lane) :
    List String → ρ → List Fields → ρ → Prop
  | done (s : ρ) : Fetches L keyPrefix lane [] s [] s
  | gone {record : String} {records : List String} {reply : Reply} {hashes : List Fields} {s s₁ s₂ : ρ}
      (hempty : reply.fields? = some [])
      (hanswer : answerOnceLoaded L (failureRequest keyPrefix lane record) s = (reply, s₁))
      (hrest : Fetches L keyPrefix lane records s₁ hashes s₂) :
      Fetches L keyPrefix lane (record :: records) s hashes s₂
  | found {record : String} {records : List String} {fields listed : Fields} {hashes : List Fields}
      {s s₁ s₂ : ρ} (hsame : listed.Same fields)
      (hanswer : answerOnceLoaded L (failureRequest keyPrefix lane record) s = (listed.reply, s₁))
      (hrest : Fetches L keyPrefix lane records s₁ hashes s₂) :
      Fetches L keyPrefix lane (record :: records) s (fields :: hashes) s₂

theorem Fetches.fetchFailed_eq {records : List String} {hashes : List Fields}
    (h : Fetches L keyPrefix lane records s hashes s') {failures : List KeptFailure}
    (hhashes : failures.map KeptFailure.fields = hashes) :
    fetchFailed L keyPrefix clock lane records s = (.ok (failures.map (·.failed clock)), s') := by
  induction h generalizing failures with
  | done s =>
    rw [List.map_eq_nil_iff.1 hhashes]
    rfl
  | gone hempty hanswer _ ih =>
    have hask := ask_of_answer hanswer hempty
    simp [fetchFailed, hask, ih hhashes]
  | found hsame hanswer _ ih =>
    obtain ⟨k, rest, rfl, rfl, hrest'⟩ := List.map_eq_cons_iff.1 hhashes
    have hask := ask_of_answer hanswer (Fields.fields?_reply _)
    have hread := KeptFailure.failedJob_eq hsame clock
    have hne := (k.told_fields.of_same hsame).ne_nil
    simp [fetchFailed, hask, hread, ih hrest', hne]

/-- Answered with the hash, a claim returns the job. -/
def ClaimedFrom (keyPrefix : String) (fields : Fields) (job : ClaimedJob) : Prop :=
  ∀ {ρ : Type} (L : Link ρ) (clock : Clock) (lane : Lane) (lease : Timespan) (s s' : ρ)
    (listed : Fields), isTimely clock (.claim lane lease) = true → listed.Same fields →
    answerOnceLoaded L (claimRequest keyPrefix clock lane lease) s = (listed.reply, s') →
    call L keyPrefix clock (.claim lane lease) s = (.ok (some job), s')

/-- Answered with records and for these with the hashes, a listing of failures returns them. -/
def FailedFrom (keyPrefix : String) (hashes : List Fields) (failed : Clock → List FailedJob) : Prop :=
  ∀ {ρ : Type} (L : Link ρ) (clock : Clock) (lane : Lane) (records : List String) (s s₁ s₂ : ρ),
    answerOnceLoaded L (failedRequest keyPrefix lane) s = (.ofTexts records, s₁) →
    Fetches L keyPrefix lane records s₁ hashes s₂ →
    call L keyPrefix clock (.failedJobs lane) s = (.ok (failed clock), s₂)

theorem ClaimedFrom.of_same {fields fields' : Fields} {job : ClaimedJob}
    (h : ClaimedFrom keyPrefix fields' job) (hsame : fields.Same fields') :
    ClaimedFrom keyPrefix fields job :=
  fun L clock lane lease s s' listed htimely hlisted hanswer =>
    h L clock lane lease s s' listed htimely (hlisted.trans hsame) hanswer

theorem claimedFrom_kept (keyPrefix : String) (k : Kept) :
    ClaimedFrom keyPrefix k.fields k.claimed := by
  intro ρ L clock lane lease s s' listed htimely hsame hanswer
  have hask := ask_of_answer hanswer (Fields.fields?_reply listed)
  have htold : k.Told listed := k.told_fields.of_same hsame
  cases listed with
  | nil => exact absurd rfl htold.ne_nil
  | cons f rest =>
    simp only [call, htimely, if_true, exchange, hask, htold.claimedJob_eq]
    rfl

theorem failedFrom_kept (keyPrefix : String) (failures : List KeptFailure) :
    FailedFrom keyPrefix (failures.map KeptFailure.fields) fun clock => failures.map (·.failed clock) := by
  intro ρ L clock lane records s s₁ s₂ hrecords hfetches
  have hask := ask_of_answer hrecords (Reply.texts?_ofTexts records)
  simp only [call, isTimely, span?, Option.all_none, if_true, exchange, hask]
  exact hfetches.fetchFailed_eq rfl

end Client

open Client

/-- What is sent for a job that is added makes a hash that tells the job: claimed with its token, it is
the job with no attempt made, and at least one attempt granted. When its counters have changed, the job
differs by these counters only, and so it does in the listing of failures. -/
theorem job_survives_hash (keyPrefix : String) :
    (∀ (clock : Clock) (lane : Lane) (job : JobPayload) (options : LaneOptions) (delay : Timespan),
      Sends keyPrefix clock (.add lane job options delay)
          (addRequest keyPrefix clock lane job options delay) ∧
        (addRequest keyPrefix clock lane job options delay).hash? = some (addedHash job options)) ∧
    (∀ (job : JobPayload) (options : LaneOptions) (token : UInt64),
      ClaimedFrom keyPrefix ((addedHash job options).put "token" (Numeral.text token.toNat))
        ⟨job, token.toNat, 0, max options.attempts.toNat 1⟩) ∧
    (∀ k : Kept, ClaimedFrom keyPrefix k.fields
      ⟨{ k.added with dedupCount := k.dedupCount, stalled := k.stalled }, k.token.toNat,
        k.attemptsMade.toNat, max k.options.attempts.toNat 1⟩) ∧
    ∀ failures : List KeptFailure, FailedFrom keyPrefix (failures.map KeptFailure.fields)
      fun clock => failures.map fun k =>
        ⟨{ k.added with dedupCount := k.dedupCount, stalled := k.stalled }, k.attemptsMade.toNat,
          k.error, (Timestamp.ofMillis? k.failedAt.toInt).getD clock.wall⟩ := by
  refine ⟨fun clock lane job options delay => ⟨?_, ?_⟩, fun job options token => ?_, ?_, ?_⟩
  · exact sends_add keyPrefix clock lane job options delay
  · exact hash?_addRequest keyPrefix clock lane job options delay
  · exact ClaimedFrom.of_same (claimedFrom_kept keyPrefix (.first job options token))
      (Kept.fields_first job options token)
  · exact claimedFrom_kept keyPrefix
  · exact failedFrom_kept keyPrefix

/-- A batch that was claimed and given up once, from a server that lists its hash from the end; and the
batch in the listing of failures. -/
theorem job_survives_hash_batch :
    let clock : Clock := ⟨⟨1704067200, 0⟩, 0⟩
    let job : JobPayload := ⟨"a\"b\n", .fileClosure, some ["f1", "f2"], 1, 0, 0⟩
    let k : Kept := ⟨job, ⟨some 2, .ofMillis 1000, 0, .ofMillis 500⟩, 7, 1, 3, 1⟩
    let failure : KeptFailure := ⟨k, "job stalled", 1704067200123⟩
    let server : Link Unit := steadyLink fun
      | .command [_, _] => failure.fields.reply
      | .command _ => .ofTexts ["b:7"]
      | _ => Fields.reply k.fields.reverse
    call server "synctrack" clock (.claim .files (.ofMillis 30000)) () =
        (.ok (some ⟨{ job with dedupCount := 3, stalled := 1 }, 7, 1, 1⟩), ()) ∧
      call server "synctrack" clock (.failedJobs .files) () =
        (.ok [⟨{ job with dedupCount := 3, stalled := 1 }, 1, "job stalled",
          ⟨1704067200, 123000000⟩⟩], ()) := by
  intro clock job k failure server
  obtain ⟨-, -, hclaimed, hfailed⟩ := job_survives_hash "synctrack"
  have hsame : Fields.Same k.fields.reverse k.fields :=
    Fields.same_of_perm k.fields.reverse_perm (by decide +kernel)
  have hfetches : Fetches server "synctrack" .files ["b:7"] () ([failure].map KeptFailure.fields) () :=
    .found (fun _ => rfl) (answerOnceLoaded_ofTexts rfl) (.done ())
  constructor
  · exact hclaimed k server clock .files (.ofMillis 30000) () () _ (by decide) hsame
      (answerOnceLoaded_ofTexts rfl)
  · have htime : (Timestamp.ofMillis? failure.failedAt.toInt).getD clock.wall =
        ⟨1704067200, 123000000⟩ := by decide
    rw [← htime]
    exact hfailed [failure] server clock .files _ () () () (answerOnceLoaded_ofTexts rfl) hfetches

end SyncCascade.Redis
