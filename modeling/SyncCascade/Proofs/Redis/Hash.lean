import SyncCascade.Proofs.Payload
import SyncCascade.Redis.Client

/-!
# Hashes of jobs

The script that adds a job names the fields of its hash and says for each which argument of the call it
takes. Filled with the arguments that a client sends, these are the fields of `addedHash`. A hash is told
by the values of its fields, in whatever order they are listed; what a hash of a job tells is read back:
the payload from its text, the counters that a hash keeps beside it from their digits.
-/

namespace SyncCascade.Redis

/-- What stands for a value in a script. -/
inductive Operand where
  | number (n : Nat)
  /-- An argument of the call; the first has the number 1. -/
  | argument (n : Nat)
deriving DecidableEq, Repr

namespace Operand

def text? (args : List String) : Operand → Option String
  | number n => some (Numeral.text n)
  | argument 0 => none
  | argument (n + 1) => args[n]?

def ofWord? (word : List Char) : Option Operand :=
  match "ARGV[".toList.isPrefixOf? word with
  | some rest => (Numeral.natural? rest.dropLast).map argument
  | none => (Numeral.natural? word).map number

end Operand

namespace Script

def isGap (c : Char) : Bool := c.isWhitespace || c == ',' || c == '(' || c == ')'

def words (s : Script) : List (List Char) :=
  s.lines.flatMap fun line => (line.toList.splitOnP isGap).filter fun word => !word.isEmpty

def name? (word : List Char) : Option String :=
  match "'".toList.isPrefixOf? word with
  | some rest =>
    if "'".toList.isSuffixOf rest then some (String.ofList rest.dropLast) else none
  | none => none

/-- Names and operands in turn, up to the first word that is out of turn. -/
def assignments : List (List Char) → List (String × Operand)
  | first :: second :: rest =>
    match name? first, Operand.ofWord? second with
    | some name, some operand => (name, operand) :: assignments rest
    | _, _ => []
  | _ => []

/-- The fields that the first `HSET` of the script sets; they follow the key of the hash. -/
def hashFields (s : Script) : List (String × Operand) :=
  assignments ((s.words.dropWhile (· ≠ "'HSET'".toList)).drop 2)

theorem hashFields_add : add.hashFields = [
    ("payload", .argument 2), ("attempts_made", .number 0), ("max_attempts", .argument 3),
    ("backoff_ms", .argument 4), ("dedup_count", .argument 6), ("stalled", .argument 7)] := by
  decide +kernel

end Script

/-- The hash that the call of a script makes, if it has all the arguments for it. -/
def Request.hash? : Request → Option Fields
  | run script _ args => script.hashFields.mapM fun (name, operand) =>
      (operand.text? args).map (name, ·)
  | _ => none

def addedHash (job : JobPayload) (options : LaneOptions) : Fields := [
  ("payload", job.text), ("attempts_made", Numeral.text 0),
  ("max_attempts", Numeral.text (max options.attempts.toNat 1)),
  ("backoff_ms", Numeral.text (BackoffWindow.millisWord options.backoff)),
  ("dedup_count", Numeral.text job.dedupCount.toNat),
  ("stalled", Numeral.text job.stalled.toNat)]

theorem hash?_addRequest (keyPrefix : String) (clock : Clock) (lane : Lane) (job : JobPayload)
    (options : LaneOptions) (delay : Timespan) :
    (addRequest keyPrefix clock lane job options delay).hash? = some (addedHash job options) := by
  simp [addRequest, Request.hash?, Script.hashFields_add, Operand.text?, addedHash]

namespace Fields

/-- The hash with a field set; what the field held before is gone. -/
def put (fields : Fields) (name value : String) : Fields :=
  fields.filter (·.1 ≠ name) ++ [(name, value)]

/-- One hash, whose fields may be listed in different orders. -/
def Same (fields fields' : Fields) : Prop := ∀ name, fields.value? name = fields'.value? name

variable {fields fields' : Fields} {name other value : String}

theorem lookup_filter_of_ne (h : other ≠ name) (fields : Fields) :
    (fields.filter (·.1 ≠ name)).lookup other = fields.lookup other := by
  induction fields with
  | nil => rfl
  | cons f rest ih =>
    obtain ⟨first, value⟩ := f
    by_cases hname : first = name
    · have hskip : (other == first) = false := by simpa [hname] using h
      rw [List.filter_cons_of_neg (by simpa using hname), ih, List.lookup_cons, hskip]
    · rw [List.filter_cons_of_pos (by simpa using hname), List.lookup_cons, List.lookup_cons, ih]

@[simp] theorem value?_put_self : (fields.put name value).value? name = some value := by
  simp [put, value?]

@[simp] theorem value?_put_of_ne (h : other ≠ name) :
    (fields.put name value).value? other = fields.value? other := by
  have hskip : (other == name) = false := by simpa using h
  simp only [put, value?, List.reverse_append, List.reverse_cons, List.reverse_nil, List.nil_append,
    List.singleton_append, List.lookup_cons, hskip, ← List.filter_reverse]
  exact lookup_filter_of_ne h _

theorem Same.trans {fields'' : Fields} (h : fields.Same fields') (h' : fields'.Same fields'') :
    fields.Same fields'' := fun name => (h name).trans (h' name)

theorem same_put (h : fields.value? name = some value) : fields.Same (fields.put name value) := by
  intro other
  by_cases hname : other = name
  · rw [hname, h, value?_put_self]
  · rw [value?_put_of_ne hname]

theorem lookup_perm (hperm : fields.Perm fields') (hnames : (fields.map Prod.fst).Nodup) :
    fields.lookup name = fields'.lookup name := by
  induction hperm with
  | nil => rfl
  | cons f _ ih => rw [List.lookup_cons, List.lookup_cons, ih (List.nodup_cons.1 hnames).2]
  | swap f g rest =>
    have hne : g.1 ≠ f.1 := by simp_all
    rw [List.lookup_cons, List.lookup_cons, List.lookup_cons, List.lookup_cons]
    cases hg : name == g.1 with
    | false => rfl
    | true =>
      have hf : (name == f.1) = false := by simpa [eq_of_beq hg] using hne
      rw [hf]
  | trans h _ ih ih' => exact (ih hnames).trans (ih' ((h.map _).nodup_iff.1 hnames))

/-- The fields of a hash have distinct names, so they may be listed in any order. -/
theorem same_of_perm (hperm : fields.Perm fields') (hnames : (fields.map Prod.fst).Nodup) :
    fields.Same fields' := by
  intro name
  refine lookup_perm ((List.reverse_perm _).trans (hperm.trans (List.reverse_perm _).symm)) ?_
  exact (fields.reverse_perm.map Prod.fst).nodup_iff.2 hnames

theorem natural_of_value? {n bound : Nat} (h : fields.value? name = some (Numeral.text n))
    (hn : n < bound) : fields.natural name bound = .ok n := by
  have hread : Numeral.unsigned? bound (Numeral.text n).toList = some n := by
    simpa [Numeral.text] using Numeral.unsigned?_digits hn
  simp [natural, h, hread]

theorem integer_of_value? {n : Int64} (h : fields.value? name = some (wordText n)) :
    fields.integer name = .ok n.toInt := by
  have hread : Numeral.signed? (Word.limit 63) (wordText n).toList = some n.toInt :=
    Numeral.signed?_integerText n.le_toInt n.toInt_lt
  simp [integer, h, hread]

/-- The counters beside the payload count, those in its text do not. -/
theorem payload_of_value? {p : JobPayload} {dedupCount stalled : UInt32}
    (hpayload : fields.value? "payload" = some p.text)
    (hdedup : fields.value? "dedup_count" = some (Numeral.text dedupCount.toNat))
    (hstalled : fields.value? "stalled" = some (Numeral.text stalled.toNat)) :
    fields.payload = .ok { p with dedupCount := dedupCount, stalled := stalled } := by
  have hdedup' := natural_of_value? hdedup dedupCount.toNat_lt
  have hstalled' := natural_of_value? hstalled stalled.toNat_lt
  simp only [Fields.payload, hpayload, JobPayload.parse_text]
  change (do
    let d ← fields.natural "dedup_count" (2 ^ 32)
    let s ← fields.natural "stalled" (2 ^ 32)
    pure { p with dedupCount := UInt32.ofNat d, stalled := UInt32.ofNat s } : Except Failure _) = _
  rw [hdedup', hstalled']
  simp [pure, Except.pure, bind, Except.bind]

end Fields

/-- A job in its hash: as it was added, with the token of its claim and what its counters have come to. -/
structure Kept where
  added : JobPayload
  options : LaneOptions
  token : UInt64
  attemptsMade : UInt32
  dedupCount : UInt32
  stalled : UInt32

namespace Kept

def fields (k : Kept) : Fields :=
  ((((addedHash k.added k.options).put "token" (Numeral.text k.token.toNat)).put
    "attempts_made" (Numeral.text k.attemptsMade.toNat)).put
    "dedup_count" (Numeral.text k.dedupCount.toNat)).put
    "stalled" (Numeral.text k.stalled.toNat)

def payload (k : Kept) : JobPayload :=
  { k.added with dedupCount := k.dedupCount, stalled := k.stalled }

def claimed (k : Kept) : ClaimedJob :=
  ⟨k.payload, k.token.toNat, k.attemptsMade.toNat, max k.options.attempts.toNat 1⟩

def first (job : JobPayload) (options : LaneOptions) (token : UInt64) : Kept :=
  ⟨job, options, token, 0, job.dedupCount, job.stalled⟩

theorem fields_first (job : JobPayload) (options : LaneOptions) (token : UInt64) :
    Fields.Same ((addedHash job options).put "token" (Numeral.text token.toNat))
      (first job options token).fields := by
  refine (Fields.same_put ?_).trans ((Fields.same_put ?_).trans (Fields.same_put ?_)) <;>
    simp <;> rfl

/-- The fields tell the job, whatever stands beside them. -/
structure Told (k : Kept) (fields : Fields) : Prop where
  added : fields.value? "payload" = some k.added.text
  token : fields.value? "token" = some (Numeral.text k.token.toNat)
  attemptsMade : fields.value? "attempts_made" = some (Numeral.text k.attemptsMade.toNat)
  maxAttempts : fields.value? "max_attempts" = some (Numeral.text (max k.options.attempts.toNat 1))
  dedupCount : fields.value? "dedup_count" = some (Numeral.text k.dedupCount.toNat)
  stalled : fields.value? "stalled" = some (Numeral.text k.stalled.toNat)

variable {k : Kept} {fields listed : Fields}

theorem told_fields (k : Kept) : k.Told k.fields := by
  unfold Kept.fields
  constructor <;> simp <;> rfl

theorem Told.of_same (h : k.Told fields) (hsame : listed.Same fields) : k.Told listed where
  added := (hsame _).trans h.added
  token := (hsame _).trans h.token
  attemptsMade := (hsame _).trans h.attemptsMade
  maxAttempts := (hsame _).trans h.maxAttempts
  dedupCount := (hsame _).trans h.dedupCount
  stalled := (hsame _).trans h.stalled

theorem Told.ne_nil (h : k.Told fields) : fields ≠ [] := by
  rintro rfl
  cases h.added

theorem Told.payload_eq (h : k.Told fields) : fields.payload = .ok k.payload :=
  Fields.payload_of_value? h.added h.dedupCount h.stalled

theorem Told.natural_attemptsMade (h : k.Told fields) :
    fields.natural "attempts_made" (Word.limit 32) = .ok k.attemptsMade.toNat :=
  Fields.natural_of_value? h.attemptsMade k.attemptsMade.toNat_lt

theorem Told.claimedJob_eq (h : k.Told fields) : fields.claimedJob = .ok k.claimed := by
  have htoken : fields.natural "token" (Word.limit 64) = .ok k.token.toNat :=
    Fields.natural_of_value? h.token k.token.toNat_lt
  have hfits : max k.options.attempts.toNat 1 < Word.limit 32 :=
    Nat.max_lt.2 ⟨k.options.attempts.toNat_lt, by decide⟩
  simp only [Fields.claimedJob, h.payload_eq, htoken, h.natural_attemptsMade,
    Fields.natural_of_value? h.maxAttempts hfits]
  rfl

end Kept

/-- A job that failed, in its hash. -/
structure KeptFailure extends Kept where
  error : String
  /-- In milliseconds since 1970. -/
  failedAt : Int64

namespace KeptFailure

def fields (k : KeptFailure) : Fields :=
  (k.toKept.fields.put "error" k.error).put "failed_at" (wordText k.failedAt)

def failed (k : KeptFailure) (clock : Clock) : FailedJob :=
  ⟨k.payload, k.attemptsMade.toNat, k.error,
    (Timestamp.ofMillis? k.failedAt.toInt).getD clock.wall⟩

variable {k : KeptFailure} {listed : Fields}

theorem told_fields (k : KeptFailure) : k.toKept.Told k.fields := by
  obtain ⟨hadded, htoken, hmade, hmax, hdedup, hstalled⟩ := k.toKept.told_fields
  unfold KeptFailure.fields
  constructor <;> simp [*]

theorem failedJob_eq (h : listed.Same k.fields) (clock : Clock) :
    listed.failedJob clock = .ok (k.failed clock) := by
  have htold : k.toKept.Told listed := k.told_fields.of_same h
  have hat : listed.integer "failed_at" = .ok k.failedAt.toInt :=
    Fields.integer_of_value? ((h _).trans (by simp [fields]))
  have herror : listed.value? "error" = some k.error := (h _).trans (by simp [fields])
  simp only [Fields.failedJob, hat, htold.payload_eq, htold.natural_attemptsMade, herror]
  rfl

end KeptFailure

end SyncCascade.Redis
