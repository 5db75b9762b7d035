import SyncCascade.ConfigJson
import SyncCascade.SocketAddress
import SyncCascade.Word

/-!
# Settings of the service

The command line names what differs from the defaults. An option takes its value from the same
argument, after an equals sign, or from the next one, which then must not look like an option. No
option may be given twice.
-/

namespace SyncCascade

structure Settings where
  bindAddress : SocketAddress
  /-- Without it everything is stored in memory. -/
  databaseUrl : Option String
  databaseMaxConnections : Nat
  /-- Whether the schema is created at the start. -/
  databaseMigrate : Bool
  /-- Without it the lanes are kept in memory. -/
  redisUrl : Option String
  queuePrefix : String
  isolationLevel : IsolationLevel
  retryEnabled : Bool
  numRetries : UInt32
  changesetBatchSize : Nat
  dedupDelayMillis : Nat
  attempts : UInt32
  backoffMillis : Nat
  workerConcurrency : Nat
  pollIntervalMillis : Nat
  leaseMillis : Nat
  stalledIntervalMillis : Nat
  failureDelayMinMillis : Nat
  failureDelayMaxMillis : Nat
deriving DecidableEq, Repr

namespace Settings

def default : Settings where
  bindAddress := ⟨.octets 0 0 0 0, 8080⟩
  databaseUrl := none
  databaseMaxConnections := 10
  databaseMigrate := false
  redisUrl := none
  queuePrefix := "synctrack"
  isolationLevel := .serializable
  retryEnabled := true
  numRetries := 3
  changesetBatchSize := 100
  dedupDelayMillis := 1000
  attempts := 3
  backoffMillis := 1000
  workerConcurrency := 1
  pollIntervalMillis := 100
  leaseMillis := 30000
  stalledIntervalMillis := 30000
  failureDelayMinMillis := 500
  failureDelayMaxMillis := 5000

def transaction (s : Settings) : TransactionConfig :=
  ⟨s.isolationLevel, ⟨s.retryEnabled, s.numRetries⟩⟩

/-- Only changesets are pushed in batches. -/
def queue (s : Settings) : QueueConfig :=
  let lane : LaneOptions :=
    ⟨none, .ofMillis s.dedupDelayMillis, s.attempts, .ofMillis s.backoffMillis⟩
  ⟨s.queuePrefix, { lane with batchSize := some (max s.changesetBatchSize 1) }, lane, lane⟩

/-- The bounds of the failure delay may be given in either order. -/
def worker (s : Settings) : WorkerConfig where
  concurrency := max s.workerConcurrency 1
  pollInterval := .ofMillis s.pollIntervalMillis
  lease := .ofMillis s.leaseMillis
  stalledInterval := .ofMillis s.stalledIntervalMillis
  failureDelay :=
    ⟨.ofMillis (min s.failureDelayMinMillis s.failureDelayMaxMillis),
      .ofMillis (max s.failureDelayMinMillis s.failureDelayMaxMillis)⟩

open Json in
def toJson (s : Settings) : Json := .object [
  ("bind_addr", .string s.bindAddress.text),
  ("database_max_connections", ofNat s.databaseMaxConnections),
  ("database_migrate", .bool s.databaseMigrate),
  ("database_url", ofOption .string s.databaseUrl),
  ("queue", s.queue.toJson),
  ("redis_url", ofOption .string s.redisUrl),
  ("transaction", s.transaction.toJson),
  ("worker", s.worker.toJson)]

inductive Refusal where
  /-- Help is asked for. -/
  | help
  | invalid
deriving DecidableEq, Repr

def word? (s : String) : Option Nat := Numeral.unsigned? (Word.limit 64) s.toList

/-- A 32-bit word; zero may carry a minus sign. -/
def halfWord? (s : String) : Option UInt32 :=
  ((Numeral.signed? (Word.limit 63) s.toList).filter fun n => 0 ≤ n ∧ n < (Word.limit 32 : Int)).map fun n =>
    UInt32.ofNat n.toNat

def bool? (s : String) : Option Bool :=
  if s = "true" then some true else if s = "false" then some false else none

/-- The settings with the value of an option; nothing, if there is no such option or its value makes
no sense. -/
def assign? (s : Settings) (option value : String) : Option Settings :=
  match option with
  | "bind-addr" => (SocketAddress.parse? value).map fun a => { s with bindAddress := a }
  | "database-url" => some { s with databaseUrl := some value }
  | "database-max-connections" =>
    (halfWord? value).map fun n => { s with databaseMaxConnections := n.toNat }
  | "redis-url" => some { s with redisUrl := some value }
  | "queue-prefix" => some { s with queuePrefix := value }
  | "isolation-level" =>
    (IsolationLevel.parse value).toOption.map fun l => { s with isolationLevel := l }
  | "transaction-retry-enabled" => (bool? value).map fun b => { s with retryEnabled := b }
  | "transaction-num-retries" => (halfWord? value).map fun n => { s with numRetries := n }
  | "changeset-batch-size" => (word? value).map fun n => { s with changesetBatchSize := n }
  | "dedup-delay-ms" => (word? value).map fun n => { s with dedupDelayMillis := n }
  | "attempts" => (halfWord? value).map fun n => { s with attempts := n }
  | "backoff-ms" => (word? value).map fun n => { s with backoffMillis := n }
  | "worker-concurrency" => (word? value).map fun n => { s with workerConcurrency := n }
  | "poll-interval-ms" => (word? value).map fun n => { s with pollIntervalMillis := n }
  | "lease-ms" => (word? value).map fun n => { s with leaseMillis := n }
  | "stalled-interval-ms" => (word? value).map fun n => { s with stalledIntervalMillis := n }
  | "transaction-failure-delay-min-ms" =>
    (word? value).map fun n => { s with failureDelayMinMillis := n }
  | "transaction-failure-delay-max-ms" =>
    (word? value).map fun n => { s with failureDelayMaxMillis := n }
  | _ => none

inductive Argument where
  /-- Two hyphens alone. -/
  | separator
  | long (name : String) (value : Option String)
  | short (flags : List Char)
  | value (s : String)
deriving DecidableEq, Repr

def Argument.ofString (s : String) : Argument :=
  match s.toList with
  | ['-', '-'] => .separator
  | '-' :: '-' :: rest =>
    let (name, attached) := rest.span (· ≠ '=')
    .long (String.ofList name) (match attached with
      | [] => none
      | _ :: cs => some (String.ofList cs))
  | '-' :: c :: rest => .short (c :: rest)
  | _ => .value s

/-- The settings `s`, in which the options `given` have been named, with those of the arguments. -/
def read (s : Settings) (given : List String) : List String → Except Refusal Settings
  | [] => .ok s
  | argument :: rest =>
    match Argument.ofString argument with
    | .separator => if rest.isEmpty then .ok s else .error .invalid
    | .short ('h' :: _) => .error .help
    | .short _ => .error .invalid
    | .value _ => .error .invalid
    | .long name (some value) =>
      if given.contains name then .error .invalid
      else
        match s.assign? name value with
        | some s => read s (name :: given) rest
        | none => .error .invalid
    | .long name none =>
      if given.contains name then .error .invalid
      else if name = "help" then .error .help
      else if name = "database-migrate" then
        read { s with databaseMigrate := true } (name :: given) rest
      else
        match rest with
        | [] => .error .invalid
        | next :: rest =>
          match Argument.ofString next with
          | .value value =>
            match s.assign? name value with
            | some s => read s (name :: given) rest
            | none => .error .invalid
          | _ => .error .invalid

def parse (arguments : List String) : Except Refusal Settings := read default [] arguments

end Settings

end SyncCascade
