import SyncCascade.Postgres.Statement
import SyncCascade.Store.Storage
import SyncCascade.Word

/-!
# A client of Postgres

The client sends the calls of one unit of work over one connection. When the server hangs up, the
connection is lost for the rest of the unit of work; the next one gets another. The codes with which
a server gives up a transaction or refuses a row decide what a call fails with.
-/

namespace SyncCascade.Postgres

structure Result where
  affected : Nat
  rows : List Row
deriving DecidableEq, Repr

inductive Reply where
  | done (r : Result)
  /-- The server reports an error under a code. -/
  | refused (code message : String)
  /-- The server hangs up. -/
  | dropped
deriving DecidableEq, Repr

/-- How a server in state `ρ` answers. -/
abbrev Link (ρ : Type) := Request → ρ → Reply × ρ

structure Client (ρ : Type) where
  server : ρ
  /-- No connection is given out any more. -/
  closed : Bool
  /-- The connection in use is lost. -/
  lost : Bool
deriving DecidableEq

def refusal (operation code message : String) : Failure :=
  let why := "database error in " ++ operation ++ ": " ++ message
  if code = "40001" ∨ code = "40P01" then .transaction why
  else if code = "23505" then .alreadyExists why
  else if code = "23503" then .notFound why
  else .storage why

/-- The failure of an operation whose answer is lost or cannot be read. -/
def garbled (operation : String) : Failure :=
  .storage ("sqlx error in " ++ operation ++ ": no readable answer")

def poolClosed (operation : String) : Failure :=
  .storage ("connection pool closed in " ++ operation)

def operation : StoreCall → String
  | .findSync _ => "find_sync"
  | .insertSync _ => "insert_sync"
  | .tryCloseSync _ => "try_close_sync"
  | .latestRerun _ => "latest_rerun"
  | .decrementTotalFiles .. => "decrement_total_files"
  | .findFile _ => "find_file"
  | .insertFile _ => "insert_file"
  | .tryCloseFile _ => "try_close_file"
  | .deleteEmptyFiles _ => "delete_empty_files"
  | .reopenFiles _ => "reopen_files_with_not_synced"
  | .findEntity .. => "find_entity"
  | .insertEntities _ => "insert_entities"
  | .patchEntity .. => "patch_entity"
  | .markCompleted _ => "mark_changeset_entities_completed"
  | .findFiles .. => "find_files_for_changesets"
  | .resetEntities _ => "reset_entities_for_rerun"
  | .findChangeset _ => "find_changeset"
  | .insertChangeset _ => "insert_changeset"
  | .archiveEntities .. => "archive_entities"
  | .history _ => "history_for_sync"

namespace Result

def none : Result := ⟨0, []⟩

def first {α : Type} (read : Row → Except Failure α) (r : Result) : Except Failure (Option α) :=
  match r.rows with
  | [] => .ok Option.none
  | row :: _ => (read row).map some

def every {α : Type} (read : Row → Except Failure α) (r : Result) : Except Failure (List α) :=
  r.rows.mapM read

def expectRow (missing : Failure) (r : Result) : Except Failure Unit :=
  if r.affected = 0 then .error missing else .ok ()

/-- A reader whose failure is that of the whole answer to the call. -/
def orGarbled {α : Type} (c : StoreCall) (read : Row → Option α) (row : Row) :
    Except Failure α :=
  match read row with
  | some a => .ok a
  | Option.none => .error (garbled (operation c))

/-- What a call is told by the result of its last statement. -/
def read : (c : StoreCall) → Result → Except Failure c.Reply
  | .findSync _, r => r.first SyncRun.ofColumns
  | .insertSync _, _ => .ok ()
  | .tryCloseSync id, r => r.every (orGarbled (.tryCloseSync id) fun row => row.get? "id" Value.id?)
  | .latestRerun _, r => r.first SyncRun.ofColumns
  | .decrementTotalFiles id _, r => r.expectRow (.syncMissing id)
  | .findFile _, r => r.first File.ofColumns
  | .insertFile _, _ => .ok ()
  | .tryCloseFile id, r =>
    r.first (orGarbled (.tryCloseFile id) fun row => row.get? "sync_id" Value.id?)
  | .deleteEmptyFiles _, r => .ok r.affected
  | .reopenFiles _, r => .ok r.affected
  | .findEntity .., r => r.first Entity.ofColumns
  | .insertEntities _, _ => .ok ()
  | .patchEntity id file _, r => r.expectRow (.entityMissing id file)
  | .markCompleted _, r => .ok r.affected
  | .findFiles ids statuses, r =>
    r.every (orGarbled (.findFiles ids statuses) fun row => row.get? "file_id" Value.id?)
  | .resetEntities _, r => .ok r.affected
  | .findChangeset id, r => r.first (orGarbled (.findChangeset id) Changeset.ofColumns?)
  | .insertChangeset _, _ => .ok ()
  | .archiveEntities .., r => .ok r.affected
  | .history _, r => r.every EntityHistory.ofColumns

end Result

namespace Client

def greatestCount : Nat := Word.limit 63 - 1

def obstacle : StoreCall → Option Failure
  | .decrementTotalFiles _ count =>
    if count ≤ greatestCount then none
    else some (.storage ("file count " ++ Numeral.text count ++ " out of range"))
  | _ => none

variable {ρ α : Type} (L : Link ρ)

/-- Sends a request, unless the connection is lost. -/
def send (operation : String) (r : Request) (c : Client ρ) : Except Failure Result × Client ρ :=
  if c.lost then (.error (garbled operation), c)
  else
    match L r.sent c.server with
    | (.done result, s) => (.ok result, { c with server := s })
    | (.refused code message, s) => (.error (refusal operation code message), { c with server := s })
    | (.dropped, s) => (.error (garbled operation), { c with server := s, lost := true })

/-- Sends statements up to the first that fails; gives the result of the last one. -/
def sendAll (operation : String) : Result → List Statement → Client ρ →
    Except Failure Result × Client ρ
  | last, [], c => (.ok last, c)
  | _, s :: rest, c =>
    match send L operation (.run s) c with
    | (.ok result, c) => sendAll operation result rest c
    | (.error f, c) => (.error f, c)

def connected (operation : String) (r : Request) (c : Client ρ) :
    Except Failure Unit × Client ρ :=
  if c.closed then (.error (poolClosed operation), c)
  else
    match send L operation r { c with lost := false } with
    | (.ok _, c) => (.ok (), c)
    | (.error f, c) => (.error f, c)

def start (level : IsolationLevel) (c : Client ρ) : Except Failure Unit × Client ρ :=
  match connected L "begin_transaction" .start c with
  | (.error f, c) => (.error f, c)
  | (.ok (), c) =>
    match send L "set_isolation" (.isolate level) c with
    | (.ok _, c) => (.ok (), c)
    | (.error f, c) => (.error f, c)

def commit (c : Client ρ) : Except Failure Unit × Client ρ :=
  match send L "commit_transaction" .commit c with
  | (.ok _, c) => (.ok (), c)
  | (.error f, c) => (.error f, c)

def call (q : StoreCall) (c : Client ρ) : Except Failure q.Reply × Client ρ :=
  match obstacle q with
  | some f => (.error f, c)
  | none =>
    match sendAll L (operation q) .none (Statement.ofCall q) c with
    | (.ok result, c) => (result.read q, c)
    | (.error f, c) => (.error f, c)

def migrate : Client ρ → Except Failure Unit × Client ρ := connected L "migrate" (.run .migrate)

def ping : Client ρ → Except Failure Unit × Client ρ := connected L "ping" (.run .ping)

/-- The calls whose failures are reported in the journal. -/
def announces : StoreCall → Bool
  | .insertSync _ | .tryCloseSync _ | .insertFile _ | .tryCloseFile _ | .insertEntities _ |
    .markCompleted _ | .archiveEntities .. => true
  | _ => false

/-- The storage behind the client. The server undoes a unit of work that is not committed by
itself. -/
def storage : Storage (Client ρ) where
  start _ level c := start L level c
  call _ q c := call L q c
  commit _ c := commit L c
  rollback c := c
  ping := ping L
  release c := { c with closed := true }
  announcesStart := true
  announces := announces

end Client

end SyncCascade.Postgres
