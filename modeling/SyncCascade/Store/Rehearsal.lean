import SyncCascade.Store.Session
import SyncCascade.World

/-!
# Transactions that fail as a script says

A storage without rows, for trying out how transactions are repeated: the script tells how the next
transactions start, how many of their commits fail and how the next work in them ends. Where a list
has run out, everything succeeds.
-/

namespace SyncCascade

structure Rehearsal where
  starts : List (Option Failure)
  /-- How many of the next commits fail. -/
  failingCommits : Nat
  works : List (Option Failure)
  /-- The isolation of the starts so far, the first one first. -/
  levels : List IsolationLevel
  /-- How often work was done. -/
  worked : Nat
deriving DecidableEq, Repr

namespace Rehearsal

def outcome (script : List (Option Failure)) : Except Failure Unit :=
  match script.head? with
  | some (some e) => .error e
  | _ => .ok ()

def start (level : IsolationLevel) (r : Rehearsal) : Except Failure Unit × Rehearsal :=
  (outcome r.starts, { r with starts := r.starts.tail, levels := r.levels ++ [level] })

def commit (r : Rehearsal) : Except Failure Unit × Rehearsal :=
  match r.failingCommits with
  | 0 => (.ok (), r)
  | n + 1 => (.error Session.commitFailure, { r with failingCommits := n })

def work (r : Rehearsal) : Except Failure Nat × Rehearsal :=
  ((outcome r.works).map fun _ => r.worked,
    { r with works := r.works.tail, worked := r.worked + 1 })

def ofScript (starts : List (Option Failure)) (failingCommits : Nat)
    (works : List (Option Failure)) : Rehearsal :=
  ⟨starts, failingCommits, works, [], 0⟩

def workAction {β : Type} : Action Rehearsal β Nat := .onStore fun _ r => r.work

def storage : Storage Rehearsal where
  start _ level r := r.start level
  call _ _ r := (.error (.storage "there are no rows"), r)
  commit _ r := r.commit
  rollback r := r
  ping r := (.ok (), r)
  release r := r
  announcesStart := false
  announces _ := false

end Rehearsal

end SyncCascade
