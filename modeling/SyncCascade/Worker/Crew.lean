import SyncCascade.Worker

/-!
# Crews of workers

A running worker does several duties over and over: each of its consumers drains the lane and then
waits for the next poll, and one sweep takes back stalled jobs. A crew does the duties of its workers
in the order in which they fall due; the work itself takes no time. Waits end on whole milliseconds.
-/

namespace SyncCascade

inductive Duty where
  | consume (consumer : Nat)
  | sweep
deriving DecidableEq, Repr

/-- The next time a worker does one of its duties. -/
structure Shift (σ β : Type) where
  worker : Worker σ β
  duty : Duty
  /-- On the clock of elapsed nanoseconds. -/
  due : Nat

namespace Worker

variable {σ β : Type} (W : Worker σ β)

/-- At least one consumer works, whatever is configured. -/
def consumers : Nat := max W.config.concurrency 1

/-- The whole millisecond after `now` at which a wait of `t` is over. -/
def wakeTime (now : Nat) (t : Timespan) : Nat :=
  max ((now + t.nanos + 999999) / 1000000) (now / 1000000 + 1) * 1000000

/-- The consumers look at the lane at once, the sweep waits first. -/
def firstShifts (now : Nat) : List (Shift σ β) :=
  (List.range W.consumers).map (fun i => ⟨W, .consume i, now⟩) ++
    [⟨W, .sweep, wakeTime now W.config.stalledInterval⟩]

/-- Runs jobs until none is ready or one cannot be settled, and no more than `most` jobs. -/
def drain (consumer : Nat) : (most : Nat) → Action σ β Unit
  | 0 => pure ()
  | most + 1 => do
    match ← W.processNext.attempt with
    | .ok .idle => pure ()
    | .ok _ => drain consumer most
    | .error e => .note (.processingFailed W.lane consumer e)

def sweep : Action σ β Unit := do
  match ← W.recoverStalled.attempt with
  | .ok _ => pure ()
  | .error e => .note (.recoveryFailed W.lane e)

def start : Action σ β Unit := do
  .touch W.lane
  .note (.workerStarted W.lane W.config.concurrency)

def stopConsumers : (consumers : List Nat) → Action σ β Unit
  | [] => pure ()
  | i :: rest => do
    .note (.consumerStopped W.lane i)
    stopConsumers rest

def stop : Action σ β Unit := do
  W.stopConsumers (List.range W.consumers)
  .note (.workerStopped W.lane)

end Worker

namespace Shift

variable {σ β : Type}

/-- More jobs than a lane is asked to run between two polls. -/
def drainLimit : Nat := 1000000

def perform (s : Shift σ β) : Action σ β Unit :=
  match s.duty with
  | .consume i => s.worker.drain i drainLimit
  | .sweep => s.worker.sweep

def wait (s : Shift σ β) : Timespan :=
  match s.duty with
  | .consume _ => s.worker.config.pollInterval
  | .sweep => s.worker.config.stalledInterval

/-- The shift among others in the order in which they are due, after those due at the same time. -/
def insert (s : Shift σ β) : List (Shift σ β) → List (Shift σ β)
  | [] => [s]
  | t :: rest => if t.due ≤ s.due then t :: insert s rest else s :: t :: rest

def sort : List (Shift σ β) → List (Shift σ β) := List.foldl (fun acc s => insert s acc) []

end Shift

namespace Crew

variable {σ β : Type}

def waitUntil (reading : Nat) : Action σ β Unit :=
  .update fun w => { w with clock := { w.clock with elapsed := max w.clock.elapsed reading } }

/-- Does the shifts that are due before `stop`, and at most `most` of them. -/
def run (stop : Nat) : (most : Nat) → List (Shift σ β) → Action σ β Unit
  | 0, _ => pure ()
  | _ + 1, [] => pure ()
  | most + 1, s :: rest =>
    if s.due < stop then do
      waitUntil s.due
      s.perform
      let now := (← Action.world).clock.elapsed
      run stop most (Shift.insert { s with due := Worker.wakeTime now s.wait } rest)
    else pure ()

def each (step : Worker σ β → Action σ β Unit) : List (Worker σ β) → Action σ β Unit
  | [] => pure ()
  | W :: rest => do
    step W
    each step rest

/-- Lets the workers run for a time and stops them. A duty is done at most once in a millisecond,
which bounds the shifts. -/
def work (crew : List (Worker σ β)) (millis : Nat) : Action σ β Unit := do
  let now := (← Action.world).clock.elapsed
  let stop := now + (Timespan.ofMillis millis).nanos
  each Worker.start crew
  let shifts := Shift.sort (crew.flatMap fun W => W.firstShifts now)
  run stop (shifts.length * (millis + 1)) shifts
  waitUntil stop
  each Worker.stop crew

end Crew

end SyncCascade
