import SyncCascade.Word

/-!
# Spans of time

A span is a whole number of nanoseconds. It is given in seconds and nanoseconds, where the seconds
are a 64-bit word.
-/

namespace SyncCascade

structure Timespan where
  nanos : Nat
deriving DecidableEq, Repr, Inhabited

namespace Timespan

def zero : Timespan := ⟨0⟩

def ofSeconds (s : Nat) : Timespan := ⟨s * 1000000000⟩

def ofMillis (ms : Nat) : Timespan := ⟨ms * 1000000⟩

def seconds (t : Timespan) : Nat := t.nanos / 1000000000

def subsecondNanos (t : Timespan) : Nat := t.nanos % 1000000000

def wholeMillis (t : Timespan) : Nat := t.nanos / 1000000

/-- Nanoseconds beyond a second are carried; the seconds must stay a 64-bit word. -/
def ofParts? (seconds nanos : Nat) : Option Timespan :=
  let total := seconds * 1000000000 + nanos
  if total < Word.limit 64 * 1000000000 then some ⟨total⟩ else none

end Timespan

end SyncCascade
