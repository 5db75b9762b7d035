/-!
# Repeated neighbours

In a sorted list equal elements stand side by side, so keeping one of each run of equal neighbours
keeps each element once.
-/

namespace SyncCascade

variable {α : Type} [DecidableEq α]

/-- Keeps the last of each run of equal neighbours. -/
def dropRepeats : List α → List α
  | [] => []
  | [a] => [a]
  | a :: b :: rest => if a = b then dropRepeats (b :: rest) else a :: dropRepeats (b :: rest)

end SyncCascade
