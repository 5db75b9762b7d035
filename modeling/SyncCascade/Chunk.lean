/-!
# Chunks of a list

A list is cut from its front into pieces of one size; only the last may be shorter.
-/

namespace SyncCascade.Chunk

variable {α : Type}

def upTo (size : Nat) : (fuel : Nat) → List α → List (List α)
  | 0, _ => []
  | _ + 1, [] => []
  | fuel + 1, x :: xs => (x :: xs).take size :: upTo size fuel ((x :: xs).drop size)

/-- Every piece holds at least one element, so there are no more pieces than elements. -/
def pieces (size : Nat) (xs : List α) : List (List α) := upTo (max size 1) xs.length xs

end SyncCascade.Chunk
