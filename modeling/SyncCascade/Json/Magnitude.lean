import SyncCascade.Json.Node
import SyncCascade.Word

/-!
# Magnitudes of JSON numbers

A number that is no integer is read as a double in two steps. Its leading digits, as many as fit into
a 64-bit word, make a significand and the others only count; then the double next to the significand
is multiplied by the double next to a power of ten. A number whose product is beyond all doubles is
refused. Since both factors are rounded, the bound lies a little below the greatest double.
-/

namespace SyncCascade.Json

/-- The number of 53 significant bits next to `n`; of two, the one whose last bit is zero. -/
def nearestDouble (n : Nat) : Nat :=
  let unit := Word.limit (n.log2 - 52)
  let quotient := n / unit
  let twice := 2 * (n % unit)
  (if unit < twice || (twice == unit && quotient % 2 == 1) then quotient + 1 else quotient) * unit

/-- Half a unit in the last place beyond the greatest double. -/
def overflowThreshold : Nat := Word.limit 1024 - Word.limit 970

/-- The greatest power of ten that a double comes near. -/
def greatestScale : Nat := 308

namespace Lexeme

/-- Continues a word with digits for as long as it stays a word, and counts the digits left over. -/
def absorb (word : Nat) : List Char → Nat × Nat
  | [] => (word, 0)
  | c :: rest =>
    let next := 10 * word + (Numeral.digitValue? c).getD 0
    if next < Word.limit 64 then absorb next rest else (word, rest.length + 1)

def exponentValue (n : Lexeme) : Int :=
  match n.exponent with
  | '-' :: ds => -((Numeral.natural? ds).getD 0 : Nat)
  | ds => ((Numeral.natural? ds).getD 0 : Nat)

/-- A word and a power of ten whose product is about the number. -/
def scaled (n : Lexeme) : Nat × Int :=
  let (whole, more) := absorb 0 n.whole
  let (significand, ignored) := absorb whole n.fraction
  (significand, n.exponentValue + more + ignored - n.fraction.length)

def isFinite (n : Lexeme) : Bool :=
  match n.scaled with
  | (0, _) => true
  | (_, .negSucc _) => true
  | (significand, .ofNat scale) =>
    decide (scale ≤ greatestScale) &&
      decide (nearestDouble significand * nearestDouble (Nat.pow 10 scale) < overflowThreshold)

end Lexeme

end SyncCascade.Json
