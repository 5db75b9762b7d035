/-!
# Hexadecimal digits

Digits are written in lower case and read in either case.
-/

namespace SyncCascade.Hex

def digit (d : Nat) : Char := Nat.digitChar (d % 16)

def value? (c : Char) : Option Nat :=
  let n := c.toNat
  if 48 ≤ n ∧ n ≤ 57 then some (n - 48)
  else if 97 ≤ n ∧ n ≤ 102 then some (n - 87)
  else if 65 ≤ n ∧ n ≤ 70 then some (n - 55)
  else none

def digits : (width : Nat) → (n : Nat) → List Char
  | 0, _ => []
  | width + 1, n => digits width (n / 16) ++ [digit n]

def valueFrom? (acc : Nat) : List Char → Option Nat
  | [] => some acc
  | c :: rest =>
    match value? c with
    | some d => valueFrom? (16 * acc + d) rest
    | none => none

end SyncCascade.Hex
