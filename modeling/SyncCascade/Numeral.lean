/-!
# Decimal numerals

Whole numbers are written without leading zeros and with a minus sign where negative. Two readers
are given: a bare run of digits, and a word of a fixed width, which may carry a sign and is refused
outside its range.
-/

namespace SyncCascade.Numeral

def digits (n : Nat) : List Char := Nat.toDigits 10 n

def text (n : Nat) : String := String.ofList (digits n)

def integerText (n : Int) : String :=
  match n with
  | .ofNat m => text m
  | .negSucc m => String.ofList ('-' :: digits (m + 1))

def digitValue? (c : Char) : Option Nat :=
  if 48 ≤ c.toNat ∧ c.toNat ≤ 57 then some (c.toNat - 48) else none

def isDigit (c : Char) : Bool := (digitValue? c).isSome

def valueFrom (acc : Nat) : List Char → Option Nat
  | [] => some acc
  | c :: rest =>
    match digitValue? c with
    | some d => valueFrom (10 * acc + d) rest
    | none => none

/-- A run of at least one digit. -/
def natural? : List Char → Option Nat
  | [] => none
  | cs => valueFrom 0 cs

/-- A number below `bound`, with an optional plus sign. -/
def unsigned? (bound : Nat) (cs : List Char) : Option Nat :=
  let body := match cs with
    | '+' :: rest => rest
    | _ => cs
  (natural? body).filter (· < bound)

/-- A number at least `-bound` and below `bound`, with an optional sign. -/
def signed? (bound : Nat) (cs : List Char) : Option Int :=
  match cs with
  | '-' :: rest => ((natural? rest).filter (· ≤ bound)).map fun n => -(n : Int)
  | _ => (unsigned? bound cs).map Int.ofNat

/-- The last `width` decimal digits of `n`, with leading zeros. -/
def padded : (width : Nat) → (n : Nat) → List Char
  | 0, _ => []
  | width + 1, n => padded width (n / 10) ++ [Nat.digitChar (n % 10)]

end SyncCascade.Numeral
