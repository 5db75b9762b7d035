import SyncCascade.Hex

/-!
# Percent-encoded text

A byte may be written as a percent sign and two hexadecimal digits; a percent sign without them
stands for itself. The bytes must be UTF-8.
-/

namespace SyncCascade.Http.Percent

def hexValue? (b : UInt8) : Option Nat := Hex.value? (Char.ofNat b.toNat)

def decodeBytes : List UInt8 → List UInt8
  | 37 :: a :: b :: rest =>
    match hexValue? a, hexValue? b with
    | some high, some low => UInt8.ofNat (16 * high + low) :: decodeBytes rest
    | _, _ => 37 :: decodeBytes (a :: b :: rest)
  | b :: rest => b :: decodeBytes rest
  | [] => []

def decode? (s : String) : Option String :=
  String.fromUTF8? ⟨(decodeBytes s.toUTF8.toList).toArray⟩

end SyncCascade.Http.Percent
