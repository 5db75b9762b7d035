import SyncCascade.Hex
import SyncCascade.Word

/-!
# Universally unique identifiers

An identifier is 128 bits, ordered as a number, which is the order of its sixteen bytes. It has one
written form, lower-case and hyphenated, and four accepted spellings: the 32 digits alone, the
hyphenated form, that form in braces, and that form after `urn:uuid:`.
-/

namespace SyncCascade

structure Uuid where
  bits : BitVec 128
deriving DecidableEq, Repr, Inhabited

namespace Uuid

instance : LT Uuid := ⟨fun a b => a.bits.toNat < b.bits.toNat⟩

instance (a b : Uuid) : Decidable (a < b) := inferInstanceAs (Decidable (a.bits.toNat < b.bits.toNat))

theorem ext_toNat {a b : Uuid} (h : a.bits.toNat = b.bits.toNat) : a = b := by
  cases a; cases b; simp only [Uuid.mk.injEq]; exact BitVec.eq_of_toNat_eq h

/-- The digits in groups of 8, 4, 4, 4 and 12. -/
def hyphenate (ds : List Char) : List Char :=
  ds.take 8 ++ '-' :: (ds.drop 8).take 4 ++ '-' :: (ds.drop 12).take 4 ++
    '-' :: (ds.drop 16).take 4 ++ '-' :: ds.drop 20

def chars (u : Uuid) : List Char := hyphenate (Hex.digits 32 u.bits.toNat)

def text (u : Uuid) : String := String.ofList u.chars

def ofPlain? (cs : List Char) : Option Uuid :=
  if cs.length = 32 then (Hex.valueFrom? 0 cs).map fun n => ⟨BitVec.ofNat 128 n⟩ else none

/-- 36 characters with hyphens after 8, 12, 16 and 20 digits. -/
def ofHyphenated? (cs : List Char) : Option Uuid :=
  if cs.length = 36 ∧ cs[8]? = some '-' ∧ cs[13]? = some '-' ∧ cs[18]? = some '-' ∧
      cs[23]? = some '-' then
    ofPlain? (cs.take 8 ++ (cs.drop 9).take 4 ++ (cs.drop 14).take 4 ++ (cs.drop 19).take 4 ++
      cs.drop 24)
  else none

def urn : List Char := "urn:uuid:".toList

def ofChars? (cs : List Char) : Option Uuid :=
  if cs.length = 32 then ofPlain? cs
  else if cs.length = 36 then ofHyphenated? cs
  else if cs.length = 38 ∧ cs.head? = some '{' ∧ cs.getLast? = some '}' then
    ofHyphenated? ((cs.drop 1).take 36)
  else if cs.length = 45 ∧ (cs.take 9).map Char.toLower = urn then ofHyphenated? (cs.drop 9)
  else none

def parse? (s : String) : Option Uuid := ofChars? s.toList

/-- A time-ordered identifier: 48 bits of milliseconds, version 7, 12 bits, variant 2, 62 bits. -/
def timeOrdered (millis entropy : Nat) : Uuid :=
  let high := (millis % Word.limit 48) * Word.limit 16 + 7 * Word.limit 12 +
    (entropy / Word.limit 62) % Word.limit 12
  let low := 2 * Word.limit 62 + entropy % Word.limit 62
  ⟨BitVec.ofNat 128 (high * Word.limit 64 + low)⟩

def version (u : Uuid) : Nat := u.bits.toNat / Word.limit 76 % 16

end Uuid

end SyncCascade
