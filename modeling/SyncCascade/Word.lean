import SyncCascade.Failure

/-!
# Words

A word of `bits` bits takes the numbers below its limit. A sum of words into which a row or a setting
enters is checked: where it does not fit, the program stops. A counter that only the program itself
counts up, as that of the pushes for which a job stands, is a plain word, and what is said about its
number is said below the limit.
-/

namespace SyncCascade.Word

/-- The least number that does not fit into so many bits. -/
def limit (bits : Nat) : Nat := Nat.pow 2 bits

theorem limit_pos (bits : Nat) : 0 < limit bits := Nat.pow_pos (by decide)

def checked {α : Type} (least greatest : Int) (word : Int → α) (n : Int) : Except Failure α :=
  if least ≤ n ∧ n ≤ greatest then .ok (word n) else .error .overflow

def uint32 : Int → Except Failure UInt32 := checked 0 4294967295 fun n => UInt32.ofNat n.toNat

def int32 : Int → Except Failure Int32 := checked (-2147483648) 2147483647 Int32.ofInt

def int64 : Int → Except Failure Int64 :=
  checked (-9223372036854775808) 9223372036854775807 Int64.ofInt

section Checked

variable {α : Type} {least greatest n : Int} {word : Int → α} {a : α} {e : Failure}

theorem checked_eq_ok :
    checked least greatest word n = .ok a ↔ (least ≤ n ∧ n ≤ greatest) ∧ word n = a := by
  unfold checked
  split <;> simp [*]

theorem checked_eq_error :
    checked least greatest word n = .error e ↔ ¬ (least ≤ n ∧ n ≤ greatest) ∧ .overflow = e := by
  unfold checked
  split <;> simp [*]

theorem isOk_checked : (checked least greatest word n).isOk = true ↔ least ≤ n ∧ n ≤ greatest := by
  unfold checked
  split <;> simp [Except.isOk, Except.toBool, *]

end Checked

theorem uint32_eq_ok {n : Int} {a : UInt32} : uint32 n = .ok a ↔ (a.toNat : Int) = n := by
  rw [uint32, checked_eq_ok]
  constructor
  · rintro ⟨⟨hleast, hgreatest⟩, rfl⟩
    rw [UInt32.toNat_ofNat_of_lt' (by simp only [UInt32.size]; omega)]
    omega
  · rintro rfl
    have hlt := a.toNat_lt
    exact ⟨by omega, by rw [Int.toNat_natCast, UInt32.ofNat_toNat]⟩

theorem int32_eq_ok {n : Int} {a : Int32} : int32 n = .ok a ↔ a.toInt = n := by
  rw [int32, checked_eq_ok]
  constructor
  · rintro ⟨⟨hleast, hgreatest⟩, rfl⟩
    exact Int32.toInt_ofInt_of_le hleast (by omega)
  · rintro rfl
    have hle := a.le_toInt
    have hlt := a.toInt_lt
    exact ⟨by omega, Int32.ofInt_toInt a⟩

end SyncCascade.Word
