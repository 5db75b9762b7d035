import Mathlib.Algebra.Group.Nat.Defs
import SyncCascade.Identifier

/-!
# Written identifiers

The written form of an identifier is one of the spellings it is read from, so an identifier can be
told from its text.
-/

namespace SyncCascade

namespace Hex

theorem value?_digit (d : Nat) : value? (digit d) = some (d % 16) := by
  have hall : ∀ d < 16, value? (Nat.digitChar d) = some d := by decide
  exact hall _ (Nat.mod_lt d (by decide))

@[simp] theorem length_digits (width n : Nat) : (digits width n).length = width := by
  induction width generalizing n with
  | zero => rfl
  | succ width ih => simp [digits, ih]

theorem valueFrom?_digits_append (acc width n : Nat) (rest : List Char) :
    valueFrom? acc (digits width n ++ rest) =
      valueFrom? (16 ^ width * acc + n % 16 ^ width) rest := by
  induction width generalizing n rest with
  | zero => simp [digits, Nat.mod_one]
  | succ width ih =>
    have hmod : n % 16 ^ (width + 1) = n % 16 + 16 * (n / 16 % 16 ^ width) := by
      rw [Nat.pow_succ', Nat.mod_mul]
    rw [digits, List.append_assoc, ih, List.singleton_append, valueFrom?, value?_digit]
    rw [hmod, Nat.pow_succ', Nat.mul_assoc]
    generalize n / 16 % 16 ^ width = high
    generalize 16 ^ width * acc = before
    have hvalue : 16 * (before + high) + n % 16 = 16 * before + (n % 16 + 16 * high) := by omega
    exact congrArg (fun value => valueFrom? value rest) hvalue

theorem valueFrom?_digits {width n : Nat} (h : n < 16 ^ width) :
    valueFrom? 0 (digits width n) = some n := by
  have := valueFrom?_digits_append 0 width n []
  rwa [List.append_nil, Nat.mul_zero, Nat.zero_add, Nat.mod_eq_of_lt h] at this

theorem zero_notMem_of_valueFrom? {acc n : Nat} {cs : List Char} (h : valueFrom? acc cs = some n) :
    '\x00' ∉ cs := by
  induction cs generalizing acc with
  | nil => exact List.not_mem_nil
  | cons c rest ih =>
    unfold valueFrom? at h
    cases hc : value? c with
    | none => simp [hc] at h
    | some d =>
      rw [hc] at h
      have hne : '\x00' ≠ c := by
        rintro rfl
        cases hc
      exact List.not_mem_cons_of_ne_of_not_mem hne (ih h)

end Hex

namespace Uuid

/-- Reading undoes the hyphens, which stand at fixed places among the 32 digits. -/
theorem ofHyphenated?_hyphenate {ds : List Char} (h : ds.length = 32) :
    ofHyphenated? (hyphenate ds) = ofPlain? ds := by
  match ds, h with
  | [c0, c1, c2, c3, c4, c5, c6, c7,
      c8, c9, c10, c11, c12, c13, c14, c15,
      c16, c17, c18, c19, c20, c21, c22, c23,
      c24, c25, c26, c27, c28, c29, c30, c31], _ => rfl

theorem length_hyphenate {ds : List Char} (h : ds.length = 32) : (hyphenate ds).length = 36 := by
  unfold hyphenate
  simp only [List.length_append, List.length_cons, List.length_take, List.length_drop, h]
  rfl

theorem ofChars?_chars (u : Uuid) : ofChars? u.chars = some u := by
  have hdigits := Hex.length_digits 32 u.bits.toNat
  have hvalue : Hex.valueFrom? 0 (Hex.digits 32 u.bits.toNat) = some u.bits.toNat :=
    Hex.valueFrom?_digits u.bits.isLt
  unfold ofChars? chars
  rw [length_hyphenate hdigits, if_neg (by decide), if_pos rfl, ofHyphenated?_hyphenate hdigits,
    ofPlain?, if_pos hdigits, hvalue, Option.map_some, BitVec.ofNat_toNat, BitVec.setWidth_eq]

theorem parse?_text (u : Uuid) : parse? u.text = some u := by
  unfold parse? text
  rw [String.toList_ofList]
  exact ofChars?_chars u

theorem zero_notMem_of_ofPlain? {cs : List Char} {u : Uuid} (h : ofPlain? cs = some u) :
    '\x00' ∉ cs := by
  unfold ofPlain? at h
  split at h
  · obtain ⟨n, hn, -⟩ := Option.map_eq_some_iff.1 h
    exact Hex.zero_notMem_of_valueFrom? hn
  · cases h

theorem drop_of_getElem? {cs : List Char} {i : Nat} {c : Char} (h : cs[i]? = some c) :
    cs.drop i = c :: cs.drop (i + 1) := by
  obtain ⟨hi, hc⟩ := List.getElem?_eq_some_iff.1 h
  rw [List.drop_eq_getElem_cons hi, hc]

theorem zero_notMem_of_ofHyphenated? {cs : List Char} {u : Uuid} (h : ofHyphenated? cs = some u) :
    '\x00' ∉ cs := by
  unfold ofHyphenated? at h
  split at h
  next hshape =>
    obtain ⟨-, h8, h13, h18, h23⟩ := hshape
    have hplain := zero_notMem_of_ofPlain? h
    simp only [List.mem_append, not_or] at hplain
    obtain ⟨⟨⟨⟨hp₁, hp₂⟩, hp₃⟩, hp₄⟩, hp₅⟩ := hplain
    have hhyphen : '\x00' ≠ '-' := by decide
    have hstep : ∀ i, '\x00' ∉ (cs.drop i).take 4 → cs[i + 4]? = some '-' →
        '\x00' ∉ cs.drop (i + 5) → '\x00' ∉ cs.drop i := by
      intro i htake hget hdrop
      rw [← List.take_append_drop 4 (cs.drop i), List.drop_drop, drop_of_getElem? hget,
        List.mem_append, List.mem_cons]
      rintro (hmem | heq | hmem)
      · exact htake hmem
      · exact hhyphen heq
      · exact hdrop hmem
    have hrest := hstep 9 hp₂ h13 (hstep 14 hp₃ h18 (hstep 19 hp₄ h23 hp₅))
    rw [← List.take_append_drop 8 cs, drop_of_getElem? h8, List.mem_append, List.mem_cons]
    rintro (hmem | heq | hmem)
    · exact hp₁ hmem
    · exact hhyphen heq
    · exact hrest hmem
  next => cases h

theorem length_of_ofChars? {cs : List Char} {u : Uuid} (h : ofChars? cs = some u) :
    cs.length = 32 ∨ cs.length = 36 ∨ cs.length = 38 ∨ cs.length = 45 := by
  unfold ofChars? at h
  split at h
  next h32 => exact .inl h32
  next =>
    split at h
    next h36 => exact .inr (.inl h36)
    next =>
      split at h
      next h38 => exact .inr (.inr (.inl h38.1))
      next =>
        split at h
        next h45 => exact .inr (.inr (.inr h45.1))
        next => cases h

theorem zero_notMem_of_ofChars? {cs : List Char} {u : Uuid} (h : ofChars? cs = some u) :
    '\x00' ∉ cs := by
  unfold ofChars? at h
  split at h
  next => exact zero_notMem_of_ofPlain? h
  next =>
    split at h
    next => exact zero_notMem_of_ofHyphenated? h
    next =>
      split at h
      next hbraces =>
        obtain ⟨hlength, hhead, hlast⟩ := hbraces
        have hmid := zero_notMem_of_ofHyphenated? h
        rw [List.head?_eq_getElem?] at hhead
        rw [List.getLast?_eq_getElem?, hlength] at hlast
        have hrest : cs.drop 1 = (cs.drop 1).take 36 ++ ['}'] := by
          have hend : cs.drop 38 = [] := List.drop_eq_nil_of_le (by omega)
          have hclose : cs.drop 37 = '}' :: cs.drop 38 := drop_of_getElem? hlast
          have hcut := List.take_append_drop 36 (cs.drop 1)
          rw [List.drop_drop, hclose, hend] at hcut
          exact hcut.symm
        rw [← List.drop_zero (l := cs), drop_of_getElem? hhead, hrest, List.mem_cons,
          List.mem_append, List.mem_singleton]
        rintro (heq | hmem | heq)
        · revert heq
          decide
        · exact hmid hmem
        · revert heq
          decide
      next =>
        split at h
        next hurn =>
          rw [← List.take_append_drop 9 cs, List.mem_append]
          rintro (hmem | hmem)
          · have hlower : Char.toLower '\x00' ∈ urn := hurn.2 ▸ List.mem_map_of_mem hmem
            revert hlower
            decide
          · exact zero_notMem_of_ofHyphenated? h hmem
        next => cases h

end Uuid

namespace Identifier

variable {α : Type} [Identifier α]

theorem parse_text {a : α} (h : ofUuid (uuid a) = a) : parse (text a) = .ok a := by
  unfold parse parse? text
  rw [Uuid.parse?_text, Option.map_some, h]

end Identifier

end SyncCascade
