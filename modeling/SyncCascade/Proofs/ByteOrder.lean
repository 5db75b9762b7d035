import SyncCascade.Proofs.Batch

/-!
# The order of texts is the order of their bytes

Texts are compared character by character, by code points. The UTF-8 encoding of a greater character
is greater byte by byte, and it differs from the smaller one before either ends, so comparing the bytes
of two texts gives the same.
-/

namespace SyncCascade.Text

theorem cons_ofNat_lt {a b : Nat} {x y : List UInt8} (ha : a < 256) (hb : b < 256)
    (h : a < b ∨ a = b ∧ x < y) : UInt8.ofNat a :: x < UInt8.ofNat b :: y := by
  rw [List.cons_lt_cons_iff, UInt8.lt_iff_toNat_lt, UInt8.toNat_ofNat', UInt8.toNat_ofNat',
    Nat.mod_eq_of_lt ha, Nat.mod_eq_of_lt hb]
  exact h.imp_right fun h => ⟨congrArg UInt8.ofNat h.1, h.2⟩

/-- A longer encoding starts with a greater byte; of two with the same length, the digits of the code
point to the base 64 decide. -/
theorem utf8EncodeChar_append_lt {c d : Char} (h : c < d) (x y : List UInt8) :
    String.utf8EncodeChar c ++ x < String.utf8EncodeChar d ++ y := by
  have hlt : c.val.toNat < d.val.toNat := h
  have hbound : d.val.toNat < 0x110000 := by
    have hvalid : d.val.isValidChar := d.valid
    unfold UInt32.isValidChar Nat.isValidChar at hvalid
    omega
  fun_cases String.utf8EncodeChar c with
  | case1 v hv =>
    fun_cases String.utf8EncodeChar d with
    | case1 w hw => exact cons_ofNat_lt (by omega) (by omega) (.inl hlt)
    | case2 w hw hw' => exact cons_ofNat_lt (by omega) (by omega) (.inl (by omega))
    | case3 w hw hw' hw'' => exact cons_ofNat_lt (by omega) (by omega) (.inl (by omega))
    | case4 w hw hw' hw'' => exact cons_ofNat_lt (by omega) (by omega) (.inl (by omega))
  | case2 v hv hv' =>
    fun_cases String.utf8EncodeChar d with
    | case1 w hw => omega
    | case2 w hw hw' =>
      have hdigits : v / 64 % 32 + 192 < w / 64 % 32 + 192 ∨
          v / 64 % 32 + 192 = w / 64 % 32 + 192 ∧ v % 64 + 128 < w % 64 + 128 := by omega
      refine cons_ofNat_lt (by omega) (by omega) (hdigits.imp_right fun ⟨heq, h⟩ => ⟨heq, ?_⟩)
      exact cons_ofNat_lt (by omega) (by omega) (.inl h)
    | case3 w hw hw' hw'' => exact cons_ofNat_lt (by omega) (by omega) (.inl (by omega))
    | case4 w hw hw' hw'' => exact cons_ofNat_lt (by omega) (by omega) (.inl (by omega))
  | case3 v hv hv' hv'' =>
    fun_cases String.utf8EncodeChar d with
    | case1 w hw => omega
    | case2 w hw hw' => omega
    | case3 w hw hw' hw'' =>
      have hdigits : v / 4096 % 16 + 224 < w / 4096 % 16 + 224 ∨
          v / 4096 % 16 + 224 = w / 4096 % 16 + 224 ∧
            (v / 64 % 64 + 128 < w / 64 % 64 + 128 ∨
              v / 64 % 64 + 128 = w / 64 % 64 + 128 ∧ v % 64 + 128 < w % 64 + 128) := by omega
      refine cons_ofNat_lt (by omega) (by omega) (hdigits.imp_right fun ⟨heq, h⟩ => ⟨heq, ?_⟩)
      refine cons_ofNat_lt (by omega) (by omega) (h.imp_right fun ⟨heq, h⟩ => ⟨heq, ?_⟩)
      exact cons_ofNat_lt (by omega) (by omega) (.inl h)
    | case4 w hw hw' hw'' => exact cons_ofNat_lt (by omega) (by omega) (.inl (by omega))
  | case4 v hv hv' hv'' =>
    fun_cases String.utf8EncodeChar d with
    | case1 w hw => omega
    | case2 w hw hw' => omega
    | case3 w hw hw' hw'' => omega
    | case4 w hw hw' hw'' =>
      have hdigits : v / 262144 % 8 + 240 < w / 262144 % 8 + 240 ∨
          v / 262144 % 8 + 240 = w / 262144 % 8 + 240 ∧
            (v / 4096 % 64 + 128 < w / 4096 % 64 + 128 ∨
              v / 4096 % 64 + 128 = w / 4096 % 64 + 128 ∧
                (v / 64 % 64 + 128 < w / 64 % 64 + 128 ∨
                  v / 64 % 64 + 128 = w / 64 % 64 + 128 ∧ v % 64 + 128 < w % 64 + 128)) := by
        -- Too many quotients for `omega` at once, so the digits are compared one after the other.
        have hlow : v / 64 < w / 64 ∨ v / 64 = w / 64 ∧ v % 64 < w % 64 := by omega
        have hmid : v / 64 < w / 64 →
            v / 4096 < w / 4096 ∨ v / 4096 = w / 4096 ∧ v / 64 % 64 < w / 64 % 64 := by omega
        have hhigh : v / 4096 < w / 4096 →
            v / 262144 < w / 262144 ∨ v / 262144 = w / 262144 ∧ v / 4096 % 64 < w / 4096 % 64 := by
          omega
        have htop : v / 262144 % 8 = v / 262144 ∧ w / 262144 % 8 = w / 262144 :=
          ⟨Nat.mod_eq_of_lt (by omega), Nat.mod_eq_of_lt (by omega)⟩
        rw [htop.1, htop.2]
        omega
      refine cons_ofNat_lt (by omega) (by omega) (hdigits.imp_right fun ⟨heq, h⟩ => ⟨heq, ?_⟩)
      refine cons_ofNat_lt (by omega) (by omega) (h.imp_right fun ⟨heq, h⟩ => ⟨heq, ?_⟩)
      refine cons_ofNat_lt (by omega) (by omega) (h.imp_right fun ⟨heq, h⟩ => ⟨heq, ?_⟩)
      exact cons_ofNat_lt (by omega) (by omega) (.inl h)

theorem flatMap_utf8EncodeChar_lt {cs ds : List Char} (h : cs < ds) :
    cs.flatMap String.utf8EncodeChar < ds.flatMap String.utf8EncodeChar := by
  induction cs generalizing ds with
  | nil =>
    cases ds with
    | nil => cases h
    | cons d rest =>
      rw [List.flatMap_cons, List.flatMap_nil]
      fun_cases String.utf8EncodeChar d <;> exact List.nil_lt_cons _ _
  | cons c rest ih =>
    cases ds with
    | nil => cases h
    | cons d rest' =>
      rw [List.flatMap_cons, List.flatMap_cons]
      rcases List.cons_lt_cons_iff.1 h with hhead | ⟨rfl, htail⟩
      · exact utf8EncodeChar_append_lt hhead _ _
      · exact List.append_left_lt (ih htail)

theorem toUTF8_lt {s t : String} (h : s < t) : s.toUTF8.toList < t.toUTF8.toList := by
  rw [Batch.toList_toUTF8, Batch.toList_toUTF8]
  exact flatMap_utf8EncodeChar_lt (String.lt_iff.1 h)

end SyncCascade.Text
